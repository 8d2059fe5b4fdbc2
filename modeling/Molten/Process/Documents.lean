import Molten.Collector.CJsonPrint
import Molten.Log.SharedFiles
import Molten.Report.Errors
import Molten.Request.Globals
import Molten.Span.Encodable

namespace Molten.Process

open Molten.Control Molten.Log Molten.Php Molten.Report Molten.Span
open Molten.Collector Molten.Text
open Zval (plain_bool plain_long plain_double plain_string)
open HashTable (plain_array plain_nil plain_empty utf8_array utf8_list)

/-! What a worker writes of its spans and errors, from the arrays that the
builders make to the bytes in the sink, and how a reader of these finds the
spans and errors again. -/

namespace Documents

/-- The calls that build a span: its start, then annotations with their
times. -/
structure SpanCalls where
  pct : ChainInfo
  start : SpanStart
  anType : AnType
  bas : List (Nat × Ba)

def SpanCalls.build (psb : SpanBuilder) (calls : SpanCalls) : HashTable :=
  calls.bas.foldl (fun span ba => psb.spanAddBa ba.1 span ba.2)
    (psb.startSpan calls.pct calls.start calls.anType)

/-- A name that `add_assoc` may take for an index. -/
def isIndex (name : String) : Bool :=
  match name.toList with
  | [] => false
  | first :: _ => first.isDigit || first == '-'

/-- The buffers have room, no annotation is taken for an entry of a list, and
the strings in the span are UTF-8. -/
structure SpanCalls.Fits (psb : SpanBuilder) (calls : SpanCalls) : Prop where
  start : psb.StartFits calls.pct calls.start
  bas : psb.BasFit (calls.bas.map Prod.snd)
  keys : ∀ ba ∈ calls.bas, isIndex ba.2.key = false
  utf8 : (Zval.array (calls.build psb)).Utf8

/-- `mo_chain_add_span` -/
def moChainAddSpan (spans span : HashTable) : HashTable :=
  if spans.length < Request.maxSpans then spans.push (.array span) else spans

/-- What the head of a segment takes from the chain and the system. -/
structure Segment where
  applicationId : Int
  instanceId : Int
  threadPid : Int
  timeMillis : Nat

def skAddSegments (segment : Segment) (span : HashTable) : HashTable :=
  let traceId : HashTable := []
  let traceId := traceId.push (.long segment.instanceId)
  let traceId := traceId.push (.long segment.threadPid)
  let traceId := traceId.push (.double segment.timeMillis)
  let globalTraceIds : HashTable := []
  let globalTraceIds := globalTraceIds.push (.array traceId)
  let segmentObject : HashTable := []
  let segmentObject := segmentObject.addAssoc "ts" (.array traceId)
  let segmentObject :=
    segmentObject.addAssoc "ai" (.long segment.applicationId)
  let segmentObject := segmentObject.addAssoc "ii" (.long segment.instanceId)
  let segmentObject := segmentObject.addAssoc "ss" (.array span)
  let segmentsTmp : HashTable := []
  let segmentsTmp := segmentsTmp.addAssoc "gt" (.array globalTraceIds)
  let segmentsTmp := segmentsTmp.addAssoc "sg" (.array segmentObject)
  let segments : HashTable := []
  segments.push (.array segmentsTmp)

/-- `start_span_header` of the builders, which for two of them leaves
`NULL`. -/
def startSpanHeader (format : SpanFormat) (segment : Segment)
    (span : HashTable) : Option HashTable :=
  match format with
  | .zipkin => none
  | .opentracing => none
  | .skywalking => some (skAddSegments segment span)

def moChainSegmentsDtor (format : SpanFormat) (segment : Segment)
    (spans : HashTable) : HashTable :=
  (startSpanHeader format segment spans).getD spans

def isArray : Zval → Bool
  | .array _ => true
  | _ => false

/-- What `mo_chain_log_flush` encodes, one after the other. -/
def flushed (outputType : Nat) (spans : HashTable) : List Zval :=
  if outputType = spansBreak then spans.values.filter isArray
  else if outputType = spansWrap then [.array spans]
  else []

/-- The buffer and the errors of a worker, and all that it has written. -/
structure Output where
  log : ChainLog
  report : ErrorReport
  sink : List SinkWrite

/-- The end of a sampled request with its spans, an error, and the end of any
request. -/
inductive Event
  | flush (fresh : Nat → Memory) (segment : Segment) (spans : List SpanCalls)
  | error (uri : Option String) (error : String) (usec : Int)
  | report (usec : Int)

section Run

variable (json : JsonEncode) (psb : SpanBuilder)

def spanArrays (spans : List SpanCalls) : HashTable :=
  (spans.map (SpanCalls.build psb)).foldl moChainAddSpan []

/-- The records of a flush. -/
def records (outputType : Nat) (segment : Segment) (spans : List SpanCalls) :
    List (Option Bytes) :=
  (flushed outputType
    (moChainSegmentsDtor psb.type segment (spanArrays psb spans))).map
      json.encode

def encodeReport (report : Zval) : Bytes := (json.encode report).getD []

def next (output : Output) : Event → Output
  | .flush fresh segment spans =>
      let (log, sink) := moChainLogFlush fresh
        (records json psb output.log.outputType segment spans)
        (moChainLogInit output.log) output.sink
      { output with log, sink }
  | .error uri error usec =>
      { output with report := moRepRecordError uri error usec output.report }
  | .report usec =>
      let (report, sink) := moRepRecordData (encodeReport json) usec output.log
        output.report output.sink
      { output with report, sink }

/-- The spans fit, and each record leaves room.  The texts of an error are
UTF-8. -/
def Fits (output : Output) : Event → Prop
  | .flush fresh segment spans =>
      (∀ calls ∈ spans, calls.Fits psb) ∧
        LeaveRoom fresh (records json psb output.log.outputType segment spans)
          (moChainLogInit output.log)
  | .error uri error _ =>
      (∀ text ∈ uri, Utf8 (Block.ofString text)) ∧
        Utf8 (Block.ofString error)
  | .report _ => True

end Run

def written (sink : List SinkWrite) : Bytes := sink.flatMap SinkWrite.bytes

/-! The reader. -/

def member (name : String) : Json → Option Json
  | .object members =>
      (members.find? fun entry => entry.1 == Block.ofString name).map Prod.snd
  | _ => none

def items : Json → List Json
  | .array items => items
  | _ => []

def errorsIn (value : Json) : List Json :=
  ((member "error" value).map items).getD []

def segmentSpans (segment : Json) : List Json :=
  (((member "sg" segment).bind (member "ss")).map items).getD []

/-- The spans in the value of a line, which may be a report of errors. -/
def spansIn (format : SpanFormat) (outputType : Nat) (value : Json) :
    List Json :=
  if (member "error" value).isSome then []
  else
    let entries := if outputType = spansBreak then [value] else items value
    match format with
    | .skywalking => entries.flatMap segmentSpans
    | _ => entries

theorem SpanCalls.built (psb : SpanBuilder) (calls : SpanCalls) :
    Built (calls.build psb) := by
  refine List.foldlRecOn calls.bas _
    (built_startSpan psb calls.pct calls.start calls.anType) ?_
  intro span built ba _
  exact built_spanAddBa psb built ba.1 ba.2

/-! Arrays that grow by one entry after the other. -/

theorem plain_iff_values {table : HashTable} {depth : Nat} :
    table.Plain depth ↔ ∀ value ∈ table.values, value.Plain depth := by
  rw [HashTable.values, List.forall_mem_map]
  exact Iff.rfl

/-- Only the first spans of a request are kept. -/
theorem foldl_moChainAddSpan (spans : List HashTable) {table : HashTable}
    (list : table.isList 0 = true) (short : table.length ≤ Request.maxSpans) :
    (spans.foldl moChainAddSpan table).isList 0 = true ∧
      (spans.foldl moChainAddSpan table).values =
        (table.values ++ spans.map Zval.array).take Request.maxSpans := by
  have length : table.values.length = table.length := List.length_map _
  induction spans generalizing table with
  | nil =>
      refine ⟨list, ?_⟩
      rw [List.map_nil, List.append_nil, List.take_of_length_le]
      · rfl
      · exact length.trans_le short
  | cons span spans induction =>
      rw [List.foldl_cons, moChainAddSpan]
      split
      · rename_i room
        have longer : (table.push (.array span)).length = table.length + 1 :=
          List.length_append
        obtain ⟨rest, entries⟩ := induction (HashTable.isList_push_zero list)
          (longer.trans_le room) (List.length_map _)
        refine ⟨rest, entries.trans ?_⟩
        rw [HashTable.values_push, List.append_assoc, List.map_cons,
          List.singleton_append]
      · rename_i full
        obtain ⟨rest, entries⟩ := induction list short length
        have end_ : Request.maxSpans = table.values.length := by omega
        refine ⟨rest, entries.trans ?_⟩
        rw [end_, List.take_left, List.take_left]

theorem spanArrays_spec (psb : SpanBuilder) (spans : List SpanCalls) :
    (spanArrays psb spans).isList 0 = true ∧
      (spanArrays psb spans).values =
        (spans.take Request.maxSpans).map fun calls =>
          .array (calls.build psb) := by
  obtain ⟨list, entries⟩ := @foldl_moChainAddSpan
    (spans.map (SpanCalls.build psb)) [] rfl (Nat.zero_le _)
  refine ⟨list, entries.trans ?_⟩
  rw [HashTable.values, List.map_nil, List.nil_append, List.map_map,
    ← List.map_take]
  rfl

theorem plain_spanArrays (psb : SpanBuilder) (spans : List SpanCalls) :
    (spanArrays psb spans).Plain (spanDepth + 1) := by
  rw [plain_iff_values, (spanArrays_spec psb spans).2, List.forall_mem_map]
  exact fun calls _ => plain_array.mpr (calls.built psb).plain

theorem utf8_spanArrays {psb : SpanBuilder} {spans : List SpanCalls}
    (utf8 : ∀ calls ∈ spans, (Zval.array (calls.build psb)).Utf8) :
    (Zval.array (spanArrays psb spans)).Utf8 := by
  obtain ⟨list, entries⟩ := spanArrays_spec psb spans
  rw [utf8_list list, entries, List.forall_mem_map]
  exact fun calls member => utf8 calls (List.mem_of_mem_take member)

/-! Segments. -/

section Segments

variable (segment : Segment) (span : HashTable)

/-- What the two arrays of a segment hold in the end. -/
def traceId : HashTable :=
  [(.index 0, .long segment.instanceId), (.index 1, .long segment.threadPid),
   (.index 2, .double segment.timeMillis)]

def segmentObject : HashTable :=
  [(.name "ts", .array (traceId segment)),
   (.name "ai", .long segment.applicationId),
   (.name "ii", .long segment.instanceId), (.name "ss", .array span)]

def segmentsTmp : HashTable :=
  [(.name "gt", .array [(.index 0, .array (traceId segment))]),
   (.name "sg", .array (segmentObject segment span))]

theorem skAddSegments_eq : skAddSegments segment span =
    [(.index 0, .array (segmentsTmp segment span))] := by
  simp [skAddSegments, segmentsTmp, segmentObject, traceId,
    HashTable.addAssoc, HashTable.update, HashTable.push, HashTable.nextIndex]

variable {span}

theorem plain_segmentsTmp {depth : Nat} (plain : span.Plain (depth + 1)) :
    (segmentsTmp segment span).Plain (depth + 3) := by
  have trace : ∀ depth, (Zval.array (traceId segment)).Plain (depth + 1) := by
    intro depth
    simp [traceId, plain_array, HashTable.Plain, plain_long, plain_double]
  have object : (Zval.array (segmentObject segment span)).Plain (depth + 3) := by
    have inner : (Zval.array span).Plain (depth + 2) := plain
    simp [segmentObject, plain_array, HashTable.Plain, plain_long, trace, inner]
  have head : (Zval.array [(.index 0, .array (traceId segment))]).Plain
      (depth + 3) := by
    simp [plain_array, HashTable.Plain, trace]
  simp [segmentsTmp, HashTable.Plain, head, object]

theorem utf8_segmentsTmp (utf8 : (Zval.array span).Utf8) :
    (Zval.array (segmentsTmp segment span)).Utf8 := by
  have trace : (Zval.array (traceId segment)).Utf8 :=
    ⟨trivial, trivial, trivial, trivial, trivial, trivial, trivial⟩
  refine ⟨utf8_ofString rfl, ⟨trivial, trace, trivial⟩, utf8_ofString rfl, ?_,
    trivial⟩
  exact ⟨utf8_ofString rfl, trace, utf8_ofString rfl, trivial,
    utf8_ofString rfl, trivial, utf8_ofString rfl, utf8, trivial⟩

end Segments

section Reader

variable {double : Int → Block}

theorem member_cons (name : String) (key : Block) (value : Json)
    (members : List (Block × Json)) :
    member name (.object ((key, value) :: members)) =
      if key = Block.ofString name then some value
      else member name (.object members) := by
  rw [member, member, List.find?_cons]
  split
  · rename_i same
    rw [if_pos (eq_of_beq same)]
    rfl
  · rename_i differs
    rw [if_neg (by simpa using differs)]

theorem toJson_object {table : HashTable} (object : table.isList 0 = false) :
    (Zval.array table).toJson double =
      .object (Zval.toMembers double table) := by
  rw [Zval.toJson, object]
  rfl

theorem segmentSpans_toJson (segment : Segment) {span : HashTable}
    (list : span.isList 0 = true) :
    segmentSpans ((Zval.array (segmentsTmp segment span)).toJson double) =
      span.values.map (Zval.toJson double) := by
  have names : Block.ofString "gt" ≠ Block.ofString "sg" ∧
      Block.ofString "ts" ≠ Block.ofString "ss" ∧
      Block.ofString "ai" ≠ Block.ofString "ss" ∧
      Block.ofString "ii" ≠ Block.ofString "ss" := by decide
  have sg : member "sg"
        ((Zval.array (segmentsTmp segment span)).toJson double) =
      some ((Zval.array (segmentObject segment span)).toJson double) := by
    rw [toJson_object rfl]
    simp [segmentsTmp, Zval.toMembers, member_cons, Key.bytes, names]
  have ss : member "ss"
        ((Zval.array (segmentObject segment span)).toJson double) =
      some ((Zval.array span).toJson double) := by
    rw [toJson_object rfl]
    simp [segmentObject, Zval.toMembers, member_cons, Key.bytes, names]
  rw [segmentSpans, sg, Option.bind_some, ss, HashTable.toJson_list double list]
  rfl

/-- No span is taken for a report. -/
theorem member_error_span {span : HashTable} (built : Built span) :
    member "error" ((Zval.array span).toJson double) = none := by
  have other : ∀ name ∈ spanNames, Block.ofString name ≠ Block.ofString "error" :=
    Block.forall_of_all rfl
  have absent : ∀ {table : HashTable}, Built table →
      member "error" (.object (Zval.toMembers double table)) = none := by
    intro table built
    induction table with
    | nil => rfl
    | cons entry table induction =>
        obtain ⟨key, value⟩ := entry
        obtain ⟨⟨name, known, same⟩, names⟩ :=
          List.forall_mem_cons.mp built.names
        obtain ⟨-, plain⟩ := List.forall_mem_cons.mp built.plain
        rw [Zval.toMembers, member_cons, if_neg]
        · exact induction ⟨plain, names⟩
        · change Key.bytes (key, value).1 ≠ _
          rw [same]
          exact other name known
  cases list : span.isList 0 with
  | true =>
      rw [HashTable.toJson_list double list]
      rfl
  | false =>
      rw [toJson_object list]
      exact absent built

theorem member_error_segment (segment : Segment) (span : HashTable) :
    member "error" ((Zval.array (segmentsTmp segment span)).toJson double) =
      none := by
  have names : Block.ofString "gt" ≠ Block.ofString "error" ∧
      Block.ofString "sg" ≠ Block.ofString "error" := by decide
  rw [toJson_object rfl]
  simp [segmentsTmp, Zval.toMembers, Key.bytes, names, member]

/-- The values that are read back from the records of a flush. -/
structure ReadBack (format : SpanFormat) (outputType : Nat)
    (values spans errors : List Json) : Prop where
  spans : values.flatMap (spansIn format outputType) = spans
  errors : values.flatMap errorsIn = errors

theorem errorsIn_of_none {value : Json} (none : member "error" value = none) :
    errorsIn value = [] := by
  rw [errorsIn, none]
  rfl

theorem spansIn_of_none {value : Json} (none : member "error" value = none)
    (format : SpanFormat) (outputType : Nat) :
    spansIn format outputType value =
      match format with
      | .skywalking =>
          (if outputType = spansBreak then [value] else items value).flatMap
            segmentSpans
      | _ => if outputType = spansBreak then [value] else items value := by
  rw [spansIn, none]
  rfl

theorem readBack_single {value : Json} (none : member "error" value = none)
    {format : SpanFormat} {outputType : Nat} {spans : List Json}
    (same : spansIn format outputType value = spans) :
    ReadBack format outputType [value] spans [] where
  spans := (List.flatMap_singleton ..).trans same
  errors := (List.flatMap_singleton ..).trans (errorsIn_of_none none)

/-- A document for each span. -/
theorem readBack_each {format : SpanFormat} (other : format ≠ .skywalking)
    {values : List Zval}
    (built : ∀ value ∈ values, ∃ span, value = .array span ∧ Built span) :
    ReadBack format spansBreak (values.map (Zval.toJson double))
      (values.map (Zval.toJson double)) [] := by
  have none : ∀ value ∈ values.map (Zval.toJson double),
      member "error" value = none := by
    rw [List.forall_mem_map]
    intro value inside
    obtain ⟨span, rfl, built⟩ := built value inside
    exact member_error_span built
  constructor
  · refine (List.flatMap_congr fun value inside => ?_).trans
      (List.flatMap_singleton' _)
    rw [spansIn_of_none (none value inside)]
    cases format with
    | skywalking => exact (other rfl).elim
    | zipkin => exact if_pos rfl
    | opentracing => exact if_pos rfl
  · exact List.flatMap_eq_nil_iff.mpr fun value inside =>
      errorsIn_of_none (none value inside)

/-- One document with all spans. -/
theorem readBack_list {format : SpanFormat} (other : format ≠ .skywalking)
    (values : List Json) :
    ReadBack format spansWrap [.array values] values [] := by
  refine readBack_single rfl ?_
  rw [spansIn_of_none rfl]
  cases format with
  | skywalking => exact (other rfl).elim
  | zipkin => rfl
  | opentracing => rfl

theorem readBack_segments {outputType : Nat}
    (known : outputType = spansWrap ∨ outputType = spansBreak)
    (segment : Segment) {spans : HashTable} (list : spans.isList 0 = true) :
    ReadBack .skywalking outputType
      ((flushed outputType (skAddSegments segment spans)).map
        (Zval.toJson double))
      (spans.values.map (Zval.toJson double)) [] := by
  have inside := @segmentSpans_toJson double segment spans list
  rw [skAddSegments_eq]
  rcases known with rfl | rfl
  · refine @readBack_single (.array [_]) rfl _ _ _ ?_
    rw [spansIn_of_none rfl]
    exact (List.flatMap_singleton ..).trans inside
  · have none := @member_error_segment double segment spans
    refine readBack_single none ?_
    rw [spansIn_of_none none]
    exact (List.flatMap_singleton ..).trans inside

/-- What the documents of a request are read as. -/
theorem readBack_flushed (format : SpanFormat) {outputType : Nat}
    (known : outputType = spansWrap ∨ outputType = spansBreak)
    (segment : Segment) {spans : HashTable} (list : spans.isList 0 = true)
    (built : ∀ value ∈ spans.values, ∃ span, value = .array span ∧ Built span) :
    ReadBack format outputType
      ((flushed outputType (moChainSegmentsDtor format segment spans)).map
        (Zval.toJson double))
      (spans.values.map (Zval.toJson double)) [] := by
  have plainly : format ≠ .skywalking → ReadBack format outputType
      ((flushed outputType spans).map (Zval.toJson double))
      (spans.values.map (Zval.toJson double)) [] := by
    intro other
    rcases known with rfl | rfl
    · have all := HashTable.toJson_list double list
      have whole := @readBack_list format other
        (spans.values.map (Zval.toJson double))
      rw [← all] at whole
      exact whole
    · have arrays : spans.values.filter isArray = spans.values := by
        refine List.filter_eq_self.mpr fun value inside => ?_
        obtain ⟨span, rfl, -⟩ := built value inside
        rfl
      rw [flushed, if_pos rfl, arrays]
      exact readBack_each other built
  cases format with
  | zipkin => exact plainly (by decide)
  | opentracing => exact plainly (by decide)
  | skywalking => exact readBack_segments known segment list

/-! Reports. -/

def errorJson (double : Int → Block) (error : RepError) : Json :=
  (Zval.array (errorEntry error)).toJson double

theorem errorArray_eq (errors : List RepError) :
    ∃ pack : HashTable, errorArray errors = [(.name "error", .array pack)] ∧
      pack.isList 0 = true ∧
      pack.values = errors.map fun error => .array (errorEntry error) := by
  refine ⟨_, rfl, ?_, values_llistApplyFunc errors []⟩
  have grown : ∀ pack : HashTable, pack.isList 0 = true →
      (errors.foldl llistApplyFunc pack).isList 0 = true := by
    intro pack list
    induction errors generalizing pack with
    | nil => exact list
    | cons error errors induction =>
        exact induction _ (HashTable.isList_push_zero list)
  exact grown [] rfl

/-- The texts of an error are UTF-8. -/
def ErrorUtf8 (error : RepError) : Prop :=
  Utf8 (Block.ofString error.uri) ∧ Utf8 (Block.ofString error.error)

theorem plain_errorEntry (error : RepError) {depth : Nat} :
    (errorEntry error).Plain depth :=
  ((plain_nil.addAssoc _ (plain_string _)).addAssoc _
    (plain_string _)).addAssoc _ (plain_double _)

theorem plain_errorArray (errors : List RepError) :
    (errorArray errors).Plain 2 := by
  obtain ⟨pack, same, -, entries⟩ := errorArray_eq errors
  have plain : pack.Plain 1 := by
    rw [plain_iff_values, entries, List.forall_mem_map]
    exact fun error _ => plain_array.mpr (plain_errorEntry error)
  rw [same]
  exact List.forall_mem_singleton.mpr (plain_array.mpr plain)

theorem utf8_errorArray {errors : List RepError}
    (utf8 : ∀ error ∈ errors, ErrorUtf8 error) :
    (Zval.array (errorArray errors)).Utf8 := by
  obtain ⟨pack, same, list, entries⟩ := errorArray_eq errors
  have packed : (Zval.array pack).Utf8 := by
    rw [utf8_list list, entries, List.forall_mem_map]
    intro error member
    exact ⟨utf8_ofString rfl, (utf8 error member).1, utf8_ofString rfl,
      (utf8 error member).2, utf8_ofString rfl, trivial, trivial⟩
  rw [same]
  exact ⟨utf8_ofString rfl, packed, trivial⟩

theorem readBack_report (format : SpanFormat) (outputType : Nat)
    (errors : List RepError) :
    ReadBack format outputType
      [(Zval.array (errorArray errors)).toJson double] []
      (errors.map (errorJson double)) := by
  obtain ⟨pack, same, list, entries⟩ := errorArray_eq errors
  have found : member "error" ((Zval.array (errorArray errors)).toJson double) =
      some (.array (errors.map (errorJson double))) := by
    have inner := HashTable.toJson_list double list
    rw [same, toJson_object rfl, Zval.toMembers, member_cons]
    rw [entries, List.map_map] at inner
    exact (if_pos rfl).trans (congrArg some inner)
  constructor
  · rw [List.flatMap_singleton, spansIn, found]
    rfl
  · rw [List.flatMap_singleton, errorsIn, found]
    rfl

theorem ReadBack.append {format : SpanFormat} {outputType : Nat}
    {values spans errors values' spans' errors' : List Json}
    (first : ReadBack format outputType values spans errors)
    (second : ReadBack format outputType values' spans' errors') :
    ReadBack format outputType (values ++ values') (spans ++ spans')
      (errors ++ errors') where
  spans := by rw [List.flatMap_append, first.spans, second.spans]
  errors := by rw [List.flatMap_append, first.errors, second.errors]

end Reader

/-! The lines. -/

theorem encoded (json : JsonEncode) {values : List Zval}
    (plain : ∀ value ∈ values, value.Plain jsonDepth)
    (utf8 : ∀ value ∈ values, value.Utf8) :
    ∃ records : List Record,
      values.map json.encode = records.map (fun r => some r.bytes) ∧
      List.Forall₂ Json.Decodes (records.map Record.bytes)
        (values.map (Zval.toJson json.double)) ∧
      SharedLogs.SingleLines records := by
  induction values with
  | nil => exact ⟨[], rfl, .nil, fun _ => False.elim ∘ List.not_mem_nil⟩
  | cons value values induction =>
      obtain ⟨first, rest⟩ := List.forall_mem_cons.mp plain
      obtain ⟨first', rest'⟩ := List.forall_mem_cons.mp utf8
      obtain ⟨records, texts, decodes, single⟩ := induction rest rest'
      obtain ⟨text, encoded, stands, line⟩ := json.encodes first first'
      refine ⟨⟨text, stands.noNul⟩ :: records, ?_, .cons stands decodes,
        List.forall_mem_cons.mpr ⟨line, single⟩⟩
      rw [List.map_cons, List.map_cons, encoded, texts]

theorem addRecords_encoded (fresh : Nat → Memory) (records : List Record)
    (log : ChainLog) :
    (addRecords fresh (records.map fun r => some r.bytes) log).2 = true ∧
      (addRecords fresh (records.map fun r => some r.bytes) log).1.outputType =
        log.outputType := by
  induction records generalizing log with
  | nil => exact ⟨rfl, rfl⟩
  | cons record records induction =>
      obtain ⟨done, kept⟩ := induction (moChainLogAdd fresh record.bytes log)
      refine ⟨done, kept.trans ?_⟩
      rw [moChainLogAdd, ensureSize]
      split <;> split <;> rfl

/-- What a worker has written is lines of JSON texts, in which a reader finds
these spans and those of the errors that are not pending. -/
structure Readable (psb : SpanBuilder) (outputType : Nat)
    (double : Int → Block) (output : Output) (spans : List Json)
    (errors : List RepError) : Prop where
  sinkType : output.log.sinkType = sinkLog ∨ output.log.sinkType = sinkStd
  type : output.log.outputType = outputType
  ended : Block.Ended (written output.sink)
  utf8 : ∀ error ∈ output.report.errorList, ErrorUtf8 error
  values : ∃ values reported,
    List.Forall₂ Json.Decodes (Block.splitLines (written output.sink)) values ∧
      ReadBack psb.type outputType values spans
        (reported.map (errorJson double)) ∧
      reported ++ output.report.errorList = errors

/-- Spans as a reader sees them. -/
def spanJsons (psb : SpanBuilder) (double : Int → Block)
    (spans : List SpanCalls) : List Json :=
  (spans.take Request.maxSpans).map fun calls =>
    (Zval.array (calls.build psb)).toJson double

/-- The spans that an event gives to a reader. -/
def Event.spans (psb : SpanBuilder) (double : Int → Block) : Event → List Json
  | .flush _ _ spans => spanJsons psb double spans
  | .error _ _ _ => []
  | .report _ => []

/-- The error that an event records. -/
def Event.errors : Event → List RepError
  | .flush _ _ _ => []
  | .error uri message usec => (uri.map fun uri => ⟨uri, message, usec⟩).toList
  | .report _ => []

section Steps

variable {json : JsonEncode} {psb : SpanBuilder} {outputType : Nat}
variable {output : Output} {spans : List Json} {errors : List RepError}

theorem moLogWrite_file {log : ChainLog}
    (file : log.sinkType = sinkLog ∨ log.sinkType = sinkStd) (origin : Origin)
    (bytes : Bytes) (sink : List SinkWrite) :
    moLogWrite log origin bytes sink = sink ++ [⟨origin, bytes⟩] := by
  refine if_pos ?_
  rcases file with same | same <;> rw [same] <;> decide

theorem written_append (sink : List SinkWrite) (origin : Origin)
    (bytes : Bytes) :
    written (sink ++ [⟨origin, bytes⟩]) = written sink ++ bytes := by
  rw [written, List.flatMap_append, List.flatMap_singleton]
  rfl

/-- Some lines more, with what a reader finds in them. -/
theorem Readable.write {double : Int → Block}
    (readable : Readable psb outputType double output spans errors)
    {log : ChainLog} (sinkType : log.sinkType = output.log.sinkType)
    (type : log.outputType = outputType) {report : ErrorReport}
    {records : List Record} (single : SharedLogs.SingleLines records)
    (origin : Origin) {values more : List Json} {reported : List RepError}
    (decodes : List.Forall₂ Json.Decodes (records.map Record.bytes) values)
    (read : ReadBack psb.type outputType values more
      (reported.map (errorJson double)))
    (pending : reported ++ report.errorList = output.report.errorList) :
    Readable psb outputType double
      { log, report
        sink := output.sink ++
          [⟨origin, Block.joinLines (records.map Record.bytes)⟩] }
      (spans ++ more) errors := by
  obtain ⟨before, earlier, lines, found, total⟩ := readable.values
  have split : Block.splitLines
      (Block.joinLines (records.map Record.bytes)) =
        records.map Record.bytes := by
    refine Block.splitLines_joinLines fun line member => ?_
    obtain ⟨record, within, rfl⟩ := List.mem_map.mp member
    exact single record within
  refine ⟨sinkType ▸ readable.sinkType, type, ?_, fun error member => ?_,
    before ++ values, earlier ++ reported, ?_, ?_, ?_⟩
  · rw [written_append]
    exact Block.ended_append readable.ended (Block.ended_joinLines _)
  · exact readable.utf8 error
      (pending ▸ List.mem_append_right reported member)
  · rw [written_append, Block.splitLines_append readable.ended, split]
    exact List.rel_append lines decodes
  · rw [List.map_append]
    exact found.append read
  · rw [List.append_assoc, pending]
    exact total

theorem lines_file {sinkType : Nat}
    (file : sinkType = sinkLog ∨ sinkType = sinkStd) (records : List Record) :
    lines sinkType records = Block.joinLines (records.map Record.bytes) := by
  have below : sinkType ≤ sinkStd := by
    rcases file with rfl | rfl <;> decide
  rw [lines, Block.joinLines, List.flatMap_map]
  exact List.flatMap_congr fun record _ => if_pos below

/-- What a flush of records that leave room does. -/
theorem flush_encoded {log : ChainLog}
    (file : log.sinkType = sinkLog ∨ log.sinkType = sinkStd)
    {fresh : Nat → Memory} {records : List Record}
    (room : LeaveRoom fresh (records.map fun r => some r.bytes)
      (moChainLogInit log)) (sink : List SinkWrite) :
    ∃ log', log'.sinkType = log.sinkType ∧ log'.outputType = log.outputType ∧
      moChainLogFlush fresh (records.map fun r => some r.bytes)
        (moChainLogInit log) sink =
          (log', sink ++
            [⟨.spanLog, Block.joinLines (records.map Record.bytes)⟩]) := by
  obtain ⟨done, type⟩ :=
    addRecords_encoded fresh records (moChainLogInit log)
  have sound : Buffer.Sound ⟨moChainLogInit log, []⟩ := ⟨Nat.zero_le _, rfl⟩
  obtain ⟨contents, sinkType⟩ :=
    contents_addRecords fresh sound room
  rw [moChainLogFlush]
  split
  · rename_i log' result
    rw [result] at contents sinkType type
    refine ⟨log', sinkType, type, ?_⟩
    have same : log'.sinkType = log.sinkType := sinkType
    rw [moLogWrite_file (same ▸ file), contents]
    exact congrArg (fun bytes => (log', sink ++ [⟨.spanLog, bytes⟩]))
      (lines_file file records)
  · rename_i log' result
    rw [result] at done
    cases done

/-- What holds of the spans of a request in an array, and of the entries of
such an array, holds of what is encoded of them. -/
theorem forall_flushed {holds : Zval → Prop} {outputType : Nat}
    {spans : HashTable} (all : holds (.array spans))
    (entries : ∀ value ∈ spans.values, holds value) :
    ∀ value ∈ flushed outputType spans, holds value := by
  rw [flushed]
  split
  · exact fun value member => entries value (List.mem_filter.mp member).1
  · split
    · exact List.forall_mem_singleton.mpr all
    · exact fun _ => False.elim ∘ List.not_mem_nil

theorem plain_flushed (psb : SpanBuilder) (outputType : Nat)
    (segment : Segment) (calls : List SpanCalls) :
    ∀ value ∈ flushed outputType
      (moChainSegmentsDtor psb.type segment (spanArrays psb calls)),
      value.Plain jsonDepth := by
  have spans := plain_spanArrays psb calls
  have all : (Zval.array (moChainSegmentsDtor psb.type segment
      (spanArrays psb calls))).Plain 9 := by
    cases psb.type with
    | zipkin => exact (plain_array.mpr spans).mono (by decide)
    | opentracing => exact (plain_array.mpr spans).mono (by decide)
    | skywalking =>
        rw [moChainSegmentsDtor, startSpanHeader, Option.getD_some,
          skAddSegments_eq]
        exact plain_array.mpr (List.forall_mem_singleton.mpr
          (plain_array.mpr (plain_segmentsTmp segment spans)))
  refine forall_flushed (all.mono (by decide)) fun value member => ?_
  exact (plain_iff_values.mp (plain_array.mp all) value member).mono (by decide)

theorem utf8_flushed {psb : SpanBuilder} (outputType : Nat) (segment : Segment)
    {calls : List SpanCalls}
    (utf8 : ∀ call ∈ calls, (Zval.array (call.build psb)).Utf8) :
    ∀ value ∈ flushed outputType
      (moChainSegmentsDtor psb.type segment (spanArrays psb calls)),
      value.Utf8 := by
  have spans := utf8_spanArrays utf8
  have all : (Zval.array (moChainSegmentsDtor psb.type segment
      (spanArrays psb calls))).Utf8 := by
    cases psb.type with
    | zipkin => exact spans
    | opentracing => exact spans
    | skywalking =>
        rw [moChainSegmentsDtor, startSpanHeader, Option.getD_some,
          skAddSegments_eq]
        exact ⟨trivial, utf8_segmentsTmp segment spans, trivial⟩
  refine forall_flushed all fun value member => ?_
  obtain ⟨entry, inside, rfl⟩ := List.mem_map.mp member
  exact (utf8_array.mp all entry inside).2

theorem Readable.flush
    (readable : Readable psb outputType json.double output spans errors)
    (known : outputType = spansWrap ∨ outputType = spansBreak)
    (fresh : Nat → Memory) (segment : Segment) (calls : List SpanCalls)
    (room : Fits json psb output (.flush fresh segment calls)) :
    Readable psb outputType json.double
      (next json psb output (.flush fresh segment calls))
      (spans ++ spanJsons psb json.double calls) errors := by
  obtain ⟨list, entries⟩ := spanArrays_spec psb calls
  obtain ⟨texts, encoded, decodes, single⟩ := encoded json
    (plain_flushed psb output.log.outputType segment calls)
    (utf8_flushed output.log.outputType segment fun call member =>
      (room.1 call member).utf8)
  have same : records json psb output.log.outputType segment calls =
      texts.map fun r => some r.bytes := encoded
  rw [Fits, same] at room
  obtain ⟨log', sinkType, type, flush⟩ :=
    flush_encoded readable.sinkType room.2 output.sink
  have read := @readBack_flushed json.double psb.type outputType known segment
    _ list (by
      rw [entries, List.forall_mem_map]
      exact fun calls _ => ⟨_, rfl, calls.built psb⟩)
  rw [entries, List.map_map] at read
  rw [readable.type] at decodes
  have written := readable.write sinkType (type.trans readable.type) single
    .spanLog decodes read (List.nil_append output.report.errorList)
  rw [Documents.next, same, flush]
  exact written

/-- The errors are kept, or all of them are written and none is left. -/
theorem moRepRecordData_cases (encode : Zval → Bytes) (usec : Int)
    (log : ChainLog) (report : ErrorReport) (sink : List SinkWrite) :
    ∃ report', (report'.errorList = report.errorList ∧
        moRepRecordData encode usec log report sink = (report', sink)) ∨
      (report'.errorList = [] ∧
        moRepRecordData encode usec log report sink = (report',
          moLogWrite log .report
            (formatLlistToArray encode report.errorList) sink)) := by
  have kept : (checkInterval usec report).2.errorList = report.errorList := by
    rw [checkInterval]
    split
    · rfl
    · split <;> rfl
  rw [moRepRecordData]
  split
  · rename_i report' result
    rw [result] at kept
    exact ⟨report', .inl ⟨kept, rfl⟩⟩
  · rename_i report' _ result
    rw [result] at kept
    refine ⟨{ report' with errorList := [] }, .inr ⟨rfl, ?_⟩⟩
    rw [show report'.errorList = report.errorList from kept]

theorem Readable.report
    (readable : Readable psb outputType json.double output spans errors)
    (usec : Int) :
    Readable psb outputType json.double (next json psb output (.report usec))
      spans errors := by
  rw [Documents.next]
  obtain ⟨report, ⟨kept, result⟩ | ⟨none, result⟩⟩ :=
    moRepRecordData_cases (encodeReport json) usec output.log output.report
      output.sink
  · obtain ⟨values, reported, lines, read, total⟩ := readable.values
    rw [result]
    exact ⟨readable.sinkType, readable.type, readable.ended,
      kept ▸ readable.utf8, values, reported, lines, read, kept ▸ total⟩
  · obtain ⟨text, encodes, stands, line⟩ := json.encodes
      ((plain_array.mpr (plain_errorArray output.report.errorList)).mono
        (by decide))
      (utf8_errorArray readable.utf8)
    have left : output.report.errorList ++ report.errorList =
        output.report.errorList := by rw [none, List.append_nil]
    have single : SharedLogs.SingleLines [⟨text, stands.noNul⟩] :=
      List.forall_mem_singleton.mpr line
    have written := readable.write rfl readable.type single .report
      (.cons stands .nil)
      (readBack_report psb.type outputType output.report.errorList) left
    have joined : Block.joinLines [text] = text ++ [10] :=
      List.flatMap_singleton ..
    rw [List.append_nil, List.map_singleton, joined] at written
    rw [result, moLogWrite_file readable.sinkType, formatLlistToArray,
      encodeReport, encodes]
    exact written

theorem Readable.next
    (readable : Readable psb outputType json.double output spans errors)
    (known : outputType = spansWrap ∨ outputType = spansBreak) (event : Event)
    (room : Fits json psb output event) :
    Readable psb outputType json.double (next json psb output event)
      (spans ++ event.spans psb json.double) (errors ++ event.errors) := by
  cases event with
  | flush fresh segment calls =>
      rw [Event.errors, List.append_nil]
      exact readable.flush known fresh segment calls room
  | report usec =>
      rw [Event.errors, Event.spans, List.append_nil, List.append_nil]
      exact readable.report usec
  | error uri error usec =>
      rw [Event.spans, List.append_nil]
      obtain ⟨values, reported, lines, read, total⟩ := readable.values
      refine ⟨readable.sinkType, readable.type, readable.ended, ?_, values,
        reported, lines, read, ?_⟩
      · cases uri with
        | none => exact readable.utf8
        | some uri =>
            exact List.forall_mem_append.mpr ⟨readable.utf8,
              List.forall_mem_singleton.mpr ⟨room.1 uri rfl, room.2⟩⟩
      · rw [← total]
        cases uri with
        | none => exact (List.append_nil _).symm
        | some uri => exact (List.append_assoc ..).symm

theorem Readable.events
    (known : outputType = spansWrap ∨ outputType = spansBreak)
    {events : List Event} {output : Output} {spans : List Json}
    {errors : List RepError}
    (readable : Readable psb outputType json.double output spans errors)
    (room : Along (Documents.next json psb) (Fits json psb) output events) :
    Readable psb outputType json.double
      (events.foldl (Documents.next json psb) output)
      (spans ++ events.flatMap (Event.spans psb json.double))
      (errors ++ events.flatMap Event.errors) := by
  induction events generalizing output spans errors with
  | nil =>
      rw [List.flatMap_nil, List.flatMap_nil, List.append_nil, List.append_nil]
      exact readable
  | cons event events induction =>
      have rest := induction (readable.next known event room.1) room.2
      rw [List.append_assoc, List.append_assoc] at rest
      rw [List.flatMap_cons, List.flatMap_cons]
      exact rest

end Steps

/-- All that a worker writes to a file or to its standard output is lines of
JSON.  In these a reader finds the first spans of each sampled request, in their
order, and all errors but those that are pending. -/
theorem lines_readable (json : JsonEncode) (psb : SpanBuilder) {output : Output}
    (file : output.log.sinkType = sinkLog ∨ output.log.sinkType = sinkStd)
    (known : output.log.outputType = spansWrap ∨
      output.log.outputType = spansBreak)
    (nothing : output.sink = [] ∧ output.report.errorList = [])
    {events : List Event}
    (room : Along (next json psb) (Fits json psb) output events) :
    ∃ values reported,
      List.Forall₂ Json.Decodes
        (Block.splitLines (written (events.foldl (next json psb) output).sink))
        values ∧
      values.flatMap (spansIn psb.type output.log.outputType) =
        events.flatMap (Event.spans psb json.double) ∧
      values.flatMap errorsIn = reported.map (errorJson json.double) ∧
      reported ++ (events.foldl (next json psb) output).report.errorList =
        events.flatMap Event.errors := by
  have start : Readable psb output.log.outputType json.double output [] [] := by
    refine ⟨file, rfl, ?_, ?_, [], [], ?_, ⟨rfl, rfl⟩, nothing.2⟩
    · rw [nothing.1]
      exact Block.ended_nil
    · rw [nothing.2]
      exact fun _ => False.elim ∘ List.not_mem_nil
    · rw [nothing.1]
      exact .nil
  obtain ⟨values, reported, lines, read, total⟩ :=
    (start.events known room).values
  exact ⟨values, reported, lines, read.spans, read.errors, total⟩

/-! An encoder that prints as `json_encode` does, but for the escapes of
slashes and of what is not ASCII. -/

section Printed

variable {kind : Block → Prop}

mutual

theorem numbers_toJson (integers : ∀ value, kind (Format.integer value))
    (value : Zval) : (value.toJson Format.integer).NumbersAre kind := by
  cases value with
  | null => trivial
  | bool value => trivial
  | long value => exact integers value
  | double value => exact integers value
  | string text => trivial
  | array entries =>
      rw [Zval.toJson]
      split
      · exact numbers_toItems integers entries
      · exact numbers_toMembers integers entries
  | object handle => trivial
  | resource handle => trivial

theorem numbers_toItems (integers : ∀ value, kind (Format.integer value))
    (entries : List (Key × Zval)) :
    Json.NumbersAreItems kind (Zval.toItems Format.integer entries) := by
  match entries with
  | [] => trivial
  | (_, value) :: entries =>
      exact ⟨numbers_toJson integers value, numbers_toItems integers entries⟩

theorem numbers_toMembers (integers : ∀ value, kind (Format.integer value))
    (entries : List (Key × Zval)) :
    Json.NumbersAreMembers kind (Zval.toMembers Format.integer entries) := by
  match entries with
  | [] => trivial
  | (_, value) :: entries =>
      exact ⟨numbers_toJson integers value, numbers_toMembers integers entries⟩

end

end Printed

theorem newline_integer (value : Int) :
    (10 : UInt8) ∉ Format.integer value := by
  cases value with
  | ofNat value => exact Format.notMem_decimal rfl value
  | negSucc value =>
      exact List.not_mem_cons_of_ne_of_not_mem (by decide)
        (Format.notMem_decimal rfl (value + 1))

def printed : JsonEncode where
  double := Format.integer
  encode value :=
    some (CJson.valueText id false 0 (value.toJson Format.integer))
  encodes := by
    intro value _ _
    have written := CJson.valueText_written id false
      (numbers_toJson Format.number_integer value) 0
    rw [Json.mapNumbers_id] at written
    exact ⟨_, rfl, ⟨[], _, [], (List.append_nil _).symm, CJson.blank_nil,
      written, CJson.blank_nil⟩,
      CJson.newline_valueText id (numbers_toJson newline_integer value) 0⟩

/-- A span with an error and a tag for the host that was called. -/
def oneSpan : SpanCalls where
  pct := ⟨"web", "5ab", "10.0.0.1", 80, 1, 3, 2, false⟩
  start := ⟨"query", "1.1", some "1", 10, 30⟩
  anType := .client
  bas :=
    [(30, ⟨"sa", some "sa", "db", some "10.0.0.2", 3306, .sa⟩),
     (30, ⟨"error", some "gone", "web", none, 0, .error⟩)]

def skywalking : SpanBuilder := ⟨.skywalking, ""⟩

theorem oneSpan_fits : oneSpan.Fits skywalking where
  start := by decide
  bas := by decide
  keys := by decide
  utf8 := by
    repeat' first
      | exact trivial
      | exact utf8_ofString rfl
      | refine And.intro ?_ ?_

/-- A request with one span, an error and a report of it. -/
def oneRequest : List Event :=
  [.error (some "h/") "type:1" 1500000,
   .flush (fun _ _ => 0) ⟨3, 7, 42, 1500⟩ [oneSpan], .report 9000000]

def freshOutput : Output where
  log := moChainLogCtor sinkLog spansBreak fun _ => 0
  report := ⟨0, 1, 10, []⟩
  sink := []

theorem oneRequest_readable :
    ∃ values reported,
      List.Forall₂ Json.Decodes
        (Block.splitLines (written
          (oneRequest.foldl (next printed skywalking) freshOutput).sink))
        values ∧
      values.flatMap (spansIn .skywalking spansBreak) =
        oneRequest.flatMap (Event.spans skywalking Format.integer) ∧
      values.flatMap errorsIn = reported.map (errorJson Format.integer) ∧
      reported ++ (oneRequest.foldl (next printed skywalking)
          freshOutput).report.errorList =
        oneRequest.flatMap Event.errors := by
  refine lines_readable printed skywalking (.inl rfl) (.inr rfl) ⟨rfl, rfl⟩
    ⟨⟨?_, utf8_ofString rfl⟩, ⟨?_, ?_⟩, trivial, trivial⟩
  · rintro uri ⟨⟩
    exact utf8_ofString rfl
  · exact List.forall_mem_singleton.mpr oneSpan_fits
  · refine ⟨?_, trivial⟩
    decide +kernel

end Documents

end Molten.Process
