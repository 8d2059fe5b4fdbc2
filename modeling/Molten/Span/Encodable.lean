import Molten.Php.JsonEncode
import Molten.Span.Builder

namespace Molten.Span

open Molten.Php
open Zval (plain_bool plain_long plain_double plain_string)
open HashTable (plain_array plain_nil plain_empty)

/-! What the builders make can be encoded, and has no other names at its top
than theirs. -/

/-- The names at the top of a span. -/
def spanNames : List String :=
  ["traceId", "name", "version", "id", "parentId", "timestamp", "duration",
   "annotations", "binaryAnnotations", "operationName", "startTime",
   "finishTime", "spanContext", "tags", "logs", "si", "tv", "lv", "st", "et",
   "ci", "cn", "on", "ie", "ps", "to", "lo", "pn"]

/-- How deep arrays are nested in the entries of a span. -/
def spanDepth : Nat := 4

structure Built (span : HashTable) : Prop where
  plain : span.Plain spanDepth
  names : ∀ entry ∈ span, ∃ name ∈ spanNames, entry.1 = .name name

section Built

variable {span table : HashTable} {name : String} {value : Zval} {depth : Nat}

theorem built_nil : Built [] :=
  ⟨plain_nil, fun _ => False.elim ∘ List.not_mem_nil⟩

theorem Built.addAssoc (built : Built span) (known : name ∈ spanNames)
    (added : value.Plain spanDepth) : Built (span.addAssoc name value) where
  plain := built.plain.addAssoc name added
  names := by
    intro entry member
    rcases HashTable.mem_update member with old | rfl
    · exact built.names entry old
    · exact ⟨name, known, rfl⟩

theorem Built.within (built : Built span) (name : String)
    {change : HashTable → HashTable}
    (keeps : ∀ entries : HashTable, entries.Plain 3 →
      (change entries).Plain 3) :
    Built (span.within name change) where
  plain := built.plain.within name keeps
  names := by
    intro entry member
    rw [HashTable.within] at member
    split at member
    · rename_i entries found
      rcases HashTable.mem_update member with old | rfl
      · exact built.names entry old
      · obtain ⟨other, known, key⟩ :=
          built.names _ (HashTable.mem_of_find found)
        exact ⟨other, known, key⟩
    · exact built.names entry member

theorem plain_pushed (added : table.Plain depth) :
    ∀ entries : HashTable, entries.Plain (depth + 1) →
      (entries.push (.array table)).Plain (depth + 1) := fun _ plain =>
  plain.push (plain_array.mpr added)

/-! Zipkin. -/

theorem plain_znAddEndpoint (plain : table.Plain (depth + 1))
    (serviceName ipv4 : String) (port : Int) :
    (znAddEndpoint table serviceName ipv4 port).Plain (depth + 1) := by
  refine plain.addAssoc "endpoint" (plain_array.mpr ?_)
  have endpoint : HashTable.Plain depth (HashTable.addAssoc
      (HashTable.addAssoc [] "serviceName" (.string serviceName)) "ipv4"
      (.string ipv4)) :=
    (plain_nil.addAssoc _ (plain_string _)).addAssoc _ (plain_string _)
  split
  · exact endpoint.addAssoc _ (plain_long _)
  · exact endpoint

theorem built_znStartSpan (pct : ChainInfo) (start : SpanStart) :
    Built (znStartSpan pct start) := by
  have head : Built (HashTable.addAssoc (HashTable.addAssoc
      (HashTable.addAssoc (HashTable.addAssoc [] "traceId"
        (.string pct.traceId)) "name" (.string start.name)) "version"
      (.string spanVersion)) "id" (.string start.spanId)) :=
    (((built_nil.addAssoc (by decide) (plain_string _)).addAssoc (by decide)
      (plain_string _)).addAssoc (by decide) (plain_string _)).addAssoc
      (by decide) (plain_string _)
  have tail : ∀ span : HashTable, Built span → Built (HashTable.addAssoc
      (HashTable.addAssoc (HashTable.addAssoc (span.addAssoc "timestamp"
        (.double start.startTime)) "duration"
        (.long ((start.finishTime : Int) - start.startTime))) "annotations"
        (.array [])) "binaryAnnotations" (.array [])) := fun span built =>
    (((built.addAssoc (by decide) (plain_double _)).addAssoc (by decide)
      (plain_long _)).addAssoc (by decide) plain_empty).addAssoc (by decide)
      plain_empty
  rw [znStartSpan]
  refine tail _ ?_
  cases start.parentId with
  | none => exact head
  | some parentId => exact head.addAssoc (by decide) (plain_string _)

theorem built_znAnnotated (built : Built span) (value : String)
    (timestamp : Nat) (pct : ChainInfo) :
    Built ( znAddSpanAnnotation span value timestamp pct) :=
  built.within "annotations" (plain_pushed (plain_znAddEndpoint
    ((plain_nil.addAssoc _ (plain_string _)).addAssoc _ (plain_double _))
    _ _ _))

theorem built_znBannotated (built : Built span) (ba : Ba) :
    Built ( znAddSpanBannotation span ba) := by
  rw [ znAddSpanBannotation]
  split
  · refine Built.within ?_ "binaryAnnotations" (plain_pushed
      (plain_znAddEndpoint
        ((plain_nil.addAssoc _ (plain_string _)).addAssoc _ (plain_string _))
        _ _ _))
    split
    · exact built
    · exact built.addAssoc (by decide) plain_empty
  · exact built

/-! OpenTracing. -/

theorem built_otStartSpan (pct : ChainInfo) (start : SpanStart) :
    Built (otStartSpan pct start) := by
  have context : HashTable.Plain 3 (HashTable.addAssoc (HashTable.addAssoc []
      "traceID" (.string pct.traceId)) "spanID" (.string start.spanId)) :=
    (plain_nil.addAssoc _ (plain_string _)).addAssoc _ (plain_string _)
  rw [otStartSpan]
  refine ((Built.addAssoc ?_ (by decide) ?_).addAssoc (by decide)
    plain_empty).addAssoc (by decide) plain_empty
  · exact ((built_nil.addAssoc (by decide) (plain_string _)).addAssoc
      (by decide) (plain_double _)).addAssoc (by decide) (plain_double _)
  · refine plain_array.mpr ?_
    cases start.parentId with
    | none => exact context
    | some parentId => exact context.addAssoc _ (plain_string _)

theorem built_otAddTag (built : Built span) (key : String) {value : Option Zval}
    (plain : ∀ tag ∈ value, Zval.Plain 3 tag) :
    Built (otAddTag span key value) := by
  cases value with
  | none => exact built
  | some value =>
      exact built.within "tags" fun entries inner =>
        inner.addAssoc key (plain value rfl)

theorem plain_map_string (text : Option String) :
    ∀ tag ∈ text.map Zval.string, Zval.Plain depth tag := by
  intro tag member
  obtain ⟨text, -, rfl⟩ := Option.map_eq_some_iff.mp member
  exact plain_string text

theorem plain_some (plain : value.Plain depth) :
    ∀ tag ∈ some value, Zval.Plain depth tag := by
  intro tag member
  cases member
  exact plain

theorem built_otAddPeer (built : Built span) (addressKey : String) (ba : Ba) :
    Built (otAddPeer span addressKey ba) :=
  built_otAddTag (built_otAddTag (built_otAddTag built _
    (plain_map_string ba.ipv4)) _ (plain_some (plain_long _))) _
    (plain_some (plain_string _))

theorem plain_otLog (timestamp : Nat) (fields : List (String × String)) :
    (otLog timestamp fields).Plain (depth + 1) := by
  refine (plain_nil.addAssoc _ (plain_double _)).addAssoc _
    (plain_array.mpr ?_)
  refine List.foldlRecOn fields _ plain_nil ?_
  intro table plain field _
  exact plain.addAssoc _ (plain_string _)

theorem built_otSpanAddBa (built : Built span) (timestamp : Nat) (ba : Ba) :
    Built (otSpanAddBa span timestamp ba) := by
  have tag := fun key => built_otAddTag built key (plain_map_string ba.value)
  rw [otSpanAddBa]
  cases ba.type with
  | normal => exact tag ba.key
  | sa => exact built_otAddPeer built _ ba
  | saHost => exact built_otAddPeer built _ ba
  | saIp => exact built_otAddPeer built _ ba
  | saDsn => exact tag _
  | path => exact built
  | error =>
      exact (built_otAddTag built _ (plain_some (plain_bool _))).within "logs"
        (plain_pushed (plain_otLog timestamp _))

/-! SkyWalking. -/

theorem built_skAddSpan (pct : ChainInfo) (start : SpanStart) :
    Built (skAddSpan pct start) := by
  rw [skAddSpan]
  refine ((Built.addAssoc ?_ (by decide) ?_).addAssoc (by decide)
    plain_empty).addAssoc (by decide) plain_empty
  · refine Built.addAssoc ?_ (by decide) (plain_bool _)
    refine Built.addAssoc ?_ (by decide) (plain_string _)
    refine Built.addAssoc ?_ (by decide) (plain_string _)
    refine Built.addAssoc ?_ (by decide) (plain_long _)
    refine Built.addAssoc ?_ (by decide) (plain_double _)
    refine Built.addAssoc ?_ (by decide) (plain_double _)
    refine Built.addAssoc ?_ (by decide) (plain_long _)
    refine Built.addAssoc ?_ (by decide) (plain_long _)
    exact built_nil.addAssoc (by decide) (plain_long _)
  · cases start.parentId with
    | none => exact plain_long _
    | some parentId => exact plain_long _

theorem plain_skPair (key value : String) : (skPair key value).Plain depth :=
  (plain_nil.addAssoc _ (plain_string _)).addAssoc _ (plain_string _)

theorem built_skAddTag (built : Built span) (key : String)
    (value : Option String) : Built (skAddTag span key value) := by
  cases value with
  | none => exact built
  | some value =>
      exact built.within "to" (plain_pushed (plain_skPair key value))

theorem built_skAddPeer (built : Built span) (addressKey : String) (ba : Ba) :
    Built (skAddPeer span addressKey ba) := by
  rw [skAddPeer]
  exact built_skAddTag (built_skAddTag (built_skAddTag
    (built.addAssoc (by decide) (plain_string _)) _ _) _ _) _ _

theorem plain_skLog (timestamp : Nat) (fields : List (String × String)) :
    (skLog timestamp fields).Plain (depth + 2) := by
  refine (plain_nil.addAssoc _ (plain_double _)).addAssoc _
    (plain_array.mpr ?_)
  refine List.foldlRecOn fields _ plain_nil ?_
  intro table plain field _
  exact plain_pushed (plain_skPair field.1 field.2) table plain

theorem built_skSpanAddBa (residue : String) (built : Built span)
    (timestamp : Nat) (ba : Ba) :
    Built (skSpanAddBa residue span timestamp ba) := by
  rw [skSpanAddBa]
  cases ba.value with
  | none => exact built
  | some value =>
      cases ba.type with
      | normal => exact built_skAddTag built _ _
      | sa => exact built_skAddPeer built _ ba
      | saHost => exact built_skAddPeer built _ ba
      | saIp => exact built_skAddPeer built _ ba
      | saDsn => exact built_skAddTag built _ _
      | path => exact built_skAddTag built _ _
      | error =>
          exact ((built_skAddTag built _ _).addAssoc (by decide)
            (plain_bool _)).within "lo" (plain_pushed (plain_skLog timestamp _))

theorem built_startSpan (psb : SpanBuilder) (pct : ChainInfo)
    (start : SpanStart) (anType : AnType) :
    Built (psb.startSpan pct start anType) := by
  rw [SpanBuilder.startSpan]
  cases psb.type with
  | zipkin =>
      cases anType <;>
        exact built_znAnnotated (built_znAnnotated
          (built_znStartSpan pct start) _ _ _) _ _ _
  | opentracing =>
      exact built_otAddTag (built_otStartSpan pct start) _
        (plain_some (plain_string _))
  | skywalking => exact built_skAddTag (built_skAddSpan pct start) _ _

theorem built_spanAddBa (psb : SpanBuilder) (built : Built span)
    (timestamp : Nat) (ba : Ba) : Built (psb.spanAddBa timestamp span ba) := by
  rw [SpanBuilder.spanAddBa]
  cases psb.type with
  | zipkin => exact built_znBannotated built ba
  | opentracing => exact built_otSpanAddBa built timestamp ba
  | skywalking => exact built_skSpanAddBa psb.residue built timestamp ba

end Built

end Molten.Span
