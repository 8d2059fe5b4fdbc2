import Molten.Intercept.Frame

namespace Molten.Intercept

open Molten.Php
open Molten.Span

/-! What is captured when a call is entered, and recorded when it is left. -/

inductive CapturedCall
  | guzzleRequest
  | esRequest
  | esNamespace
  deriving DecidableEq, Repr

inductive EsHost
  | url (host : Option String) (port : Int)
  | text (host : String)

structure CapturedWorld where
  statusCode : Zval → Option String
  /-- `none` when there is no transport, connection or host to read -/
  lastHost : Option EsHost
  exception : Option Thrown

/-! The capture functions. -/

def Interceptor.captureBas (pit : Interceptor) (frame : Frame)
    (bas : List Ba) : HashTable :=
  pit.psb.spanAddBas frame.entryTime [] bas

def defaultCapture (pit : Interceptor) (frame : Frame) : List Ba :=
  [spanAddBaEx pit.pct "db.statement" (some (pit.convertArgsToString frame))
    .normal]

def captureArg (pct : ChainInfo) (frame : Frame) (key : String)
    (index count : Nat) : List Ba :=
  match frame.args[index]? with
  | some (.string text) =>
      if frame.args.length ≥ count then
        [spanAddBaEx pct key (some text) .normal]
      else []
  | _ => []

/-- Both annotations read the second argument. -/
def guzzleRequestCapture (pit : Interceptor) (frame : Frame) : List Ba :=
  captureArg pit.pct frame "http.method" 1 1 ++
    captureArg pit.pct frame "http.uri" 1 2

/-! The record functions. -/

/-- `merge_span_extra` into a span that was just started, and what is added
afterwards. -/
def recordCaptured (pit : Interceptor) (frame : Frame) (spanExtra : HashTable)
    (bas : List Ba) : HashTable :=
  pit.annotate frame ((pit.buildComRecord frame).mergeRecursive spanExtra) bas

def componet (pct : ChainInfo) (name : String) : Ba :=
  spanAddBaEx pct "componet" (some name) .normal

def esDbType (pct : ChainInfo) : Ba :=
  spanAddBaEx pct "db.type" (some "elasticsearch") .normal

def setDefaultException (pct : ChainInfo) (exception : Option Thrown) :
    List Ba :=
  setSpanException pct "Exception" exception

def guzzleRequestBas (pct : ChainInfo) (world : CapturedWorld)
    (frame : Frame) : List Ba :=
  let status : List Ba :=
    match frame.oriRet with
    | some (.object response) =>
        match world.statusCode (.object response) with
        | some statusCode =>
            [spanAddBaEx pct "http.status" (some statusCode) .normal]
        | none => []
    | _ => []
  status ++ [componet pct "GuzzleHttp\\Client"] ++
    setDefaultException pct world.exception

def esRequestBas (pct : ChainInfo) (world : CapturedWorld) : List Ba :=
  let sa : List Ba :=
    match world.lastHost with
    | some (.url host port) => [⟨"sa", some "true", "es", host, port, .sa⟩]
    | some (.text host) =>
        [spanAddBaEx pct "php.db.data_source" (some host) .normal]
    | none => []
  sa ++ [esDbType pct, componet pct "Elasticsearch\\Client"] ++
    setDefaultException pct world.exception

def defaultEsBas (pct : ChainInfo) (world : CapturedWorld) : List Ba :=
  [componet pct "Elasticsearch\\Client", esDbType pct] ++
    setDefaultException pct world.exception

namespace CapturedCall

/-- What the capture function adds to `frame->span_extra`. -/
def captured (call : CapturedCall) (pit : Interceptor) (frame : Frame) :
    List Ba :=
  match call with
  | .guzzleRequest => guzzleRequestCapture pit frame
  | .esRequest => defaultCapture pit frame
  | .esNamespace => defaultCapture pit frame

def recorded (call : CapturedCall) (pct : ChainInfo) (world : CapturedWorld)
    (frame : Frame) : List Ba :=
  match call with
  | .guzzleRequest => guzzleRequestBas pct world frame
  | .esRequest => esRequestBas pct world
  | .esNamespace => defaultEsBas pct world

def span (call : CapturedCall) (pit : Interceptor) (world : CapturedWorld)
    (frame : Frame) : HashTable :=
  recordCaptured pit frame
    (pit.captureBas frame (call.captured pit frame))
    (call.recorded pit.pct world frame)

end CapturedCall

def CapturesSurvive (call : CapturedCall) (pit : Interceptor)
    (world : CapturedWorld) (frame : Frame) : Prop :=
  ∀ ba ∈ call.captured pit frame, ∀ value, ba.value = some value →
    Annotated pit.psb.type (call.span pit world frame) ba.key value

/-! Zipkin: the list that the capture made is merged into that of the span. -/

def OnlyBannotations (extra : HashTable) (values : List Zval) : Prop :=
  ∃ entries : HashTable,
    extra = [(.name "binaryAnnotations", .array entries)] ∧
      (∀ entry ∈ entries, ∃ number, entry.1 = .index number) ∧
        entries.values = values

theorem OnlyBannotations.add {extra : HashTable} {values : List Zval}
    (h : OnlyBannotations extra values) (ba : Ba) :
    OnlyBannotations ( znAddSpanBannotation extra ba)
      (values ++ znAdded ba) := by
  obtain ⟨entries, rfl, hkeys, rfl⟩ := h
  unfold znAddSpanBannotation znAdded
  cases ba.value with
  | none => exact ⟨entries, rfl, hkeys, (List.append_nil _).symm⟩
  | some value =>
      cases ba.ipv4 with
      | none => exact ⟨entries, rfl, hkeys, (List.append_nil _).symm⟩
      | some ipv4 =>
          refine ⟨entries.push (.array (znBannotationEntry ba.key value
            ba.serviceName ipv4 ba.port)), ?_, ?_, HashTable.values_push⟩
          · simp [HashTable.find, HashTable.within, HashTable.addAssoc,
              HashTable.update]
          · intro entry hmem
            rcases List.mem_append.mp hmem with hmem | hmem
            · exact hkeys entry hmem
            · rw [List.mem_singleton.mp hmem]
              exact ⟨_, rfl⟩

theorem OnlyBannotations.values_merge {extra span : HashTable}
    {values : List Zval} (h : OnlyBannotations extra values)
    (hspan : span.HasArray "binaryAnnotations") :
    (span.mergeRecursive extra).HasArray "binaryAnnotations" ∧
      ((span.mergeRecursive extra).inner "binaryAnnotations").values =
        (span.inner "binaryAnnotations").values ++ values := by
  obtain ⟨entries, rfl, hkeys, rfl⟩ := h
  obtain ⟨old, hold⟩ := hspan
  have hmerge : span.mergeRecursive
      [(.name "binaryAnnotations", .array entries)] =
        span.addAssoc "binaryAnnotations"
          (.array (HashTable.mergeRecursive old entries)) := by
    rw [HashTable.mergeRecursive, HashTable.mergeRecursive,
      HashTable.mergeEntry, hold]
    rfl
  rw [hmerge]
  refine ⟨⟨_, HashTable.find_addAssoc_self⟩, ?_⟩
  rw [HashTable.inner_addAssoc_self, HashTable.values_mergeRecursive hkeys,
    HashTable.inner, hold]

def Ba.IsNormal (ba : Ba) : Prop :=
  ba.type = .normal ∧ ba.value.isSome ∧ ba.ipv4.isSome

theorem onlyBannotations_first {ba : Ba} (h : Ba.IsNormal ba) :
    OnlyBannotations ( znAddSpanBannotation [] ba) (znAdded ba) := by
  obtain ⟨-, hvalue, hipv4⟩ := h
  obtain ⟨value, hvalue⟩ := Option.isSome_iff_exists.mp hvalue
  obtain ⟨ipv4, hipv4⟩ := Option.isSome_iff_exists.mp hipv4
  rw [ znAddSpanBannotation, znAdded, hvalue, hipv4]
  refine ⟨[(.index 0, .array (znBannotationEntry ba.key value ba.serviceName ipv4
    ba.port))], rfl, ?_, rfl⟩
  intro entry hmem
  rw [List.mem_singleton.mp hmem]
  exact ⟨0, rfl⟩

theorem onlyBannotations_spanAddBas (residue : String) (timestamp : Nat)
    {extra : HashTable} {values : List Zval}
    (h : OnlyBannotations extra values) (bas : List Ba) :
    OnlyBannotations
      ((⟨.zipkin, residue⟩ : SpanBuilder).spanAddBas timestamp extra bas)
      (values ++ bas.flatMap znAdded) := by
  induction bas generalizing extra values with
  | nil => simpa [SpanBuilder.spanAddBas] using h
  | cons ba bas ih =>
      rw [List.flatMap_cons, ← List.append_assoc]
      exact ih (h.add ba)

theorem values_recordCaptured (residue : String) (pit : Interceptor)
    (hpsb : pit.psb = ⟨.zipkin, residue⟩) (frame : Frame)
    {captured : List Ba} (h : ∀ ba ∈ captured, Ba.IsNormal ba)
    (bas : List Ba) :
    ((recordCaptured pit frame (pit.captureBas frame captured) bas).inner
      "binaryAnnotations").values =
        captured.flatMap znAdded ++ bas.flatMap znAdded := by
  obtain ⟨hstart, hempty⟩ := znStartSpanBuilder_view pit.pct
    ⟨frame.function, frame.spanId, frame.parentSpanId, frame.entryTime,
      frame.exitTime⟩ .client
  have hcom : pit.buildComRecord frame = znStartSpanBuilder pit.pct
      ⟨frame.function, frame.spanId, frame.parentSpanId, frame.entryTime,
        frame.exitTime⟩ .client := by
    rw [Interceptor.buildComRecord, Interceptor.startSpanEx, hpsb]
    rfl
  have hmerged : ∃ merged : HashTable, (pit.buildComRecord frame).mergeRecursive
        (pit.captureBas frame captured) = merged ∧
      merged.HasArray "binaryAnnotations" ∧
      (merged.inner "binaryAnnotations").values =
        captured.flatMap znAdded := by
    refine ⟨_, rfl, ?_⟩
    rw [hcom, Interceptor.captureBas, hpsb]
    cases captured with
    | nil => exact ⟨hstart, by rw [SpanBuilder.spanAddBas, List.foldl_nil,
        HashTable.mergeRecursive, hempty]; rfl⟩
    | cons ba captured =>
        have hextra := onlyBannotations_spanAddBas residue frame.entryTime
          (onlyBannotations_first (h ba List.mem_cons_self)) captured
        obtain ⟨harray, hvalues⟩ := hextra.values_merge hstart
        rw [hempty] at hvalues
        exact ⟨harray, hvalues⟩
  obtain ⟨merged, hmerge, harray, hvalues⟩ := hmerged
  rw [recordCaptured, hmerge, Interceptor.annotate, hpsb,
    znSpanAddBas_view residue frame.exitTime bas harray, hvalues]

/-! The keys of the two phases are apart. -/

def captureKeys : List String := ["db.statement", "http.method", "http.uri"]

theorem isNormal_captureArg {pct : ChainInfo} {frame : Frame} {key : String}
    {index count : Nat} {ba : Ba}
    (h : ba ∈ captureArg pct frame key index count) :
    Ba.IsNormal ba ∧ ba.key = key := by
  unfold captureArg at h
  split at h
  · split at h
    · rw [List.mem_singleton.mp h]
      exact ⟨⟨rfl, rfl, rfl⟩, rfl⟩
    · cases h
  · cases h

theorem isNormal_defaultCapture {pit : Interceptor} {frame : Frame} {ba : Ba}
    (h : ba ∈ defaultCapture pit frame) :
    Ba.IsNormal ba ∧ ba.key ∈ captureKeys := by
  rw [List.mem_singleton.mp h]
  exact ⟨⟨rfl, rfl, rfl⟩, List.mem_cons_self⟩

theorem CapturedCall.isNormal_captured {call : CapturedCall}
    {pit : Interceptor} {frame : Frame} {ba : Ba}
    (h : ba ∈ call.captured pit frame) :
    Ba.IsNormal ba ∧ ba.key ∈ captureKeys := by
  cases call with
  | guzzleRequest =>
      rcases List.mem_append.mp h with h | h
      · obtain ⟨hnormal, hkey⟩ := isNormal_captureArg h
        exact ⟨hnormal, by rw [hkey]; decide⟩
      · obtain ⟨hnormal, hkey⟩ := isNormal_captureArg h
        exact ⟨hnormal, by rw [hkey]; decide⟩
  | esRequest => exact isNormal_defaultCapture h
  | esNamespace => exact isNormal_defaultCapture h

theorem key_setDefaultException {pct : ChainInfo} {exception : Option Thrown}
    {ba : Ba} (h : ba ∈ setDefaultException pct exception) :
    ba.key = "error" := by
  unfold setDefaultException setSpanException at h
  split at h
  · split at h
    · rw [List.mem_singleton.mp h]
      rfl
    · cases h
  · cases h

theorem CapturedCall.key_recorded {call : CapturedCall} {pct : ChainInfo}
    {world : CapturedWorld} {frame : Frame} {ba : Ba}
    (h : ba ∈ call.recorded pct world frame) : ba.key ∉ captureKeys := by
  have hexception : ba ∈ setDefaultException pct world.exception →
      ba.key ∉ captureKeys := by
    intro hmem
    rw [key_setDefaultException hmem]
    decide
  cases call with
  | guzzleRequest =>
      simp only [recorded, guzzleRequestBas, List.mem_append] at h
      rcases h with (h | h) | h
      · split at h
        · split at h
          · rw [List.mem_singleton.mp h]
            simp [spanAddBaEx, captureKeys]
          · cases h
        · cases h
      · rw [List.mem_singleton.mp h]
        simp [componet, spanAddBaEx, captureKeys]
      · exact hexception h
  | esRequest =>
      simp only [recorded, esRequestBas, List.mem_append] at h
      rcases h with (h | h) | h
      · split at h
        · rw [List.mem_singleton.mp h]
          simp [captureKeys]
        · rw [List.mem_singleton.mp h]
          simp [spanAddBaEx, captureKeys]
        · cases h
      · rcases List.mem_pair.mp h with rfl | rfl
        · simp [esDbType, spanAddBaEx, captureKeys]
        · simp [componet, spanAddBaEx, captureKeys]
      · exact hexception h
  | esNamespace =>
      rcases List.mem_append.mp h with h | h
      · rcases List.mem_pair.mp h with rfl | rfl
        · simp [componet, spanAddBaEx, captureKeys]
        · simp [esDbType, spanAddBaEx, captureKeys]
      · exact hexception h

/-! OpenTracing and SkyWalking: there is no container to add a tag to. -/

theorem spanAddBas_captured {psb : SpanBuilder} (hpsb : psb.type ≠ .zipkin)
    (timestamp : Nat) {bas : List Ba} (h : ∀ ba ∈ bas, Ba.IsNormal ba) :
    psb.spanAddBas timestamp [] bas = [] := by
  induction bas with
  | nil => rfl
  | cons ba bas ih =>
      obtain ⟨⟨htype, hvalue, -⟩, hbas⟩ := List.forall_mem_cons.mp h
      obtain ⟨value, hvalue⟩ := Option.isSome_iff_exists.mp hvalue
      have hstep : psb.spanAddBa timestamp [] ba = [] := by
        obtain ⟨type, residue⟩ := psb
        cases type with
        | zipkin => exact absurd rfl hpsb
        | opentracing =>
            simp only [SpanBuilder.spanAddBa, otSpanAddBa, htype, hvalue,
              Option.map_some, otAddTag]
            rfl
        | skywalking =>
            simp only [SpanBuilder.spanAddBa, skSpanAddBa, htype, hvalue,
              skAddTag]
            rfl
      rw [SpanBuilder.spanAddBas, List.foldl_cons, hstep]
      exact ih hbas

theorem recordCaptured_eq_annotate {pit : Interceptor}
    (hpsb : pit.psb.type ≠ .zipkin) (frame : Frame) {captured : List Ba}
    (h : ∀ ba ∈ captured, Ba.IsNormal ba) (bas : List Ba) :
    recordCaptured pit frame (pit.captureBas frame captured) bas =
      pit.annotate frame (pit.buildComRecord frame) bas := by
  rw [recordCaptured, Interceptor.captureBas,
    spanAddBas_captured hpsb frame.entryTime h, HashTable.mergeRecursive]

theorem otTagged_captureKeys {key : String} (hkey : key ∈ captureKeys)
    {ba : Ba} (h : ba.key ∉ captureKeys) : otTagged key ba = none := by
  have hne : key ≠ ba.key := by
    rintro rfl
    exact h hkey
  have hothers : key ≠ "peer.service" ∧ key ≠ "peer.port" ∧
      key ≠ "peer.ipv4" ∧ key ≠ "peer.hostname" ∧ key ≠ "peer.address" ∧
        key ≠ "error" := by
    refine ⟨?_, ?_, ?_, ?_, ?_, ?_⟩ <;> rintro rfl <;>
      exact absurd hkey (by decide)
  unfold otTagged
  cases ba.type <;> simp [hne, hothers]

theorem skTagged_captureKeys (residue : String) {ba : Ba}
    (h : ba.key ∉ captureKeys) {pair : String × String}
    (hpair : pair ∈ skTagged residue ba) : pair.1 ∉ captureKeys := by
  have hpeer : ∀ addressKey, addressKey ∉ captureKeys →
      pair ∈ (ba.ipv4.map fun ipv4 => (addressKey, ipv4)).toList ++
        [("peer.port", Text.printLong ba.port),
          ("peer.service", ba.serviceName)] →
      pair.1 ∉ captureKeys := by
    intro addressKey haddress hmem
    rcases List.mem_append.mp hmem with hmem | hmem
    · obtain ⟨ipv4, -, rfl⟩ := Option.map_eq_some_iff.mp
        (Option.mem_toList.mp hmem)
      exact haddress
    · rcases List.mem_pair.mp hmem with rfl | rfl <;> simp [captureKeys]
  unfold skTagged at hpair
  cases hvalue : ba.value with
  | none =>
      rw [hvalue] at hpair
      cases hpair
  | some value =>
      rw [hvalue] at hpair
      cases htype : ba.type <;> simp only [htype] at hpair
      case normal => rwa [List.mem_singleton.mp hpair]
      case sa => exact hpeer _ (by decide) hpair
      case saHost => exact hpeer _ (by decide) hpair
      case saIp => exact hpeer _ (by decide) hpair
      case saDsn =>
        rw [List.mem_singleton.mp hpair]
        simp [captureKeys]
      case path => rwa [List.mem_singleton.mp hpair]
      case error =>
        rw [List.mem_singleton.mp hpair]
        simp [captureKeys]

theorem foldl_otTagged_captureKeys {key : String}
    (hkey : key ∈ captureKeys) {bas : List Ba}
    (h : ∀ ba ∈ bas, ba.key ∉ captureKeys) :
    bas.foldl (fun found ba => (otTagged key ba).or found) none = none := by
  induction bas with
  | nil => rfl
  | cons ba bas ih =>
      rw [List.forall_mem_cons] at h
      rw [List.foldl_cons, otTagged_captureKeys hkey h.1]
      exact ih h.2

theorem not_annotated_opentracing (pct : ChainInfo) (residue : String)
    (start : SpanStart) (timestamp : Nat) {bas : List Ba}
    (h : ∀ ba ∈ bas, ba.key ∉ captureKeys) {key : String}
    (hkey : key ∈ captureKeys) (value : String) :
    ¬ Annotated .opentracing
      ((⟨.opentracing, residue⟩ : SpanBuilder).spanAddBas timestamp
        (otStartSpanBuilder pct start .client) bas) key value := by
  have hkind : key ≠ "span.kind" := by
    rintro rfl
    exact absurd hkey (by decide)
  obtain ⟨hready, htags, -⟩ := otStartSpanBuilder_view pct start .client
  intro hannotated
  have hfind := (find_otSpanAddBas residue timestamp bas hready
    key).symm.trans hannotated
  rw [htags key hkind, foldl_otTagged_captureKeys hkey h] at hfind
  cases hfind

theorem not_annotated_skywalking (pct : ChainInfo) (residue : String)
    (start : SpanStart) (timestamp : Nat) {bas : List Ba}
    (h : ∀ ba ∈ bas, ba.key ∉ captureKeys) {key : String}
    (hkey : key ∈ captureKeys) (value : String) :
    ¬ Annotated .skywalking
      ((⟨.skywalking, residue⟩ : SpanBuilder).spanAddBas timestamp
        (skStartSpanBuilder pct start .client) bas) key value := by
  obtain ⟨hready, hto, -⟩ := skStartSpanBuilder_view pct start .client
  rintro ⟨pair, hmem, hk, -⟩
  have hvalues := (skSpanAddBas_view residue timestamp bas hready).1
  rw [hto] at hvalues
  have htagged : ∃ tag : String × String, .array pair = skTag tag ∧
      tag.1 ∉ captureKeys := by
    rcases List.mem_append.mp (hvalues ▸ hmem) with hmem | hmem
    · exact ⟨_, List.mem_singleton.mp hmem, by decide⟩
    · obtain ⟨ba, hba, hmem⟩ := List.mem_flatMap.mp hmem
      obtain ⟨tag, htag, heq⟩ := List.mem_map.mp hmem
      exact ⟨tag, heq.symm, skTagged_captureKeys residue (h ba hba) htag⟩
  obtain ⟨tag, htag, hnot⟩ := htagged
  obtain rfl : pair = skPair tag.1 tag.2 := Zval.array.inj htag
  rw [(find_skPair tag.1 tag.2).1] at hk
  obtain rfl : tag.1 = key := by simpa using hk
  exact hnot hkey

theorem not_annotated_of_ne {pit : Interceptor}
    (hpsb : pit.psb.type ≠ .zipkin) (frame : Frame) {bas : List Ba}
    (h : ∀ ba ∈ bas, ba.key ∉ captureKeys) {key : String}
    (hkey : key ∈ captureKeys) (value : String) :
    ¬ Annotated pit.psb.type
      (pit.annotate frame (pit.buildComRecord frame) bas) key value := by
  obtain ⟨pct, ⟨type, residue⟩, reprZval⟩ := pit
  cases type with
  | zipkin => exact absurd rfl hpsb
  | opentracing =>
      exact not_annotated_opentracing pct residue _ _ h hkey value
  | skywalking =>
      rw [Interceptor.annotate, Interceptor.buildComRecord,
        Interceptor.startSpanEx, SpanBuilder.startSpan]
      exact not_annotated_skywalking pct residue _ _ h hkey value

namespace CapturedCall

variable {call : CapturedCall} {pit : Interceptor} {world : CapturedWorld}
variable {frame : Frame}

theorem capturesSurvive_zipkin (hpsb : pit.psb.type = .zipkin) :
    CapturesSurvive call pit world frame := by
  intro ba hba value hvalue
  obtain ⟨⟨-, -, hipv4⟩, -⟩ := isNormal_captured hba
  obtain ⟨ipv4, hipv4⟩ := Option.isSome_iff_exists.mp hipv4
  have hbuilder : pit.psb = ⟨.zipkin, pit.psb.residue⟩ := by rw [← hpsb]
  rw [hpsb]
  refine ⟨znBannotationEntry ba.key value ba.serviceName ipv4 ba.port, ?_,
    find_znBannotationEntry _ _ _ _ _⟩
  rw [span, values_recordCaptured pit.psb.residue pit hbuilder frame
    (fun ba hba => (isNormal_captured hba).1)]
  apply List.mem_append_left
  refine List.mem_flatMap.mpr ⟨ba, hba, ?_⟩
  rw [znAdded, hvalue, hipv4]
  exact List.mem_singleton.mpr rfl

theorem captured_eq_nil (hpsb : pit.psb.type ≠ .zipkin)
    (h : CapturesSurvive call pit world frame) :
    call.captured pit frame = [] := by
  apply List.eq_nil_iff_forall_not_mem.mpr
  intro ba hba
  obtain ⟨⟨-, hvalue, -⟩, hkey⟩ := isNormal_captured hba
  obtain ⟨value, hvalue⟩ := Option.isSome_iff_exists.mp hvalue
  have hannotated := h ba hba value hvalue
  rw [span, recordCaptured_eq_annotate hpsb frame
    (fun ba hba => (isNormal_captured hba).1)] at hannotated
  exact not_annotated_of_ne hpsb frame (fun ba hba => key_recorded hba) hkey
    value hannotated

theorem captured_eq_nil_iff (call : CapturedCall) (pit : Interceptor)
    (frame : Frame) :
    call.captured pit frame = [] ↔ call = .guzzleRequest ∧
      ∀ text, frame.args[1]? ≠ some (.string text) := by
  cases call with
  | guzzleRequest =>
      rw [captured, guzzleRequestCapture, captureArg, captureArg]
      cases harg : frame.args[1]? with
      | none => simp
      | some arg =>
          have hlength : 1 ≤ frame.args.length :=
            Nat.le_of_lt (List.getElem?_eq_some_iff.mp harg).1
          cases arg <;> simp [hlength]
  | esRequest => simp [captured, defaultCapture]
  | esNamespace => simp [captured, defaultCapture]

end CapturedCall

def tracingInterceptor : Interceptor where
  pct := ⟨"test", "00000000000000a1", "127.0.0.1", 0, 1, 0, 0, true⟩
  psb := ⟨.opentracing, ""⟩
  reprZval := fun _ => ""

/-- `$client->request("GET", "http://127.0.0.1:8000/")`, as it answers 200. -/
def guzzleFrame : Frame :=
  ⟨"request", .object 1, [.string "GET", .string "http://127.0.0.1:8000/"],
    some (.object 2), 1, 2, "1.1", some "1"⟩

def answeredWorld : CapturedWorld where
  statusCode := fun _ => some "200"
  lastHost := none
  exception := none

end Molten.Intercept
