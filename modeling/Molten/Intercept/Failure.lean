import Molten.Intercept.Services

namespace Molten.Intercept

open Molten.Php
open Molten.Span
open Molten.Text

/-! Failed calls in the three formats. -/

def OtFailed (span : HashTable) (message : String) : Prop :=
  (span.inner "tags").find (.name "error") = some (.bool true) ∧
    ∃ log : HashTable, .array log ∈ (span.inner "logs").values ∧
      (log.inner "fields").find (.name "event") = some (.string "error") ∧
      (log.inner "fields").find (.name "message") = some (.string message)

/-- The mark and a log of an error, whose message is cut to 128 bytes. -/
def SkFailed (span : HashTable) (message : String) : Prop :=
  span.find (.name "ie") = some (.bool true) ∧
    ∃ log : HashTable, .array log ∈ (span.inner "lo").values ∧
      skTag ("event", "error") ∈ (log.inner "ld").values ∧
      skTag ("message", copyToField 128 message) ∈ (log.inner "ld").values

def Interceptor.withFormat (pit : Interceptor) (type : SpanFormat) :
    Interceptor :=
  { pit with psb := { pit.psb with type := type } }

/-- Zipkin gets a span, and the other formats get one that marks the failure
which it shows, if it shows one. -/
def FailureMarked (record : Interceptor → Option HashTable)
    (pit : Interceptor) : Prop :=
  ∃ zn, record (pit.withFormat .zipkin) = some zn ∧
    ∀ message, Annotated .zipkin zn "error" message →
      (∃ ot, record (pit.withFormat .opentracing) = some ot ∧
          OtFailed ot message) ∧
        ∃ sk, record (pit.withFormat .skywalking) = some sk ∧
          SkFailed sk message

/-- The same of spans that are always built. -/
def TableMarked (record : Interceptor → HashTable) (pit : Interceptor) :
    Prop :=
  ∀ message,
    Annotated .zipkin (record (pit.withFormat .zipkin)) "error" message →
      OtFailed (record (pit.withFormat .opentracing)) message ∧
        SkFailed (record (pit.withFormat .skywalking)) message

/-! Cut messages. -/

theorem skCut_eq_copyToField_iff (residue message : String) :
    skCut residue message = copyToField 128 message ↔
      message.length ≤ 128 ∨ residue = "" := by
  unfold skCut
  by_cases hlong : message.length > 128
  · rw [if_pos hlong, ← String.toList_inj, String.toList_append,
      List.append_right_eq_self, String.toList_eq_nil_iff]
    simp [Nat.not_le.mpr hlong]
  · have hshort : message.length ≤ 128 := Nat.not_lt.mp hlong
    rw [if_neg hlong, copyToField, List.take_of_length_le
      (by rwa [String.length_toList]), String.ofList_toList]
    simp [hshort]

/-! The logs of an error. -/

theorem otLog_errorFields (timestamp : Nat) (message : String) :
    ((otLog timestamp (errorFields message)).inner "fields").find
        (.name "event") = some (.string "error") ∧
      ((otLog timestamp (errorFields message)).inner "fields").find
        (.name "message") = some (.string message) := by
  rw [otLog, HashTable.inner_addAssoc_self]
  simp only [errorFields, List.foldl_cons, List.foldl_nil]
  constructor
  · rw [HashTable.find_addAssoc_of_ne (by decide),
      HashTable.find_addAssoc_of_ne (by decide), HashTable.find_addAssoc_self]
  · exact HashTable.find_addAssoc_self

theorem skTag_mem_errorFields {message other : String} :
    skTag ("message", other) ∈ (errorFields message).map skTag ↔
      other = message := by
  constructor
  · intro hmem
    obtain ⟨pair, hpair, heq⟩ := List.mem_map.mp hmem
    obtain rfl := skTag_injective heq
    simpa [errorFields] using hpair
  · rintro rfl
    exact List.mem_map_of_mem (by simp [errorFields])

/-! What a record callback emits. -/

def recordBas (frame : Frame) (name : String) (bas : List Ba)
    (pit : Interceptor) : HashTable :=
  pit.annotate frame (pit.startSpanEx frame name) bas

section

variable (frame : Frame) (name : String) (bas : List Ba) (pit : Interceptor)

theorem values_recordBas :
    ((recordBas frame name bas (pit.withFormat .zipkin)).inner
      "binaryAnnotations").values = bas.flatMap znAdded := by
  obtain ⟨hstart, hempty⟩ := znStartSpanBuilder_view pit.pct
    ⟨name, frame.spanId, frame.parentSpanId, frame.entryTime,
      frame.exitTime⟩ .client
  have hview := znSpanAddBas_view pit.psb.residue frame.exitTime bas hstart
  rw [hempty] at hview
  exact hview

theorem logs_recordBas :
    ((recordBas frame name bas (pit.withFormat .opentracing)).inner
      "logs").values = bas.flatMap (otLogged frame.exitTime) := by
  obtain ⟨hstart, -, hempty⟩ := otStartSpanBuilder_view pit.pct
    ⟨name, frame.spanId, frame.parentSpanId, frame.entryTime,
      frame.exitTime⟩ .client
  have hview := otSpanAddBas_view pit.psb.residue frame.exitTime bas hstart
  rw [hempty] at hview
  exact hview

theorem lo_recordBas :
    ((recordBas frame name bas (pit.withFormat .skywalking)).inner
      "lo").values =
        bas.flatMap (skLogged pit.psb.residue frame.exitTime) := by
  obtain ⟨hstart, -, hempty⟩ := skStartSpanBuilder_view pit.pct
    ⟨name, frame.spanId, frame.parentSpanId, frame.entryTime,
      frame.exitTime⟩ .client
  have hview := (skSpanAddBas_view pit.psb.residue frame.exitTime bas
    hstart).2
  rw [hempty] at hview
  exact hview

end

section

variable {frame : Frame} {name message : String} {bas : List Ba}
variable {pit : Interceptor}

theorem annotated_recordBas_iff :
    Annotated .zipkin (recordBas frame name bas (pit.withFormat .zipkin))
        "error" message ↔
      ∃ ba ∈ bas, ba.key = "error" ∧ ba.value = some message ∧
        ba.ipv4.isSome := by
  simp only [Annotated, values_recordBas]
  constructor
  · rintro ⟨entry, hmem, hkey, hvalue⟩
    obtain ⟨ba, hba, hmem⟩ := List.mem_flatMap.mp hmem
    refine ⟨ba, hba, ?_⟩
    unfold znAdded at hmem
    split at hmem
    · rename_i value ipv4 hbaValue hipv4
      obtain rfl := Zval.array.inj (List.mem_singleton.mp hmem)
      obtain ⟨hfindKey, hfindValue⟩ := find_znBannotationEntry ba.key value
        ba.serviceName ipv4 ba.port
      rw [hfindKey] at hkey
      rw [hfindValue] at hvalue
      simp only [Option.some.injEq, Zval.string.injEq] at hkey hvalue
      exact ⟨hkey, by rw [hbaValue, hvalue], by rw [hipv4]; rfl⟩
    · cases hmem
  · rintro ⟨ba, hba, hkey, hvalue, hipv4⟩
    obtain ⟨ipv4, hipv4⟩ := Option.isSome_iff_exists.mp hipv4
    refine ⟨znBannotationEntry "error" message ba.serviceName ipv4 ba.port, ?_,
      find_znBannotationEntry _ _ _ _ _⟩
    refine List.mem_flatMap.mpr ⟨ba, hba, ?_⟩
    rw [znAdded, hvalue, hipv4, hkey]
    exact List.mem_singleton.mpr rfl

theorem mem_of_otFailed
    (h : OtFailed (recordBas frame name bas (pit.withFormat .opentracing))
      message) :
    ∃ ba ∈ bas, ba.type = .error ∧ ba.value.getD "" = message := by
  obtain ⟨-, log, hmem, -, hmessage⟩ := h
  rw [logs_recordBas] at hmem
  obtain ⟨ba, hba, hmem⟩ := List.mem_flatMap.mp hmem
  refine ⟨ba, hba, ?_⟩
  unfold otLogged at hmem
  split at hmem
  · rename_i htype
    obtain rfl := Zval.array.inj (List.mem_singleton.mp hmem)
    rw [(otLog_errorFields _ _).2] at hmessage
    exact ⟨htype, by simpa using hmessage⟩
  · cases hmem

theorem mem_of_skFailed
    (h : SkFailed (recordBas frame name bas (pit.withFormat .skywalking))
      message) :
    ∃ ba ∈ bas, ba.type = .error ∧ ∃ value, ba.value = some value ∧
      skCut pit.psb.residue value = copyToField 128 message := by
  obtain ⟨-, log, hmem, -, hmessage⟩ := h
  rw [lo_recordBas] at hmem
  obtain ⟨ba, hba, hmem⟩ := List.mem_flatMap.mp hmem
  refine ⟨ba, hba, ?_⟩
  unfold skLogged at hmem
  split at hmem
  · rename_i value hvalue htype
    obtain rfl := Zval.array.inj (List.mem_singleton.mp hmem)
    rw [skLog_errorFields, skTag_mem_errorFields] at hmessage
    exact ⟨htype, value, hvalue, hmessage.symm⟩
  · cases hmem

theorem otFailed_of_last {last : Ba} (htype : last.type = .error)
    (hvalue : last.value = some message) :
    OtFailed (recordBas frame name (bas ++ [last])
      (pit.withFormat .opentracing)) message := by
  constructor
  · have hstart := (otStartSpanBuilder_view pit.pct
      ⟨name, frame.spanId, frame.parentSpanId, frame.entryTime,
        frame.exitTime⟩ .client).1
    have hfind := find_otSpanAddBas pit.psb.residue frame.exitTime
      (bas ++ [last]) hstart "error"
    rw [List.foldl_append, List.foldl_cons, List.foldl_nil] at hfind
    rw [recordBas, Interceptor.annotate]
    refine hfind.trans ?_
    simp [otTagged, htype]
  · refine ⟨otLog frame.exitTime (errorFields message), ?_,
      otLog_errorFields _ _⟩
    rw [logs_recordBas]
    refine List.mem_flatMap.mpr ⟨last, List.mem_append_right _
      List.mem_cons_self, ?_⟩
    rw [otLogged, htype, hvalue]
    exact List.mem_singleton.mpr rfl

theorem skFailed_of_last {last : Ba} (htype : last.type = .error)
    (hvalue : last.value = some message)
    (hcut : skCut pit.psb.residue message = copyToField 128 message) :
    SkFailed (recordBas frame name (bas ++ [last])
      (pit.withFormat .skywalking)) message := by
  constructor
  · rw [recordBas, Interceptor.annotate, SpanBuilder.spanAddBas,
      List.foldl_append, List.foldl_cons, List.foldl_nil]
    simp only [SpanBuilder.spanAddBa, Interceptor.withFormat, skSpanAddBa,
      hvalue, htype]
    rw [skAddLog, HashTable.find_within_of_ne (by decide),
      HashTable.find_addAssoc_self]
  · refine ⟨skLog frame.exitTime
      (errorFields (skCut pit.psb.residue message)), ?_, ?_, ?_⟩
    · rw [lo_recordBas]
      refine List.mem_flatMap.mpr ⟨last, List.mem_append_right _
        List.mem_cons_self, ?_⟩
      rw [skLogged.eq_def, htype, hvalue]
      exact List.mem_singleton.mpr rfl
    · rw [skLog_errorFields]
      exact List.mem_map_of_mem List.mem_cons_self
    · rw [skLog_errorFields, skTag_mem_errorFields, hcut]

theorem eq_last_of_error {plain init : List Ba} {last ba : Ba}
    (hplain : ∀ ba ∈ plain, ba.type ≠ .error)
    (hinit : ∀ ba ∈ init, ba.type ≠ .error)
    (hba : ba ∈ plain ++ (init ++ [last])) (htype : ba.type = .error) :
    ba = last := by
  rcases List.mem_append.mp hba with hba | hba
  · exact absurd htype (hplain ba hba)
  · rcases List.mem_append.mp hba with hba | hba
    · exact absurd htype (hinit ba hba)
    · exact List.mem_singleton.mp hba

theorem last_of_tableMarked {plain init : List Ba} {last : Ba}
    (hplain : ∀ ba ∈ plain, ba.type ≠ .error)
    (hinit : ∀ ba ∈ init, ba.type ≠ .error) (hlast : last.value.isSome)
    (hmarked : TableMarked
      (recordBas frame name (plain ++ (init ++ [last]))) pit)
    {message : String}
    (hannotated : Annotated .zipkin (recordBas frame name
      (plain ++ (init ++ [last])) (pit.withFormat .zipkin)) "error" message) :
    (last.type = .error ∧ last.value = some message) ∧
      (message.length ≤ 128 ∨ pit.psb.residue = "") := by
  obtain ⟨hot, hsk⟩ := hmarked message hannotated
  obtain ⟨ba, hba, htype, hmessage⟩ := mem_of_otFailed hot
  obtain rfl := eq_last_of_error hplain hinit hba htype
  obtain ⟨value, hvalue⟩ := Option.isSome_iff_exists.mp hlast
  obtain rfl : value = message := by simpa [hvalue] using hmessage
  obtain ⟨other, hother, htype', cut, hcutValue, hcut⟩ := mem_of_skFailed hsk
  obtain rfl := eq_last_of_error hplain hinit hother htype'
  obtain rfl : cut = value := Option.some.inj (hcutValue.symm.trans hvalue)
  exact ⟨⟨htype, hvalue⟩, (skCut_eq_copyToField_iff _ _).mp hcut⟩

/-- When the errors come last, and only the last of them as one, a failure is
marked if it is the last and its message fits. -/
theorem tableMarked_recordBas_iff {plain errors : List Ba}
    (hplain : ∀ ba ∈ plain, ba.key ≠ "error" ∧ ba.type ≠ .error)
    (herrors : ∀ ba ∈ errors, ba.key = "error" ∧ ba.ipv4.isSome ∧
      ba.value.isSome)
    (hinit : ∀ ba ∈ errors.dropLast, ba.type ≠ .error) :
    TableMarked (recordBas frame name (plain ++ errors)) pit ↔
      ∀ ba ∈ errors, ∀ message, ba.value = some message →
        (∃ last ∈ errors.getLast?, last.type = .error ∧
          last.value = some message) ∧
        (message.length ≤ 128 ∨ pit.psb.residue = "") := by
  rcases List.eq_nil_or_concat' errors with rfl | ⟨init, last, rfl⟩
  · refine iff_of_true ?_ (by simp)
    intro message hannotated
    obtain ⟨ba, hba, hkey, -⟩ := annotated_recordBas_iff.mp hannotated
    rw [List.append_nil] at hba
    exact absurd hkey (hplain ba hba).1
  · rw [List.dropLast_concat] at hinit
    have hsome := (herrors last (by simp)).2.2
    constructor
    · intro hmarked ba hba message hvalue
      obtain ⟨hkey, hipv4, -⟩ := herrors ba hba
      obtain ⟨hlast, hfits⟩ := last_of_tableMarked
        (fun ba hba => (hplain ba hba).2) hinit hsome hmarked
        (annotated_recordBas_iff.mpr
          ⟨ba, List.mem_append_right _ hba, hkey, hvalue, hipv4⟩)
      exact ⟨⟨last, by simp, hlast⟩, hfits⟩
    · intro h message hannotated
      obtain ⟨ba, hba, hkey, hvalue, -⟩ :=
        annotated_recordBas_iff.mp hannotated
      rcases List.mem_append.mp hba with hba | hba
      · exact absurd hkey (hplain ba hba).1
      · obtain ⟨⟨other, hother, htype, hmessage⟩, hfits⟩ :=
          h ba hba message hvalue
        obtain rfl : last = other := by simpa using hother
        rw [← List.append_assoc]
        exact ⟨otFailed_of_last htype hmessage, skFailed_of_last htype
          hmessage ((skCut_eq_copyToField_iff _ _).mpr hfits)⟩

end

def errorBa (serviceName ipv4 : String) (port : Int) (type : BaType)
    (message : String) : Ba :=
  ⟨"error", some message, serviceName, some ipv4, port, type⟩

/-- A reported error is given as one or is thrown as well, and no message is
longer than the buffer, or what stands behind it is empty. -/
def MarksErrors (type : BaType) (reported thrown : Option String)
    (residue : String) : Prop :=
  (type ≠ .error → ∀ message, reported = some message →
      thrown = some message) ∧
    ∀ message, reported = some message ∨ thrown = some message →
      message.length ≤ 128 ∨ residue = ""

theorem tableMarked_reported_iff {frame : Frame} {name : String}
    {pit : Interceptor} {plain : List Ba} {type : BaType}
    (hplain : ∀ ba ∈ plain, ba.key ≠ "error" ∧ ba.type ≠ .error)
    (serviceName ipv4 : String) (port : Int) (pct : ChainInfo)
    (reported thrown : Option String) (hone : type = .error → thrown = none) :
    TableMarked (recordBas frame name (plain ++
        ((reported.map (errorBa serviceName ipv4 port type)).toList ++
          (thrown.map
            (errorBa pct.serviceName pct.ip pct.port .error)).toList))) pit ↔
      MarksErrors type reported thrown pit.psb.residue := by
  rw [tableMarked_recordBas_iff hplain, MarksErrors]
  · cases reported with
    | none => cases thrown <;> simp [errorBa]
    | some reported =>
        by_cases htype : type = .error
        · simp [hone htype, htype, errorBa]
        · cases thrown with
          | none => simp [htype, errorBa]
          | some thrown =>
              simp only [errorBa, Option.map_some, Option.toList_some,
                List.cons_append, List.nil_append, List.forall_mem_cons]
              simp [htype]
              grind
  · cases reported <;> cases thrown <;> simp [errorBa]
  · cases reported with
    | none => cases thrown <;> simp
    | some reported =>
        cases thrown with
        | none => simp
        | some thrown =>
            have htype : type ≠ .error := fun htype =>
              Option.some_ne_none _ (hone htype)
            simp [errorBa, htype]

/-! The buffers. -/

def Interceptor.FitsSky (pit : Interceptor) (frame : Frame) (name : String)
    (bas : List Ba) : Prop :=
  (pit.withFormat .skywalking).Fits frame name bas

theorem Interceptor.record_withFormat {type : SpanFormat}
    (htype : type ≠ .skywalking) (pit : Interceptor) (frame : Frame)
    (name : String) (bas : List Ba) :
    (pit.withFormat type).record frame name bas =
      some (recordBas frame name bas (pit.withFormat type)) :=
  if_pos ⟨fun h => absurd h htype, fun h => absurd h htype⟩

/-- Only a failure needs the buffers of the third format. -/
theorem failureMarked_iff_tableMarked
    {record : Interceptor → Option HashTable} {pit pit' : Interceptor}
    {frame : Frame} {name : String} {bas : List Ba}
    (hrecord : ∀ type, record (pit.withFormat type) =
      (pit'.withFormat type).record frame name bas) :
    FailureMarked record pit ↔
      TableMarked (recordBas frame name bas) pit' ∧
        ∀ message, Annotated .zipkin
            (recordBas frame name bas (pit'.withFormat .zipkin)) "error"
              message →
          pit'.FitsSky frame name bas := by
  have hzn := (hrecord .zipkin).trans
    (Interceptor.record_withFormat (by decide) pit' frame name bas)
  have hot := (hrecord .opentracing).trans
    (Interceptor.record_withFormat (by decide) pit' frame name bas)
  rw [FailureMarked, hzn, hot, hrecord .skywalking]
  constructor
  · rintro ⟨zn, heq, hmarked⟩
    obtain rfl := Option.some.inj heq
    constructor
    · intro message hannotated
      obtain ⟨⟨ot, hsome, hfailed⟩, sk, hsome', hfailed'⟩ :=
        hmarked message hannotated
      obtain rfl := Option.some.inj hsome
      obtain ⟨-, hsk⟩ := Option.ite_none_right_eq_some.mp hsome'
      obtain rfl := Option.some.inj hsk
      exact ⟨hfailed, hfailed'⟩
    · intro message hannotated
      obtain ⟨-, sk, hsome, -⟩ := hmarked message hannotated
      exact (Option.ite_none_right_eq_some.mp hsome).1
  · rintro ⟨hmarked, hfits⟩
    refine ⟨_, rfl, fun message hannotated => ?_⟩
    obtain ⟨hot', hsk'⟩ := hmarked message hannotated
    exact ⟨⟨_, rfl, hot'⟩, _, if_pos (hfits message hannotated), hsk'⟩

/-! What the callbacks add before the errors. -/

theorem plain_analyzeDataSource {pct : ChainInfo} {dbType dataSource : String}
    {ba : Ba} (h : ba ∈ analyzeDataSource pct dbType dataSource) :
    ba.key ≠ "error" ∧ ba.type ≠ .error := by
  simp only [analyzeDataSource, List.mem_append] at h
  rcases h with (h | h) | h
  · obtain ⟨dbname, -, rfl⟩ := Option.map_eq_some_iff.mp
      (Option.mem_toList.mp h)
    simp [spanAddBaEx]
  · split at h
    · rw [List.mem_singleton.mp h]
      simp
    · cases h
  · split at h
    · rw [List.mem_singleton.mp h]
      simp [spanAddBaEx]
    · cases h

theorem plain_pdoStatementBas {pct : ChainInfo} {frame : Frame} {ba : Ba}
    (h : ba ∈ pdoStatementBas pct frame) :
    ba.key ≠ "error" ∧ ba.type ≠ .error := by
  unfold pdoStatementBas at h
  split at h
  · split at h
    · cases h
    · rw [List.mem_singleton.mp h]
      simp [spanAddBaEx]
  · cases h

theorem plain_pdoDbhBas {pct : ChainInfo} {pdo : Pdo} {ba : Ba}
    (h : ba ∈ pdoDbhBas pct pdo) : ba.key ≠ "error" ∧ ba.type ≠ .error := by
  unfold pdoDbhBas at h
  split at h
  · rcases List.mem_append.mp h with h | h
    · split at h
      · rw [List.mem_singleton.mp h]
        simp [spanAddBaEx]
      · cases h
    · split at h
      · split at h
        · cases h
        · exact plain_analyzeDataSource h
      · cases h
  · cases h

theorem plain_pdoStmtBas {pct : ChainInfo} {pdo : Pdo} {ba : Ba}
    (h : ba ∈ pdoStmtBas pct pdo) : ba.key ≠ "error" ∧ ba.type ≠ .error := by
  unfold pdoStmtBas at h
  split at h
  · rcases List.mem_cons.mp h with rfl | h
    · simp [spanAddBaEx]
    · split at h
      · rcases List.mem_cons.mp h with rfl | h
        · simp [spanAddBaEx]
        · exact plain_analyzeDataSource h
      · cases h
  · cases h

theorem plain_memcachedAddServer {frame : Frame} {ba : Ba}
    (h : ba ∈ memcachedAddServer frame) :
    ba.key ≠ "error" ∧ ba.type ≠ .error := by
  unfold memcachedAddServer at h
  split at h
  · split at h <;> rw [List.mem_singleton.mp h] <;> simp [memcachedSa]
  · cases h

theorem plain_memcachedAddServers {memcached : Memcached} {frame : Frame}
    {ba : Ba} (h : ba ∈ memcachedAddServers memcached frame) :
    ba.key ≠ "error" ∧ ba.type ≠ .error := by
  unfold memcachedAddServers at h
  split at h
  · obtain ⟨entry, -, h⟩ := List.mem_flatMap.mp h
    unfold Memcached.serverSa at h
    split at h
    · rw [List.mem_singleton.mp h]
      simp [memcachedSa]
    · cases h
  · cases h

/-! The calls. -/

structure ServiceWorld where
  pdo : Pdo
  redis : Redis
  memcached : Memcached
  exception : Option Thrown

inductive ServiceCall
  | pdo
  | pdoStatement
  | redis
  | memcachedCommon
  | memcachedAddServer
  | memcachedAddServers
  deriving DecidableEq, Repr

def ErrorInfo.text (unknown : String) : ErrorInfo → Option String
  | .failed => none
  | .withoutMessage => some unknown
  | .null => none
  | .message text => some text

def Redis.lastError (redis : Redis) : Option String :=
  match redis.getLastError with
  | some (.string error) => some error
  | _ => none

def Memcached.result (memcached : Memcached) : Option String :=
  match memcached.getResultMessage with
  | some (.string message) => some message
  | some _ => some "unknown"
  | none => none

namespace ServiceCall

def record (call : ServiceCall) (world : ServiceWorld) (frame : Frame)
    (pit : Interceptor) : Option HashTable :=
  match call with
  | .pdo => pdoRecord pit world.pdo world.exception frame
  | .pdoStatement => pdoStatementRecord pit world.pdo frame
  | .redis => redisRecord pit world.redis world.exception frame
  | .memcachedCommon => memcachedCommonRecord pit world.memcached frame
  | .memcachedAddServer => memcachedAddServerRecord pit world.memcached frame
  | .memcachedAddServers => memcachedAddServersRecord pit world.memcached frame

/-- Its span is annotated in one go. -/
def bas (call : ServiceCall) (world : ServiceWorld) (frame : Frame)
    (pit : Interceptor) : Option (List Ba) :=
  match call with
  | .pdo =>
      (errorInfoBas pit.pct world.pdo frame "unknown" .normal).map
        fun errors =>
          pdoStatementBas pit.pct frame ++ pdoDbhBas pit.pct world.pdo ++
            errors ++ pdoSetException pit.pct world.pdo world.exception
  | .pdoStatement =>
      (errorInfoBas pit.pct world.pdo frame "unkown" .error).map
        fun errors => pdoStmtBas pit.pct world.pdo ++ errors
  | .redis =>
      some <| [⟨"sa", some "true", "redis", some world.redis.host,
            world.redis.port, .sa⟩,
          spanAddBaEx pit.pct "db.statement"
            (some (pit.convertArgsToString frame)) .normal,
          spanAddBaEx pit.pct "db.type" (some "redis") .normal] ++
        world.redis.lastErrorBas frame ++
        world.redis.exceptionBas pit.pct world.exception
  | .memcachedCommon => some (memcachedCommonCall pit world.memcached frame)
  | .memcachedAddServer =>
      some <| Intercept.memcachedAddServer frame ++
        memcachedCommonCall pit world.memcached frame
  | .memcachedAddServers =>
      some <| Intercept.memcachedAddServers world.memcached frame ++
        memcachedCommonCall pit world.memcached frame

def spanName (call : ServiceCall) (frame : Frame) : String :=
  match call with
  | .pdo => cutToBuffer 64 ("PDO::" ++ frame.function)
  | .pdoStatement => "PDOStatement::execute"
  | _ => frame.function

def component : ServiceCall → Int × Int
  | .pdo => (databaseLayer, mysqlCn)
  | .pdoStatement => (databaseLayer, mysqlCn)
  | .redis => (cacheLayer, jedisCn)
  | .memcachedCommon => (cacheLayer, memcachedCn)
  | .memcachedAddServer => (cacheLayer, memcachedCn)
  | .memcachedAddServers => (cacheLayer, memcachedCn)

theorem record_eq (call : ServiceCall) (world : ServiceWorld)
    (frame : Frame) (pit : Interceptor) :
    call.record world frame pit = (call.bas world frame pit).bind
      ((pit.withComponent call.component.1 call.component.2).record frame
        (call.spanName frame)) := by
  cases call with
  | pdo =>
      rw [bas, Option.bind_map]
      rfl
  | pdoStatement =>
      rw [bas, Option.bind_map]
      rfl
  | redis => rfl
  | memcachedCommon => rfl
  | memcachedAddServer => rfl
  | memcachedAddServers => rfl

/-- PDO gives no `NULL` for a message that is read. -/
def ReadsMessage (call : ServiceCall) (world : ServiceWorld)
    (frame : Frame) : Prop :=
  match call with
  | .pdo => frame.retFalse = true → world.pdo.errorInfo ≠ .null
  | .pdoStatement => frame.retFalse = true → world.pdo.errorInfo ≠ .null
  | _ => True

/-- The message that the extension gives for a call that returned `false`. -/
def reported (call : ServiceCall) (world : ServiceWorld) (frame : Frame) :
    Option String :=
  if frame.retFalse then
    match call with
    | .pdo => world.pdo.errorInfo.text "unknown"
    | .pdoStatement => world.pdo.errorInfo.text "unkown"
    | .redis => world.redis.lastError
    | _ => world.memcached.result
  else none

def thrownBy (exceptionCe : String) (exception : Option Thrown) :
    Option String :=
  match exception with
  | some thrown =>
      if thrown.instanceOf exceptionCe then some thrown.message else none
  | none => none

/-- The message of an exception that the callback looks for. -/
def thrown (call : ServiceCall) (world : ServiceWorld) : Option String :=
  match call with
  | .pdo =>
      if world.pdo.hasPdo then thrownBy "PDOException" world.exception
      else none
  | .redis =>
      if world.redis.hasException then
        thrownBy "redisexception" world.exception
      else none
  | _ => none

/-- The type that the callback gives a reported error. -/
def reportType : ServiceCall → BaType
  | .pdo => .normal
  | .redis => .sa
  | _ => .error

end ServiceCall

/-! The errors they add. -/

theorem setSpanException_eq (pct : ChainInfo) (exceptionCe : String)
    (exception : Option Thrown) :
    setSpanException pct exceptionCe exception =
      ((ServiceCall.thrownBy exceptionCe exception).map
        (errorBa pct.serviceName pct.ip pct.port .error)).toList := by
  cases exception with
  | none => rfl
  | some thrown =>
      simp only [setSpanException, ServiceCall.thrownBy]
      split <;> rfl

theorem errorInfoBas_eq {pdo : Pdo} {frame : Frame}
    (h : frame.retFalse = true → pdo.errorInfo ≠ .null) (pct : ChainInfo)
    (unknown : String) (type : BaType) :
    errorInfoBas pct pdo frame unknown type =
      some ((if frame.retFalse then pdo.errorInfo.text unknown else none).map
        (errorBa pct.serviceName pct.ip pct.port type)).toList := by
  unfold errorInfoBas
  split
  · rename_i hret
    cases herror : pdo.errorInfo with
    | null => exact absurd herror (h hret)
    | _ => rfl
  · rfl

theorem errorInfoBas_eq_none {pdo : Pdo} {frame : Frame}
    (h : ¬ (frame.retFalse = true → pdo.errorInfo ≠ .null)) (pct : ChainInfo)
    (unknown : String) (type : BaType) :
    errorInfoBas pct pdo frame unknown type = none := by
  obtain ⟨hret, hnull⟩ := Classical.not_imp.mp h
  rw [errorInfoBas, if_pos hret, not_not.mp hnull]

theorem Redis.lastErrorBas_eq (redis : Redis) (frame : Frame) :
    redis.lastErrorBas frame =
      ((if frame.retFalse then redis.lastError else none).map
        (errorBa "Redis" redis.host redis.port .sa)).toList := by
  unfold Redis.lastErrorBas Redis.lastError
  split
  · cases redis.getLastError with
    | none => rfl
    | some error => cases error <;> rfl
  · rfl

theorem Redis.exceptionBas_eq (redis : Redis) (pct : ChainInfo)
    (exception : Option Thrown) :
    redis.exceptionBas pct exception =
      ((if redis.hasException then
          ServiceCall.thrownBy "redisexception" exception
        else none).map
          (errorBa pct.serviceName pct.ip pct.port .error)).toList := by
  unfold Redis.exceptionBas
  split
  · exact setSpanException_eq _ _ _
  · rfl

theorem pdoSetException_eq (pct : ChainInfo) (pdo : Pdo)
    (exception : Option Thrown) :
    pdoSetException pct pdo exception =
      ((if pdo.hasPdo then ServiceCall.thrownBy "PDOException" exception
        else none).map
          (errorBa pct.serviceName pct.ip pct.port .error)).toList := by
  unfold pdoSetException
  split
  · exact setSpanException_eq _ _ _
  · rfl

theorem Memcached.resultBas_eq (memcached : Memcached) (pct : ChainInfo)
    (frame : Frame) :
    memcached.resultBas pct frame =
      ((if frame.retFalse then memcached.result else none).map
        (errorBa pct.serviceName pct.ip pct.port .error)).toList := by
  unfold Memcached.resultBas Memcached.result
  split
  · cases memcached.getResultMessage with
    | none => rfl
    | some message => cases message <;> rfl
  · rfl

namespace ServiceCall

variable {call : ServiceCall} {world : ServiceWorld} {frame : Frame}
variable {pit : Interceptor}

theorem bas_eq_none (h : ¬ call.ReadsMessage world frame) :
    call.bas world frame pit = none := by
  cases call with
  | pdo => rw [bas, errorInfoBas_eq_none h, Option.map_none]
  | pdoStatement => rw [bas, errorInfoBas_eq_none h, Option.map_none]
  | redis => exact absurd trivial h
  | memcachedCommon => exact absurd trivial h
  | memcachedAddServer => exact absurd trivial h
  | memcachedAddServers => exact absurd trivial h

/-- What is reported, and what is thrown, comes last. -/
def errors (call : ServiceCall) (world : ServiceWorld) (frame : Frame)
    (pct : ChainInfo) (serviceName ipv4 : String) (port : Int) : List Ba :=
  ((call.reported world frame).map
      (errorBa serviceName ipv4 port call.reportType)).toList ++
    ((call.thrown world).map
      (errorBa pct.serviceName pct.ip pct.port .error)).toList

/-- Before the errors come annotations of another kind. -/
structure Adds (call : ServiceCall) (world : ServiceWorld) (frame : Frame)
    (pit : Interceptor) (plain : List Ba) (serviceName ipv4 : String)
    (port : Int) : Prop where
  noError : ∀ ba ∈ plain, ba.key ≠ "error" ∧ ba.type ≠ .error
  one : call.reportType = .error → call.thrown world = none
  bas : call.bas world frame pit =
    some (plain ++ call.errors world frame pit.pct serviceName ipv4 port)

theorem exists_adds (h : call.ReadsMessage world frame) :
    ∃ plain serviceName ipv4 port,
      call.Adds world frame pit plain serviceName ipv4 port := by
  have memcached : ∀ servers : List Ba,
      (∀ ba ∈ servers, ba.key ≠ "error" ∧ ba.type ≠ .error) →
      ∀ ba ∈ servers ++ [spanAddBaEx pit.pct "db.statement"
            (some (pit.convertArgsToString frame)) .normal,
          spanAddBaEx pit.pct "db.type" (some "memcache") .normal],
        ba.key ≠ "error" ∧ ba.type ≠ .error := by
    intro servers hservers ba hba
    rcases List.mem_append.mp hba with hba | hba
    · exact hservers ba hba
    · rcases List.mem_pair.mp hba with rfl | rfl <;> simp [spanAddBaEx]
  cases call with
  | pdo =>
      refine ⟨pdoStatementBas pit.pct frame ++ pdoDbhBas pit.pct world.pdo,
        pit.pct.serviceName, pit.pct.ip, pit.pct.port, ?_, ?_, ?_⟩
      · intro ba hba
        rcases List.mem_append.mp hba with hba | hba
        · exact plain_pdoStatementBas hba
        · exact plain_pdoDbhBas hba
      · simp [reportType]
      · rw [ServiceCall.bas, errorInfoBas_eq h, pdoSetException_eq,
          Option.map_some, List.append_assoc _ _ (Option.toList _)]
        rfl
  | pdoStatement =>
      refine ⟨pdoStmtBas pit.pct world.pdo, pit.pct.serviceName, pit.pct.ip,
        pit.pct.port, fun ba hba => plain_pdoStmtBas hba, fun _ => rfl, ?_⟩
      rw [ServiceCall.bas, errorInfoBas_eq h, Option.map_some, errors,
        show ServiceCall.pdoStatement.thrown world = none from rfl,
        Option.map_none, Option.toList_none, List.append_nil]
      rfl
  | redis =>
      refine ⟨[⟨"sa", some "true", "redis", some world.redis.host,
            world.redis.port, .sa⟩,
          spanAddBaEx pit.pct "db.statement"
            (some (pit.convertArgsToString frame)) .normal,
          spanAddBaEx pit.pct "db.type" (some "redis") .normal], "Redis",
        world.redis.host, world.redis.port, by simp [spanAddBaEx],
        by simp [reportType], ?_⟩
      rw [ServiceCall.bas, Redis.lastErrorBas_eq, Redis.exceptionBas_eq,
        List.append_assoc]
      rfl
  | memcachedCommon =>
      refine ⟨_, pit.pct.serviceName, pit.pct.ip, pit.pct.port,
        memcached [] (by simp), fun _ => rfl, ?_⟩
      rw [ServiceCall.bas, memcachedCommonCall, Memcached.resultBas_eq, errors,
        show ServiceCall.memcachedCommon.thrown world = none from rfl,
        Option.map_none, Option.toList_none, List.append_nil,
        List.nil_append]
      rfl
  | memcachedAddServer =>
      refine ⟨_, pit.pct.serviceName, pit.pct.ip, pit.pct.port,
        memcached (Intercept.memcachedAddServer frame)
          fun ba hba => plain_memcachedAddServer hba, fun _ => rfl, ?_⟩
      rw [ServiceCall.bas, memcachedCommonCall, Memcached.resultBas_eq, errors,
        show ServiceCall.memcachedAddServer.thrown world = none from rfl,
        Option.map_none, Option.toList_none, List.append_nil,
        ← List.append_assoc]
      rfl
  | memcachedAddServers =>
      refine ⟨_, pit.pct.serviceName, pit.pct.ip, pit.pct.port,
        memcached (Intercept.memcachedAddServers world.memcached frame)
          fun ba hba => plain_memcachedAddServers hba, fun _ => rfl, ?_⟩
      rw [ServiceCall.bas, memcachedCommonCall, Memcached.resultBas_eq, errors,
        show ServiceCall.memcachedAddServers.thrown world = none from rfl,
        Option.map_none, Option.toList_none, List.append_nil,
        ← List.append_assoc]
      rfl

theorem Adds.record {plain : List Ba} {serviceName ipv4 : String} {port : Int}
    (h : call.Adds world frame pit plain serviceName ipv4 port)
    (type : SpanFormat) :
    call.record world frame (pit.withFormat type) =
      ((pit.withComponent call.component.1 call.component.2).withFormat
          type).record frame (call.spanName frame)
        (plain ++ call.errors world frame pit.pct serviceName ipv4 port) := by
  have hbas : call.bas world frame (pit.withFormat type) =
      call.bas world frame pit := by
    cases call <;> rfl
  rw [record_eq, hbas, h.bas, Option.bind_some]
  rfl

theorem Adds.exists_annotated_iff {plain : List Ba}
    {serviceName ipv4 name : String} {port : Int} {pit' : Interceptor}
    (h : call.Adds world frame pit plain serviceName ipv4 port) :
    (∃ message, Annotated .zipkin (recordBas frame name
        (plain ++ call.errors world frame pit.pct serviceName ipv4 port)
        (pit'.withFormat .zipkin)) "error" message) ↔
      (call.reported world frame).isSome ∨ (call.thrown world).isSome := by
  simp only [annotated_recordBas_iff]
  constructor
  · rintro ⟨message, ba, hba, hkey, -⟩
    rcases List.mem_append.mp hba with hba | hba
    · exact absurd hkey (h.noError ba hba).1
    · rcases List.mem_append.mp hba with hba | hba
      · obtain ⟨reported, hreported, -⟩ :=
          Option.map_eq_some_iff.mp (Option.mem_toList.mp hba)
        exact .inl (by rw [hreported]; rfl)
      · obtain ⟨thrown, hthrown, -⟩ :=
          Option.map_eq_some_iff.mp (Option.mem_toList.mp hba)
        exact .inr (by rw [hthrown]; rfl)
  · rintro (hsome | hsome)
    · obtain ⟨reported, hreported⟩ := Option.isSome_iff_exists.mp hsome
      refine ⟨reported, errorBa serviceName ipv4 port call.reportType reported,
        ?_, rfl, rfl, rfl⟩
      refine List.mem_append_right _ (List.mem_append_left _ ?_)
      rw [hreported]
      exact List.mem_cons_self
    · obtain ⟨thrown, hthrown⟩ := Option.isSome_iff_exists.mp hsome
      refine ⟨thrown, errorBa pit.pct.serviceName pit.pct.ip pit.pct.port
        .error thrown, ?_, rfl, rfl, rfl⟩
      refine List.mem_append_right _ (List.mem_append_right _ ?_)
      rw [hthrown]
      exact List.mem_cons_self

/-- No `NULL` is read for a message, the errors are marked, and with an error
the texts of the third format fit its buffers. -/
def Marks (call : ServiceCall) (world : ServiceWorld) (frame : Frame)
    (pit : Interceptor) : Prop :=
  call.ReadsMessage world frame ∧
    MarksErrors call.reportType (call.reported world frame)
      (call.thrown world) pit.psb.residue ∧
    ((call.reported world frame).isSome ∨ (call.thrown world).isSome →
      ∀ bas, call.bas world frame pit = some bas →
        pit.FitsSky frame (call.spanName frame) bas)

theorem Adds.marked_iff {plain : List Ba} {serviceName ipv4 : String}
    {port : Int} (h : call.Adds world frame pit plain serviceName ipv4 port) :
    FailureMarked (call.record world frame) pit ↔
      MarksErrors call.reportType (call.reported world frame)
          (call.thrown world) pit.psb.residue ∧
        ((call.reported world frame).isSome ∨ (call.thrown world).isSome →
          ∀ bas, call.bas world frame pit = some bas →
            pit.FitsSky frame (call.spanName frame) bas) := by
  rw [failureMarked_iff_tableMarked h.record]
  refine and_congr (tableMarked_reported_iff h.noError _ _ _ _ _ _ h.one) ?_
  constructor
  · intro hfits hgiven bas hbas
    obtain ⟨message, hannotated⟩ := h.exists_annotated_iff.mpr hgiven
    obtain rfl := Option.some.inj (h.bas.symm.trans hbas)
    exact hfits message hannotated
  · intro hfits message hannotated
    exact hfits (h.exists_annotated_iff.mp ⟨message, hannotated⟩) _ h.bas

end ServiceCall

/-- The failure of a call is marked in every format exactly when what the
callback reads is there, an error that PDO or redis reports is also thrown,
and every message and text ends in its buffer. -/
theorem failureMarked_iff (call : ServiceCall) (world : ServiceWorld)
    (frame : Frame) (pit : Interceptor) :
    FailureMarked (call.record world frame) pit ↔
      call.Marks world frame pit := by
  by_cases hreads : call.ReadsMessage world frame
  · obtain ⟨plain, serviceName, ipv4, port, hadds⟩ :
        ∃ plain serviceName ipv4 port,
          call.Adds world frame pit plain serviceName ipv4 port :=
      ServiceCall.exists_adds hreads
    rw [hadds.marked_iff, ServiceCall.Marks, and_iff_right hreads]
  · refine iff_of_false ?_ fun hmarks => hreads hmarks.1
    rintro ⟨zn, hzn, -⟩
    rw [ServiceCall.record_eq, ServiceCall.bas_eq_none hreads] at hzn
    cases hzn

/-- A server that answers `PDO::exec("12121.1212")` with a syntax error. -/
def failedService : ServiceWorld where
  pdo :=
    ⟨true, some ⟨some (some "mysql"), some "dbname=test;host=127.0.0.1"⟩, none,
      .message "You have an error in your SQL syntax"⟩
  redis := ⟨none, none, none, false⟩
  memcached := ⟨none, fun _ => "", fun _ => 0⟩
  exception := none

def pdoExecFrame : Frame :=
  ⟨"exec", .object 1, [.string "12121.1212"], some (.bool false), 1, 2, "1.1",
    some "1"⟩

/-- Its error is a plain tag outside zipkin. -/
theorem not_failureMarked_pdo :
    ¬ FailureMarked (ServiceCall.pdo.record failedService pdoExecFrame)
      ⟨⟨"test", "00000000000000a1", "127.0.0.1", 0, 1, 0, 0, true⟩,
        ⟨.zipkin, ""⟩, fun _ => ""⟩ := by
  intro hmarked
  obtain ⟨plain, serviceName, ipv4, port, hadds⟩ :=
    @ServiceCall.exists_adds .pdo failedService pdoExecFrame
      ⟨⟨"test", "00000000000000a1", "127.0.0.1", 0, 1, 0, 0, true⟩,
        ⟨.zipkin, ""⟩, fun _ => ""⟩ fun _ => by decide
  have hthrown := (hadds.marked_iff.mp hmarked).1.1 (by decide) _ rfl
  cases hthrown

end Molten.Intercept
