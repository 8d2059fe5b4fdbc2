import Molten.Span.Builder

namespace Molten.Span

open Molten.Php
open Molten.Text

/-! What `span_add_ba` adds to the lists and maps of a span. -/

theorem foldl_view {α β γ : Type} {step : β → α → β} {ready : β → Prop}
    (view : β → List γ) (added : α → List γ)
    (hstep : ∀ state item, ready state → ready (step state item) ∧
      view (step state item) = view state ++ added item)
    (items : List α) {state : β} (h : ready state) :
    ready (items.foldl step state) ∧
      view (items.foldl step state) = view state ++ items.flatMap added := by
  induction items generalizing state with
  | nil => exact ⟨h, (List.append_nil _).symm⟩
  | cons item items ih =>
      obtain ⟨hready, hview⟩ := hstep state item h
      obtain ⟨hfold, hitems⟩ := ih hready
      refine ⟨hfold, ?_⟩
      rw [List.foldl_cons, hitems, hview, List.flatMap_cons,
        List.append_assoc]

/-! Zipkin. -/

def znAdded (ba : Ba) : List Zval :=
  match ba.value, ba.ipv4 with
  | some value, some ipv4 =>
      [.array (znBannotationEntry ba.key value ba.serviceName ipv4 ba.port)]
  | _, _ => []

theorem find_znBannotationEntry (key value serviceName ipv4 : String) (port : Int) :
    (znBannotationEntry key value serviceName ipv4 port).find (.name "key") =
        some (.string key) ∧
      (znBannotationEntry key value serviceName ipv4 port).find (.name "value") =
        some (.string value) := by
  rw [znBannotationEntry, znAddEndpoint]
  constructor
  · rw [HashTable.find_addAssoc_of_ne (by decide),
      HashTable.find_addAssoc_of_ne (by decide), HashTable.find_addAssoc_self]
  · rw [HashTable.find_addAssoc_of_ne (by decide),
      HashTable.find_addAssoc_self]

theorem znAddSpanBannotation_view (span : HashTable) (ba : Ba)
    (h : span.HasArray "binaryAnnotations") :
    ( znAddSpanBannotation span ba).HasArray "binaryAnnotations" ∧
      (( znAddSpanBannotation span ba).inner "binaryAnnotations").values =
        (span.inner "binaryAnnotations").values ++ znAdded ba := by
  obtain ⟨entries, hentries⟩ := id h
  unfold znAddSpanBannotation znAdded
  cases ba.value with
  | none => exact ⟨h, (List.append_nil _).symm⟩
  | some value =>
      cases ba.ipv4 with
      | none => exact ⟨h, (List.append_nil _).symm⟩
      | some ipv4 =>
          simp only [hentries]
          exact ⟨(HashTable.hasArray_within _).mpr h, by
            rw [h.inner_within, HashTable.values_push]⟩

theorem znSpanAddBas_view (residue : String) (timestamp : Nat)
    {span : HashTable} (bas : List Ba)
    (h : span.HasArray "binaryAnnotations") :
    (((⟨.zipkin, residue⟩ : SpanBuilder).spanAddBas timestamp span bas).inner
      "binaryAnnotations").values =
        (span.inner "binaryAnnotations").values ++ bas.flatMap znAdded := by
  exact (foldl_view
    (fun span : HashTable => (span.inner "binaryAnnotations").values) znAdded
    znAddSpanBannotation_view bas h).2

/-! OpenTracing. -/

structure OtReady (span : HashTable) : Prop where
  tags : span.HasArray "tags"
  logs : span.HasArray "logs"

def otTagged (key : String) (ba : Ba) : Option Zval :=
  let peer (addressKey : String) : Option Zval :=
    if key = "peer.service" then some (.string ba.serviceName)
    else if key = "peer.port" then some (.long ba.port)
    else if key = addressKey then ba.ipv4.map .string
    else none
  match ba.type with
  | .normal => if key = ba.key then ba.value.map .string else none
  | .sa => peer "peer.ipv4"
  | .saHost => peer "peer.hostname"
  | .saIp => peer "peer.ipv4"
  | .saDsn => if key = "peer.address" then ba.value.map .string else none
  | .path => none
  | .error => if key = "error" then some (.bool true) else none

def otLogged (timestamp : Nat) (ba : Ba) : List Zval :=
  match ba.type with
  | .error => [.array (otLog timestamp (errorFields (ba.value.getD "")))]
  | _ => []

theorem OtReady.addTag {span : HashTable} (h : OtReady span) (key : String)
    (value : Option Zval) : OtReady (otAddTag span key value) := by
  cases value with
  | none => exact h
  | some value =>
      exact ⟨(HashTable.hasArray_within _).mpr h.tags,
        (HashTable.hasArray_within _).mpr h.logs⟩

theorem find_otAddTag {span : HashTable} (h : OtReady span)
    (key other : String) (value : Option Zval) :
    ((otAddTag span key value).inner "tags").find (.name other) =
      (if other = key then value else none).or
        ((span.inner "tags").find (.name other)) := by
  cases value with
  | none => simp [otAddTag]
  | some value =>
      rw [otAddTag, h.tags.inner_within]
      by_cases heq : other = key
      · subst heq
        simp
      · rw [HashTable.find_addAssoc_of_ne heq, if_neg heq, Option.none_or]

theorem logs_otAddTag (span : HashTable) (key : String)
    (value : Option Zval) :
    (otAddTag span key value).inner "logs" = span.inner "logs" := by
  cases value with
  | none => rfl
  | some value => exact HashTable.inner_within_of_ne (by decide) _

theorem OtReady.addPeer {span : HashTable} (h : OtReady span)
    (addressKey : String) (ba : Ba) :
    OtReady (otAddPeer span addressKey ba) := by
  rw [otAddPeer]
  exact ((h.addTag _ _).addTag _ _).addTag _ _

theorem find_otAddPeer {span : HashTable} (h : OtReady span)
    (addressKey : String) (ba : Ba) (key : String) :
    ((otAddPeer span addressKey ba).inner "tags").find (.name key) =
      (if key = "peer.service" then some (.string ba.serviceName)
        else if key = "peer.port" then some (.long ba.port)
        else if key = addressKey then ba.ipv4.map .string
        else none).or ((span.inner "tags").find (.name key)) := by
  have h₁ := h.addTag addressKey (ba.ipv4.map .string)
  have h₂ := h₁.addTag "peer.port" (some (.long ba.port))
  rw [otAddPeer, find_otAddTag h₂, find_otAddTag h₁, find_otAddTag h]
  by_cases hservice : key = "peer.service"
  · simp [hservice]
  · by_cases hport : key = "peer.port"
    · simp [hport]
    · simp [hservice, hport]

theorem logs_otAddPeer (span : HashTable) (addressKey : String) (ba : Ba) :
    (otAddPeer span addressKey ba).inner "logs" = span.inner "logs" := by
  rw [otAddPeer, logs_otAddTag, logs_otAddTag, logs_otAddTag]

theorem otSpanAddBa_view {span : HashTable} (timestamp : Nat) (ba : Ba)
    (h : OtReady span) :
    OtReady (otSpanAddBa span timestamp ba) ∧
      (∀ key, ((otSpanAddBa span timestamp ba).inner "tags").find (.name key) =
        (otTagged key ba).or ((span.inner "tags").find (.name key))) ∧
      ((otSpanAddBa span timestamp ba).inner "logs").values =
        (span.inner "logs").values ++ otLogged timestamp ba := by
  unfold otSpanAddBa otTagged otLogged
  cases ba.type with
  | normal =>
      exact ⟨h.addTag _ _, fun key => find_otAddTag h _ _ _, by
        rw [logs_otAddTag, List.append_nil]⟩
  | sa =>
      exact ⟨h.addPeer _ _, find_otAddPeer h _ _, by
        rw [logs_otAddPeer, List.append_nil]⟩
  | saHost =>
      exact ⟨h.addPeer _ _, find_otAddPeer h _ _, by
        rw [logs_otAddPeer, List.append_nil]⟩
  | saIp =>
      exact ⟨h.addPeer _ _, find_otAddPeer h _ _, by
        rw [logs_otAddPeer, List.append_nil]⟩
  | saDsn =>
      exact ⟨h.addTag _ _, fun key => find_otAddTag h _ _ _, by
        rw [logs_otAddTag, List.append_nil]⟩
  | path => exact ⟨h, fun key => rfl, (List.append_nil _).symm⟩
  | error =>
      have htag := h.addTag "error" (some (.bool true))
      refine ⟨⟨(HashTable.hasArray_within _).mpr htag.tags,
        (HashTable.hasArray_within _).mpr htag.logs⟩, fun key => ?_, ?_⟩
      · rw [otAddLog, HashTable.inner_within_of_ne (by decide)]
        exact find_otAddTag h _ _ _
      · rw [otAddLog, htag.logs.inner_within, HashTable.values_push,
          logs_otAddTag]

theorem otSpanAddBas_view (residue : String) (timestamp : Nat)
    {span : HashTable} (bas : List Ba) (h : OtReady span) :
    (((⟨.opentracing, residue⟩ : SpanBuilder).spanAddBas timestamp span
      bas).inner "logs").values =
        (span.inner "logs").values ++ bas.flatMap (otLogged timestamp) :=
  (foldl_view (fun span : HashTable => (span.inner "logs").values)
    (otLogged timestamp)
    (fun _ ba hspan => ⟨(otSpanAddBa_view timestamp ba hspan).1,
      (otSpanAddBa_view timestamp ba hspan).2.2⟩) bas h).2

theorem find_otSpanAddBas (residue : String) (timestamp : Nat)
    {span : HashTable} (bas : List Ba) (h : OtReady span) (key : String) :
    (((⟨.opentracing, residue⟩ : SpanBuilder).spanAddBas timestamp span
      bas).inner "tags").find (.name key) =
        bas.foldl (fun found ba => (otTagged key ba).or found)
          ((span.inner "tags").find (.name key)) := by
  induction bas generalizing span with
  | nil => rfl
  | cons ba bas ih =>
      obtain ⟨hready, hfind, -⟩ := otSpanAddBa_view timestamp ba h
      rw [List.foldl_cons, ← hfind key]
      exact ih hready

/-! SkyWalking. -/

structure SkReady (span : HashTable) : Prop where
  tags : span.HasArray "to"
  logs : span.HasArray "lo"

def skTagged (residue : String) (ba : Ba) : List (String × String) :=
  let peer (addressKey : String) : List (String × String) :=
    (ba.ipv4.map fun ipv4 => (addressKey, ipv4)).toList ++
      [("peer.port", printLong ba.port), ("peer.service", ba.serviceName)]
  match ba.value with
  | none => []
  | some value =>
      match ba.type with
      | .normal => [(ba.key, skCut residue value)]
      | .sa => peer "peer.ipv4"
      | .saHost => peer "peer.hostname"
      | .saIp => peer "peer.ipv4"
      | .saDsn => [("peer.address", skCut residue value)]
      | .path => [(ba.key, skCut residue value)]
      | .error => [("error", "true")]

def skTag (pair : String × String) : Zval :=
  .array (skPair pair.1 pair.2)

def skLogged (residue : String) (timestamp : Nat) (ba : Ba) : List Zval :=
  match ba.value, ba.type with
  | some value, .error =>
      [.array (skLog timestamp (errorFields (skCut residue value)))]
  | _, _ => []

theorem find_skPair (key value : String) :
    (skPair key value).find (.name "k") = some (.string key) ∧
      (skPair key value).find (.name "v") = some (.string value) := by
  rw [skPair]
  exact ⟨by rw [HashTable.find_addAssoc_of_ne (by decide),
    HashTable.find_addAssoc_self], HashTable.find_addAssoc_self⟩

theorem skTag_injective : Function.Injective skTag := by
  rintro ⟨key, value⟩ ⟨key', value'⟩ h
  have htable : skPair key value = skPair key' value' := Zval.array.inj h
  obtain ⟨hkey, hvalue⟩ := find_skPair key value
  rw [htable, (find_skPair key' value').1] at hkey
  rw [htable, (find_skPair key' value').2] at hvalue
  simp only [Option.some.injEq, Zval.string.injEq] at hkey hvalue
  rw [hkey, hvalue]

theorem skLog_errorFields (timestamp : Nat) (message : String) :
    ((skLog timestamp (errorFields message)).inner "ld").values =
      (errorFields message).map skTag := by
  rw [skLog, HashTable.inner_addAssoc_self]
  rfl

theorem SkReady.addAssoc {span : HashTable} (h : SkReady span) (name : String)
    (hto : "to" ≠ name) (hlo : "lo" ≠ name) (value : Zval) :
    SkReady (span.addAssoc name value) :=
  ⟨(HashTable.hasArray_addAssoc hto).mpr h.tags,
    (HashTable.hasArray_addAssoc hlo).mpr h.logs⟩

theorem SkReady.addTag {span : HashTable} (h : SkReady span) (key : String)
    (value : Option String) : SkReady (skAddTag span key value) := by
  cases value with
  | none => exact h
  | some value =>
      exact ⟨(HashTable.hasArray_within _).mpr h.tags,
        (HashTable.hasArray_within _).mpr h.logs⟩

theorem to_skAddTag {span : HashTable} (h : SkReady span) (key : String)
    (value : Option String) :
    ((skAddTag span key value).inner "to").values =
      (span.inner "to").values ++
        (value.map fun value => skTag (key, value)).toList := by
  cases value with
  | none => simp [skAddTag]
  | some value => rw [skAddTag, h.tags.inner_within, HashTable.values_push]; rfl

theorem lo_skAddTag (span : HashTable) (key : String)
    (value : Option String) :
    (skAddTag span key value).inner "lo" = span.inner "lo" := by
  cases value with
  | none => rfl
  | some value => exact HashTable.inner_within_of_ne (by decide) _

theorem skAddPeer_view {span : HashTable} (h : SkReady span)
    (addressKey : String) (ba : Ba) :
    SkReady (skAddPeer span addressKey ba) ∧
      ((skAddPeer span addressKey ba).inner "to").values =
        (span.inner "to").values ++
          ((ba.ipv4.map fun ipv4 => (addressKey, ipv4)).toList ++
            [("peer.port", printLong ba.port),
              ("peer.service", ba.serviceName)]).map skTag ∧
      (skAddPeer span addressKey ba).inner "lo" = span.inner "lo" := by
  have h₁ := h.addAssoc "pn" (by decide) (by decide)
    (.string ba.peerName)
  have h₂ := h₁.addTag addressKey ba.ipv4
  have h₃ := h₂.addTag "peer.port" (some (printLong ba.port))
  rw [skAddPeer]
  refine ⟨h₃.addTag _ _, ?_, ?_⟩
  · rw [to_skAddTag h₃, to_skAddTag h₂, to_skAddTag h₁,
      HashTable.inner_addAssoc_of_ne (by decide)]
    cases ba.ipv4 <;> simp
  · rw [lo_skAddTag, lo_skAddTag, lo_skAddTag,
      HashTable.inner_addAssoc_of_ne (by decide)]

theorem skSpanAddBa_view (residue : String) {span : HashTable}
    (timestamp : Nat) (ba : Ba) (h : SkReady span) :
    SkReady (skSpanAddBa residue span timestamp ba) ∧
      ((skSpanAddBa residue span timestamp ba).inner "to").values =
        (span.inner "to").values ++ (skTagged residue ba).map skTag ∧
      ((skSpanAddBa residue span timestamp ba).inner "lo").values =
        (span.inner "lo").values ++ skLogged residue timestamp ba := by
  unfold skSpanAddBa skTagged skLogged
  cases ba.value with
  | none => simpa using h
  | some value =>
      have tag : ∀ key, SkReady (skAddTag span key (some (skCut residue value))) ∧
          ((skAddTag span key (some (skCut residue value))).inner "to").values =
            (span.inner "to").values ++ [(key, skCut residue value)].map skTag ∧
          ((skAddTag span key (some (skCut residue value))).inner "lo").values =
            (span.inner "lo").values ++ [] := fun key =>
        ⟨h.addTag _ _, to_skAddTag h _ _, by rw [lo_skAddTag, List.append_nil]⟩
      have peer : ∀ addressKey, SkReady (skAddPeer span addressKey ba) ∧
          ((skAddPeer span addressKey ba).inner "to").values =
            (span.inner "to").values ++
              ((ba.ipv4.map fun ipv4 => (addressKey, ipv4)).toList ++
                [("peer.port", printLong ba.port),
                  ("peer.service", ba.serviceName)]).map skTag ∧
          ((skAddPeer span addressKey ba).inner "lo").values =
            (span.inner "lo").values ++ [] := by
        intro addressKey
        obtain ⟨hready, hto, hlo⟩ := skAddPeer_view h addressKey ba
        exact ⟨hready, hto, by rw [hlo, List.append_nil]⟩
      cases ba.type with
      | normal => exact tag _
      | sa => exact peer _
      | saHost => exact peer _
      | saIp => exact peer _
      | saDsn => exact tag _
      | path => exact tag _
      | error =>
          have herror := (h.addTag "error" (some "true")).addAssoc "ie"
            (by decide) (by decide) (.bool true)
          refine ⟨⟨(HashTable.hasArray_within _).mpr herror.tags,
            (HashTable.hasArray_within _).mpr herror.logs⟩, ?_, ?_⟩
          · simp only
            rw [skAddLog, HashTable.inner_within_of_ne (by decide),
              HashTable.inner_addAssoc_of_ne (by decide), to_skAddTag h]
            rfl
          · simp only
            rw [skAddLog, herror.logs.inner_within, HashTable.values_push,
              HashTable.inner_addAssoc_of_ne (by decide), lo_skAddTag]

theorem skSpanAddBas_view (residue : String) (timestamp : Nat)
    {span : HashTable} (bas : List Ba) (h : SkReady span) :
    (((⟨.skywalking, residue⟩ : SpanBuilder).spanAddBas timestamp span
      bas).inner "to").values =
        (span.inner "to").values ++
          bas.flatMap (fun ba => (skTagged residue ba).map skTag) ∧
      (((⟨.skywalking, residue⟩ : SpanBuilder).spanAddBas timestamp span
        bas).inner "lo").values =
          (span.inner "lo").values ++
            bas.flatMap (skLogged residue timestamp) :=
  ⟨(foldl_view (fun span : HashTable => (span.inner "to").values)
      (fun ba => (skTagged residue ba).map skTag)
      (fun _ ba hspan => ⟨(skSpanAddBa_view residue timestamp ba hspan).1,
        (skSpanAddBa_view residue timestamp ba hspan).2.1⟩) bas h).2,
    (foldl_view (fun span : HashTable => (span.inner "lo").values)
      (skLogged residue timestamp)
      (fun _ ba hspan => ⟨(skSpanAddBa_view residue timestamp ba hspan).1,
        (skSpanAddBa_view residue timestamp ba hspan).2.2⟩) bas h).2⟩

def Annotated (format : SpanFormat) (span : HashTable) (key value : String) :
    Prop :=
  match format with
  | .zipkin => ∃ entry : HashTable,
      .array entry ∈ (span.inner "binaryAnnotations").values ∧
        entry.find (.name "key") = some (.string key) ∧
        entry.find (.name "value") = some (.string value)
  | .opentracing =>
      (span.inner "tags").find (.name key) = some (.string value)
  | .skywalking => ∃ pair : HashTable,
      .array pair ∈ (span.inner "to").values ∧
        pair.find (.name "k") = some (.string key) ∧
        pair.find (.name "v") = some (.string value)

/-! A span that was just started. -/

theorem znStartSpanBuilder_view (pct : ChainInfo) (start : SpanStart)
    (anType : AnType) :
    (znStartSpanBuilder pct start anType).HasArray "binaryAnnotations" ∧
      (znStartSpanBuilder pct start anType).inner "binaryAnnotations" = [] := by
  have h : (znStartSpan pct start).HasArray "binaryAnnotations" ∧
      (znStartSpan pct start).inner "binaryAnnotations" = [] := by
    rw [znStartSpan]
    exact ⟨⟨[], HashTable.find_addAssoc_self⟩, HashTable.inner_addAssoc_self _⟩
  have hann : ∀ (span : HashTable) value timestamp,
      (( znAddSpanAnnotation span value timestamp pct).HasArray
        "binaryAnnotations" ↔ span.HasArray "binaryAnnotations") ∧
      ( znAddSpanAnnotation span value timestamp pct).inner
        "binaryAnnotations" = span.inner "binaryAnnotations" :=
    fun span value timestamp => ⟨HashTable.hasArray_within _,
      HashTable.inner_within_of_ne (by decide) _⟩
  cases anType with
  | server =>
      rw [znStartSpanBuilder, (hann _ _ _).1, (hann _ _ _).1, (hann _ _ _).2,
        (hann _ _ _).2]
      exact h
  | client =>
      rw [znStartSpanBuilder, (hann _ _ _).1, (hann _ _ _).1, (hann _ _ _).2,
        (hann _ _ _).2]
      exact h

theorem otStartSpanBuilder_view (pct : ChainInfo) (start : SpanStart)
    (anType : AnType) :
    OtReady (otStartSpanBuilder pct start anType) ∧
      (∀ key, key ≠ "span.kind" →
        ((otStartSpanBuilder pct start anType).inner "tags").find
          (.name key) = none) ∧
      (otStartSpanBuilder pct start anType).inner "logs" = [] := by
  have h : OtReady (otStartSpan pct start) := by
    rw [otStartSpan]
    exact ⟨(HashTable.hasArray_addAssoc (by decide)).mpr
      ⟨[], HashTable.find_addAssoc_self⟩, ⟨[], HashTable.find_addAssoc_self⟩⟩
  refine ⟨h.addTag _ _, fun key hkey => ?_, ?_⟩
  · rw [otStartSpanBuilder, find_otAddTag h, if_neg hkey, otStartSpan,
      HashTable.inner_addAssoc_of_ne (by decide),
      HashTable.inner_addAssoc_self]
    rfl
  · rw [otStartSpanBuilder, logs_otAddTag, otStartSpan,
      HashTable.inner_addAssoc_self]

theorem skStartSpanBuilder_view (pct : ChainInfo) (start : SpanStart)
    (anType : AnType) :
    SkReady (skStartSpanBuilder pct start anType) ∧
      ((skStartSpanBuilder pct start anType).inner "to").values =
        [skTag ("span.kind", anType.kind)] ∧
      (skStartSpanBuilder pct start anType).inner "lo" = [] := by
  have h : SkReady (skAddSpan pct start) := by
    rw [skAddSpan]
    exact ⟨(HashTable.hasArray_addAssoc (by decide)).mpr
      ⟨[], HashTable.find_addAssoc_self⟩, ⟨[], HashTable.find_addAssoc_self⟩⟩
  have hto : (skAddSpan pct start).inner "to" = [] := by
    rw [skAddSpan, HashTable.inner_addAssoc_of_ne (by decide),
      HashTable.inner_addAssoc_self]
  refine ⟨h.addTag _ _, ?_, ?_⟩
  · rw [skStartSpanBuilder, to_skAddTag h, hto]
    rfl
  · rw [skStartSpanBuilder, lo_skAddTag, skAddSpan,
      HashTable.inner_addAssoc_self]

/-! The same for the builder of an interceptor. -/

namespace SpanBuilder

variable {psb : SpanBuilder} {span : HashTable}

def Ready (psb : SpanBuilder) (span : HashTable) : Prop :=
  match psb.type with
  | .zipkin => span.HasArray "binaryAnnotations"
  | .opentracing => OtReady span
  | .skywalking => SkReady span

theorem ready_startSpan (psb : SpanBuilder) (pct : ChainInfo)
    (start : SpanStart) (anType : AnType) :
    psb.Ready (psb.startSpan pct start anType) := by
  obtain ⟨type, residue⟩ := psb
  cases type with
  | zipkin => exact (znStartSpanBuilder_view pct start anType).1
  | opentracing => exact (otStartSpanBuilder_view pct start anType).1
  | skywalking => exact (skStartSpanBuilder_view pct start anType).1

theorem Ready.spanAddBa (h : psb.Ready span) (timestamp : Nat) (ba : Ba) :
    psb.Ready (psb.spanAddBa timestamp span ba) := by
  obtain ⟨type, residue⟩ := psb
  cases type with
  | zipkin => exact (znAddSpanBannotation_view span ba h).1
  | opentracing => exact (otSpanAddBa_view timestamp ba h).1
  | skywalking => exact (skSpanAddBa_view residue timestamp ba h).1

theorem Ready.spanAddBas (h : psb.Ready span) (timestamp : Nat)
    (bas : List Ba) : psb.Ready (psb.spanAddBas timestamp span bas) := by
  induction bas generalizing span with
  | nil => exact h
  | cons ba bas ih => exact ih (h.spanAddBa timestamp ba)

def errorList (psb : SpanBuilder) : String :=
  match psb.type with
  | .zipkin => "binaryAnnotations"
  | .opentracing => "logs"
  | .skywalking => "lo"

theorem Ready.length_error (h : psb.Ready span) (timestamp : Nat) (ba : Ba)
    (htype : ba.type = .error) (hvalue : ba.value.isSome)
    (hipv4 : ba.ipv4.isSome) :
    ((psb.spanAddBa timestamp span ba).inner psb.errorList).length =
      (span.inner psb.errorList).length + 1 := by
  obtain ⟨value, hvalue⟩ := Option.isSome_iff_exists.mp hvalue
  obtain ⟨ipv4, hipv4⟩ := Option.isSome_iff_exists.mp hipv4
  have hlength : ∀ {before after : HashTable} {added : Zval},
      after.values = before.values ++ [added] →
        after.length = before.length + 1 := by
    intro before after added hvalues
    simpa [HashTable.values] using congrArg List.length hvalues
  obtain ⟨type, residue⟩ := psb
  cases type with
  | zipkin =>
      have hview := (znAddSpanBannotation_view span ba h).2
      rw [znAdded, hvalue, hipv4] at hview
      exact hlength hview
  | opentracing =>
      have hview := (otSpanAddBa_view timestamp ba h).2.2
      rw [otLogged, htype] at hview
      exact hlength hview
  | skywalking =>
      have hview := (skSpanAddBa_view residue timestamp ba h).2.2
      rw [skLogged, hvalue, htype] at hview
      exact hlength hview

end SpanBuilder

/-! The name of a span. -/

def nameFields : List String := ["name", "operationName", "cn", "on"]

theorem without_znAddSpanBannotation (span : HashTable) (ba : Ba) :
    ( znAddSpanBannotation span ba).without nameFields =
      znAddSpanBannotation (span.without nameFields) ba := by
  unfold znAddSpanBannotation
  split
  · rw [HashTable.without_within (by decide), HashTable.find_without (by decide)]
    split
    · rfl
    · rw [HashTable.without_addAssoc, if_neg (by decide)]
  · rfl

theorem without_otAddTag (span : HashTable) (key : String)
    (value : Option Zval) :
    (otAddTag span key value).without nameFields =
      otAddTag (span.without nameFields) key value := by
  cases value with
  | none => rfl
  | some value => exact HashTable.without_within (by decide) _

theorem without_otAddLog (span : HashTable) (timestamp : Nat)
    (fields : List (String × String)) :
    (otAddLog span timestamp fields).without nameFields =
      otAddLog (span.without nameFields) timestamp fields :=
  HashTable.without_within (by decide) _

theorem without_otSpanAddBa (span : HashTable) (timestamp : Nat) (ba : Ba) :
    (otSpanAddBa span timestamp ba).without nameFields =
      otSpanAddBa (span.without nameFields) timestamp ba := by
  unfold otSpanAddBa otAddPeer
  cases ba.type <;> simp only [without_otAddTag, without_otAddLog]

theorem without_skAddTag (span : HashTable) (key : String)
    (value : Option String) :
    (skAddTag span key value).without nameFields =
      skAddTag (span.without nameFields) key value := by
  cases value with
  | none => rfl
  | some value => exact HashTable.without_within (by decide) _

theorem without_skAddLog (span : HashTable) (timestamp : Nat)
    (fields : List (String × String)) :
    (skAddLog span timestamp fields).without nameFields =
      skAddLog (span.without nameFields) timestamp fields :=
  HashTable.without_within (by decide) _

theorem without_skSpanAddBa (residue : String) (span : HashTable)
    (timestamp : Nat) (ba : Ba) :
    (skSpanAddBa residue span timestamp ba).without nameFields =
      skSpanAddBa residue (span.without nameFields) timestamp ba := by
  have hpn : "pn" ∉ nameFields := by decide
  have hie : "ie" ∉ nameFields := by decide
  unfold skSpanAddBa skAddPeer
  cases ba.value with
  | none => rfl
  | some value =>
      cases ba.type <;>
        simp only [without_skAddTag, without_skAddLog,
          HashTable.without_addAssoc, hpn, hie, if_false]

theorem SpanBuilder.without_spanAddBas (psb : SpanBuilder) (timestamp : Nat)
    (span : HashTable) (bas : List Ba) :
    (psb.spanAddBas timestamp span bas).without nameFields =
      psb.spanAddBas timestamp (span.without nameFields) bas := by
  have hstep : ∀ (span : HashTable) ba,
      (psb.spanAddBa timestamp span ba).without nameFields =
        psb.spanAddBa timestamp (span.without nameFields) ba := by
    intro span ba
    obtain ⟨type, residue⟩ := psb
    cases type with
    | zipkin => exact without_znAddSpanBannotation span ba
    | opentracing => exact without_otSpanAddBa span timestamp ba
    | skywalking => exact without_skSpanAddBa residue span timestamp ba
  induction bas generalizing span with
  | nil => rfl
  | cons ba bas ih => exact (ih _).trans (congrArg
      (psb.spanAddBas timestamp · bas) (hstep span ba))

theorem without_znAddSpanAnnotation (span : HashTable) (value : String)
    (timestamp : Nat) (pct : ChainInfo) :
    ( znAddSpanAnnotation span value timestamp pct).without nameFields =
      znAddSpanAnnotation (span.without nameFields) value timestamp pct :=
  HashTable.without_within (by decide) _

theorem SpanBuilder.without_startSpan (psb : SpanBuilder) (pct : ChainInfo)
    (start : SpanStart) (anType : AnType) (name : String) :
    (psb.startSpan pct { start with name := name } anType).without nameFields =
      (psb.startSpan pct start anType).without nameFields := by
  obtain ⟨type, residue⟩ := psb
  obtain ⟨oldName, spanId, parentId, startTime, finishTime⟩ := start
  cases type with
  | zipkin =>
      have hstart : (znStartSpan pct
          ⟨name, spanId, parentId, startTime, finishTime⟩).without nameFields =
            (znStartSpan pct ⟨oldName, spanId, parentId, startTime,
              finishTime⟩).without nameFields := by
        cases parentId <;>
          simp [znStartSpan, HashTable.without_addAssoc, nameFields]
      cases anType <;>
        simp only [SpanBuilder.startSpan, znStartSpanBuilder,
          without_znAddSpanAnnotation, hstart]
  | opentracing =>
      simp only [SpanBuilder.startSpan, otStartSpanBuilder, without_otAddTag]
      simp [otStartSpan, HashTable.without_addAssoc, nameFields]
  | skywalking =>
      simp only [SpanBuilder.startSpan, skStartSpanBuilder, without_skAddTag]
      simp [skAddSpan, HashTable.without_addAssoc, nameFields]

end Molten.Span
