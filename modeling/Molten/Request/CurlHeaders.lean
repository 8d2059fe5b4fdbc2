import Molten.Request.Balance
import Molten.Request.Invariant

namespace Molten.Request

open Molten.Control
open Molten.Span
open Molten.Chain

/-! What the script did to a handle. -/

/-- The header value that an event gives to a handle, if it gives it one.  A
reset takes the value away. -/
def CurlEvent.sets (handle : Nat) : CurlEvent → Option (Option CurlHeader)
  | .setopt ⟨other, option, .list lines⟩ =>
      if other = handle ∧ option = curlHttpHeader then
        some (some (.list lines))
      else none
  | .setopt ⟨_, _, .scalar⟩ => none
  | .setoptArray args =>
      if args.handle = handle then args.header.map some else none
  | .reset other => if other = handle then some none else none
  | .exec _ _ _ _ => none

def CurlEvent.executes (handle : Nat) : CurlEvent → Bool
  | .exec other _ _ _ => decide (other = handle)
  | _ => false

/-- The value the user last set since the last reset, newest event first. -/
def lastSet (handle : Nat) : List CurlEvent → Option CurlHeader
  | [] => none
  | event :: events => (event.sets handle).getD (lastSet handle events)

def executedSince (handle : Nat) : List CurlEvent → Bool
  | [] => false
  | event :: events =>
      (event.sets handle).isNone &&
        (event.executes handle || executedSince handle events)

/-- The handle was executed with the list that the user last set for it. -/
def Repeated (handle : Nat) (events : List CurlEvent) : Prop :=
  executedSince handle events = true ∧
    ∃ user, lastSet handle events = some (.list user)

/-- The header value of an `exec` is the user's list and one line for each trace
key.  Nothing is asked when the user set something else than a list. -/
def HeadersExact (build : HeaderBuild) (context : TraceContext)
    (handle : Nat) (passed : CurlHeader) (spanId parentSpanId : Option String)
    (events : List CurlEvent) : Prop :=
  ∃ own parent, spanId = some own ∧ parentSpanId = some parent ∧
    match lastSet handle events with
    | some .scalar => True
    | some (.list user) =>
        passed = .list (user ++ traceLines build context own parent)
    | none => passed = .list (traceLines build context own parent)

def EveryExec (holds : Nat → CurlHeader → Option String → Option String →
    List CurlEvent → Prop) : List CurlEvent → Prop
  | [] => True
  | .exec handle passed spanId parentSpanId :: older =>
      holds handle passed spanId parentSpanId older ∧ EveryExec holds older
  | _ :: older => EveryExec holds older

theorem EveryExec.cons_of_not_exec
    {holds : Nat → CurlHeader → Option String → Option String →
      List CurlEvent → Prop}
    {event : CurlEvent} {events : List CurlEvent}
    (h : EveryExec holds events)
    (hexec : ∀ handle, event.executes handle = false) :
    EveryExec holds (event :: events) := by
  cases event with
  | setopt _ => exact h
  | setoptArray _ => exact h
  | reset _ => exact h
  | exec handle _ _ _ => simpa [CurlEvent.executes] using hexec handle

theorem EveryExec.iff
    {holds holds' : Nat → CurlHeader → Option String → Option String →
      List CurlEvent → Prop} {events : List CurlEvent}
    (h : EveryExec (fun handle passed spanId parentSpanId older =>
      (holds handle passed spanId parentSpanId older ↔
        holds' handle passed spanId parentSpanId older)) events) :
    EveryExec holds events ↔ EveryExec holds' events := by
  induction events with
  | nil => exact Iff.rfl
  | cons event events ih =>
      cases event with
      | setopt _ => exact ih h
      | setoptArray _ => exact ih h
      | reset _ => exact ih h
      | exec _ _ _ _ => exact and_congr h.1 (ih h.2)

/-! What `molten_curl_exec` finds in its record. -/

/-- The recorded value is the user's, with the lines of earlier calls behind
it if there were any. -/
def RecordAgrees (handle : Nat) (record : Option CurlHeader)
    (events : List CurlEvent) : Prop :=
  match lastSet handle events with
  | none => record = none
  | some .scalar => record = some .scalar
  | some (.list user) =>
      ∃ sent, record = some (.list (user ++ sent)) ∧
        (sent ≠ [] ↔ executedSince handle events = true)

theorem recordAgrees_nil (handle : Nat) : RecordAgrees handle none [] := rfl

theorem RecordAgrees.cons {handle : Nat} {record : Option CurlHeader}
    {event : CurlEvent} {events : List CurlEvent}
    (h : RecordAgrees handle record events)
    (hexec : event.executes handle = false) :
    RecordAgrees handle ((event.sets handle).getD record)
      (event :: events) := by
  unfold RecordAgrees
  rw [lastSet, executedSince, hexec]
  cases hsets : event.sets handle with
  | none => simpa [RecordAgrees] using h
  | some value =>
      rcases value with _ | (lines | _)
      · rfl
      · exact ⟨[], by simp, by simp⟩
      · rfl

def CurlHeader.append (added : List String) : CurlHeader → CurlHeader
  | .list lines => .list (lines ++ added)
  | .scalar => .scalar

theorem RecordAgrees.exec {handle : Nat} {record : Option CurlHeader}
    {events : List CurlEvent} (h : RecordAgrees handle record events)
    {added : List String} (hadded : added ≠ []) (passed : CurlHeader)
    (spanId parentSpanId : Option String) :
    RecordAgrees handle (record.map (CurlHeader.append added))
      (.exec handle passed spanId parentSpanId :: events) := by
  have hset : lastSet handle
      (.exec handle passed spanId parentSpanId :: events) =
        lastSet handle events := rfl
  have hexecuted : executedSince handle
      (.exec handle passed spanId parentSpanId :: events) = true := by
    simp [executedSince, CurlEvent.sets, CurlEvent.executes]
  unfold RecordAgrees at h ⊢
  rw [hset, hexecuted]
  cases hlast : lastSet handle events with
  | none =>
      rw [hlast] at h
      rw [h]
      rfl
  | some value =>
      rw [hlast] at h
      cases value with
      | scalar =>
          rw [h]
          rfl
      | list user =>
          obtain ⟨sent, hrecord, -⟩ := h
          refine ⟨sent ++ added, ?_, by simp [hadded]⟩
          rw [hrecord, Option.map_some, CurlHeader.append, List.append_assoc]

theorem recordAgrees_update {record : Nat → Option CurlHeader}
    {events : List CurlEvent}
    (h : ∀ handle, RecordAgrees handle (record handle) events)
    {added : List String} (hadded : added ≠ []) {handle : Nat}
    {passed : CurlHeader}
    (hpassed : passed =
      CurlHeader.append added ((record handle).getD (.list [])))
    (spanId parentSpanId : Option String) (other : Nat) :
    RecordAgrees other
      (Function.update record handle ((record handle).map fun _ => passed)
        other)
      (.exec handle passed spanId parentSpanId :: events) := by
  by_cases heq : other = handle
  · subst heq
    have hmap : (record other).map (fun _ => passed) =
        (record other).map (CurlHeader.append added) := by
      cases hrecord : record other with
      | none => rfl
      | some value =>
          rw [hpassed, hrecord]
          rfl
    rw [Function.update_self, hmap]
    exact (h other).exec hadded passed spanId parentSpanId
  · rw [Function.update_of_ne heq]
    exact (h other).cons (by simp [CurlEvent.executes, Ne.symm heq])

theorem RecordAgrees.headersExact_iff {handle : Nat}
    {record : Option CurlHeader} {events : List CurlEvent}
    (h : RecordAgrees handle record events) (build : HeaderBuild)
    (context : TraceContext) (own parent : String) :
    HeadersExact build context handle
        (CurlHeader.append (traceLines build context own parent)
          (record.getD (.list [])))
        (some own) (some parent) events ↔
      ¬ Repeated handle events := by
  have hids : ∀ goal : String → String → Prop,
      (∃ own' parent', some own = some own' ∧ some parent = some parent' ∧
        goal own' parent') ↔ goal own parent := by
    intro goal
    simp
  rw [HeadersExact, hids, Repeated]
  unfold RecordAgrees at h
  cases hlast : lastSet handle events with
  | none =>
      rw [hlast] at h
      rw [h]
      simp [CurlHeader.append]
  | some value =>
      rw [hlast] at h
      cases value with
      | scalar => simp
      | list user =>
          obtain ⟨sent, hrecord, hsent⟩ := h
          rw [hrecord, ← hsent]
          simp [CurlHeader.append]

/-! The operations of the script. -/

def Globals.hear (event : CurlEvent) (g : Globals) : Globals :=
  { g with
    curlHeaderRecord := fun handle =>
      (event.sets handle).getD (g.curlHeaderRecord handle)
    events := event :: g.events }

private theorem update_eq_getD (record : Nat → Option CurlHeader)
    (other : Nat) (value : Option CurlHeader) :
    Function.update record other value = fun handle =>
      (if other = handle then some value else none).getD (record handle) := by
  funext handle
  by_cases heq : other = handle
  · subst heq
    simp
  · simp [heq, Function.update_of_ne (Ne.symm heq)]

theorem userSetopt_eq (args : SetoptArgs) {g : Globals}
    (h : g.curlHeaderInternelCall = false) :
    userSetopt (some args) g = g.hear (.setopt args) := by
  obtain ⟨other, option, value⟩ := args
  cases value with
  | scalar =>
      simp only [userSetopt, moltenCurlSetopt, h, Bool.false_eq_true, if_false]
      rfl
  | list lines =>
      by_cases hoption : option = curlHttpHeader
      · simp only [userSetopt, moltenCurlSetopt, h, hoption, recordHeader,
          Bool.false_eq_true, if_false, if_true, update_eq_getD, Globals.log,
          Globals.hear, CurlEvent.sets, and_true]
      · simp [userSetopt, moltenCurlSetopt, h, hoption, Globals.log,
          Globals.hear, CurlEvent.sets]

theorem userSetoptArray_eq (args : SetoptArrayArgs) (g : Globals) :
    userSetoptArray (some args) g = g.hear (.setoptArray args) := by
  cases hheader : args.header with
  | none =>
      simp [userSetoptArray, moltenCurlSetoptArray, hheader, Globals.log,
        Globals.hear, CurlEvent.sets]
  | some header =>
      simp only [userSetoptArray, moltenCurlSetoptArray, hheader, recordHeader,
        update_eq_getD, Globals.log, Globals.hear, CurlEvent.sets,
        Option.map_some]

theorem userReset_eq (handle : Nat) (g : Globals) :
    userReset (some handle) g = g.hear (.reset handle) := by
  simp only [userReset, moltenCurlReset, update_eq_getD, Globals.log,
    Globals.hear, CurlEvent.sets]

/-! The invariant of a sampled request. -/

structure CurlInv (build : Build) (context : TraceContext) (depth : Nat)
    (g : Globals) : Prop where
  active : g.Active
  pch : ∃ ip port, g.chain.pch = context.header build.headers ip port
  depth : depth < g.ids.length
  outside : g.curlHeaderInternelCall = false
  record : ∀ handle,
    RecordAgrees handle (g.curlHeaderRecord handle) g.events
  execs : EveryExec (fun handle passed spanId parentSpanId older =>
    (HeadersExact build.headers context handle passed spanId parentSpanId
      older ↔ ¬ Repeated handle older)) g.events

namespace CurlInv

variable {build : Build} {context : TraceContext} {depth : Nat} {g : Globals}

theorem hear (h : CurlInv build context depth g) {event : CurlEvent}
    (hexec : ∀ handle, event.executes handle = false) :
    CurlInv build context depth (g.hear event) where
  active := h.active
  pch := h.pch
  depth := h.depth
  outside := h.outside
  record handle := (h.record handle).cons (hexec handle)
  execs := h.execs.cons_of_not_exec hexec

theorem congr (h : CurlInv build context depth g) {depth' : Nat} {g' : Globals}
    (hactive : g'.Active) (hpch : g'.chain.pch = g.chain.pch)
    (hdepth : depth' < g'.ids.length)
    (hinternel : g'.curlHeaderInternelCall = g.curlHeaderInternelCall)
    (hrecord : g'.curlHeaderRecord = g.curlHeaderRecord)
    (hevents : g'.events = g.events) : CurlInv build context depth' g' where
  active := hactive
  pch := hpch ▸ h.pch
  depth := hdepth
  outside := hinternel.trans h.outside
  record := by
    rw [hrecord, hevents]
    exact h.record
  execs := by
    rw [hevents]
    exact h.execs

theorem push (h : CurlInv build context depth g) :
    CurlInv build context (depth + 1) (frameBuild build g) := by
  refine h.congr h.active rfl ?_ rfl rfl rfl
  rw [ids_frameBuild, List.length_cons]
  exact Nat.succ_lt_succ h.depth

theorem pop (h : CurlInv build context (depth + 1) g) :
    CurlInv build context depth (frameDestroy g) := by
  refine h.congr h.active rfl ?_ rfl rfl rfl
  have hdepth := h.depth
  rw [ids_frameDestroy, List.length_tail]
  omega

theorem leak (h : CurlInv build context (depth + 1) g) :
    CurlInv build context depth g :=
  h.congr h.active rfl (Nat.lt_of_succ_lt h.depth) rfl rfl rfl

theorem addSpan (h : CurlInv build context depth g) (span : Span) :
    CurlInv build context depth (moChainAddSpan span g) := by
  obtain ⟨spans, hspans⟩ := moChainAddSpan_eq span g
  rw [hspans]
  exact h.congr h.active rfl h.depth rfl rfl rfl

theorem passedHeader_eq (h : CurlInv build context depth g)
    {own parent : String} {below : List String}
    (hids : g.ids = own :: parent :: below) (handle : Nat) :
    passedHeader build handle g =
      CurlHeader.append (traceLines build.headers context own parent)
        ((g.curlHeaderRecord handle).getD (.list [])) := by
  obtain ⟨ip, port, hpch⟩ := h.pch
  have hown := SpanState.retrieveSpanId_of_ids hids
  have hparent := SpanState.retrieveParentSpanId_of_ids hids
  unfold passedHeader
  rw [h.active.1, hpch, hown]
  cases (g.curlHeaderRecord handle).getD (.list []) with
  | scalar => rfl
  | list lines =>
      simp only [addHttpTraceHeader_sampled hparent, Option.getD_some,
        CurlHeader.append]

end CurlInv

theorem setTraceHeader_eq (build : Build) (handle : Nat) (g : Globals) :
    setTraceHeader build handle g =
      { g with
        curlHeaderRecord := Function.update g.curlHeaderRecord handle
          ((g.curlHeaderRecord handle).map fun _ =>
            passedHeader build handle g)
        curlHeaderInternelCall := false
        events := .exec handle (passedHeader build handle g)
          g.chain.span.retrieveSpanId g.chain.span.retrieveParentSpanId ::
            g.events } := by
  cases hrecord : g.curlHeaderRecord handle with
  | none =>
      have hsame : Function.update g.curlHeaderRecord handle none =
          g.curlHeaderRecord := by
        rw [← hrecord, Function.update_eq_self]
      simp only [setTraceHeader, hrecord, moltenCurlSetopt, if_true,
        Globals.log, Option.map_none, hsame]
  | some value =>
      simp only [setTraceHeader, hrecord, moltenCurlSetopt, if_true,
        Globals.log, Option.map_some, recordHeader]

theorem CurlInv.setTraceHeader {build : Build} {context : TraceContext}
    {depth : Nat} {g : Globals} (h : CurlInv build context (depth + 1) g)
    (handle : Nat) :
    CurlInv build context (depth + 1) (setTraceHeader build handle g) := by
  obtain ⟨own, parent, below, hids⟩ : ∃ own parent below,
      g.ids = own :: parent :: below := by
    have hdepth := h.depth
    match hlist : g.ids with
    | own :: parent :: below => exact ⟨own, parent, below, rfl⟩
    | [_] => simp [hlist] at hdepth
    | [] => simp [hlist] at hdepth
  have hown := SpanState.retrieveSpanId_of_ids hids
  have hparent := SpanState.retrieveParentSpanId_of_ids hids
  have hpassed := h.passedHeader_eq hids handle
  rw [setTraceHeader_eq, hown, hparent]
  refine ⟨h.active, h.pch, h.depth, rfl,
    recordAgrees_update h.record (List.cons_ne_nil _ _) hpassed _ _,
    ?_, h.execs⟩
  rw [hpassed]
  exact (h.record _).headersExact_iff build.headers context own parent

theorem keptBySteps_curlInv (build : Build) (context : TraceContext) :
    KeptBySteps build (CurlInv build context) where
  active hg := hg.active
  push hg := hg.push
  pop hg := hg.pop
  leak hg := hg.leak
  addSpan span hg := hg.addSpan span
  setTraceHeader handle hg := hg.setTraceHeader handle
  setopt {_ g} args hg := by
    cases args with
    | none =>
        have hsame : userSetopt none g = g := by
          simp [userSetopt, moltenCurlSetopt, hg.outside]
        rwa [hsame]
    | some args =>
        rw [userSetopt_eq args hg.outside]
        exact hg.hear fun _ => rfl
  setoptArray {_ g} args hg := by
    cases args with
    | none => exact hg
    | some args =>
        rw [userSetoptArray_eq]
        exact hg.hear fun _ => rfl
  reset {_ g} handle hg := by
    cases handle with
    | none => exact hg
    | some handle =>
        rw [userReset_eq]
        exact hg.hear fun _ => rfl
  multiAdd _ _ hg := hg.congr hg.active rfl hg.depth rfl rfl rfl
  elapse _ hg := hg.congr hg.active rfl hg.depth rfl rfl rfl

/-! Whole requests. -/

/-- In a sampled request every `curl_exec` sends the user's list and the trace
headers of its own exactly when no list is used a second time. -/
theorem headers_exact_iff {build : Build} {input : RequestInput}
    {module : Ctrl.CtrlModule} {record record' : Ctrl.SamplingRecord}
    {prior start : Globals}
    (hstart : phpRinit build input module record prior =
      some (start, record'))
    (hsampled : start.chain.isSampled = true) (phases : List CallSeq) :
    EveryExec
        (HeadersExact build.headers
          (TraceContext.ofInput build.headers input))
        (runPhases build phases start).events ↔
      EveryExec (fun handle _ _ _ older => ¬ Repeated handle older)
        (runPhases build phases start).events := by
  obtain ⟨hactive, -, hrecord, hinternel, hevents, -, hpch, mainId, hids⟩ :=
    phpRinit_sampled hstart hsampled
  have hinv : CurlInv build (TraceContext.ofInput build.headers input) 0
      start := by
    refine ⟨hactive, hpch, by rw [hids]; exact Nat.succ_pos _, hinternel,
      fun handle => ?_, by rw [hevents]; trivial⟩
    rw [hrecord, hevents]
    exact recordAgrees_nil handle
  exact EveryExec.iff
    (runPhases_kept (keptBySteps_curlInv build _) phases 0 hinv).execs

def listThenExecs : Nat → CallSeq
  | 0 => .next (.curlSetopt (some ⟨7, curlHttpHeader, .list ["A: 1"]⟩)) .done
  | count + 1 =>
      .next (.plain (listThenExecs count)) (.next (.curlExec 7 .done) .done)

theorem headers_exact_once :
    EveryExec
      (HeadersExact .molten (TraceContext.ofInput .molten scriptInput))
      (runPhases ⟨.molten, .level⟩ [listThenExecs 1]
        (scriptStart .level)).events :=
  (headers_exact_iff (phpRinit_script .level) rfl [listThenExecs 1]).mpr
    ⟨fun h => absurd h.1 (by decide), trivial⟩

def callLines (own : String) : List String :=
  traceLines .molten (TraceContext.ofInput .molten scriptInput) own "1"

/-- The second `curl_exec` sends the trace headers of the first one too. -/
theorem not_headers_exact_twice :
    phpRinit ⟨.molten, .level⟩ scriptInput ⟨1, 1, 1, 0⟩ ⟨0, 0⟩ freshGlobals =
        some (scriptStart .level, ⟨0, 0⟩) ∧
      (runPhases ⟨.molten, .level⟩ [listThenExecs 2]
        (scriptStart .level)).events =
          [.exec 7 (.list (["A: 1"] ++ callLines "1.1" ++ callLines "1.2"))
              (some "1.2") (some "1"),
            .exec 7 (.list (["A: 1"] ++ callLines "1.1")) (some "1.1")
              (some "1"),
            .setopt ⟨7, curlHttpHeader, .list ["A: 1"]⟩] ∧
      ¬ EveryExec
        (HeadersExact .molten (TraceContext.ofInput .molten scriptInput))
        (runPhases ⟨.molten, .level⟩ [listThenExecs 2]
          (scriptStart .level)).events := by
  have hevents : (runPhases ⟨.molten, .level⟩ [listThenExecs 2]
      (scriptStart .level)).events =
        [.exec 7 (.list (["A: 1"] ++ callLines "1.1" ++ callLines "1.2"))
            (some "1.2") (some "1"),
          .exec 7 (.list (["A: 1"] ++ callLines "1.1")) (some "1.1")
            (some "1"),
          .setopt ⟨7, curlHttpHeader, .list ["A: 1"]⟩] := by decide
  refine ⟨phpRinit_script .level, hevents, ?_⟩
  rw [hevents]
  rintro ⟨⟨own, parent, hown, hparent, hpassed⟩, -⟩
  obtain rfl : "1.2" = own := Option.some.inj hown
  obtain rfl : "1" = parent := Option.some.inj hparent
  have hlist : ["A: 1"] ++ callLines "1.1" ++ callLines "1.2" =
      ["A: 1"] ++ callLines "1.2" := CurlHeader.list.inj hpassed
  simp [callLines, traceLines] at hlist

end Molten.Request
