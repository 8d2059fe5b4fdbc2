import Molten.Control.Machine
import Molten.Process.Script

namespace Molten.Process

open Molten.Control
open Molten.Log
open Molten.Report
open Molten.Span
open Molten.Ctrl
open Molten.Request

/-! An unsampled request finds the trace state of the one before it and leaves
it as it was. -/

/-- Untouched since the trace state was `found` and the sink held `written`. -/
structure Untouched (found : TraceState) (written : List SinkWrite)
    (worker : Worker) : Prop where
  unsampled : worker.globals.chain.isSampled = false
  trace : worker.trace = found
  seen : ∀ state ∈ worker.seen, state = found
  sink : OnlyReports written worker.sink

namespace Untouched

variable {found : TraceState} {written : List SinkWrite} {worker : Worker}

theorem observe (h : Untouched found written worker) :
    Untouched found written worker.observe where
  unsampled := h.unsampled
  trace := h.trace
  seen state hstate := by
    rcases List.mem_append.mp hstate with hstate | hstate
    · exact h.seen state hstate
    · rw [List.mem_singleton.mp hstate]
      exact h.trace
  sink := h.sink

theorem inactive (h : Untouched found written worker) :
    ¬ worker.globals.Active := fun hactive =>
  absurd hactive.1 (by simp [h.unsampled])

end Untouched

/-- Outside a sampled request, neither the chain nor the spans change. -/
def Idle (change : Globals → Globals) : Prop :=
  ∀ g, g.chain.isSampled = false →
    (change g).chain = g.chain ∧ (change g).spans = g.spans

namespace Idle

theorem ofOnlyCurl {change : Globals → Globals}
    (h : ∀ g, OnlyCurl (change g) g) : Idle change := by
  intro g _
  obtain ⟨record, internel, events, hchange⟩ := h g
  rw [hchange]
  exact ⟨rfl, rfl⟩

theorem curlPush (build : Build) : Idle (curlPush build) := by
  intro g hunsampled
  rw [Request.curlPush, if_neg (by simp [hunsampled])]
  exact ⟨rfl, rfl⟩

theorem curlRecord (entryTime : Nat) (spanId : Option String) :
    Idle (curlRecord entryTime spanId) := by
  intro g hunsampled
  rw [Request.curlRecord, if_neg (by simp [hunsampled])]
  exact ⟨rfl, rfl⟩

theorem phpRshutdown : Idle fun g => (Request.phpRshutdown g).1 := by
  intro g hunsampled
  have hdtor : moChainDtor { g with inRequest := false } =
      { g with inRequest := false } :=
    if_neg (by simp [hunsampled])
  simp only [Request.phpRshutdown, hdtor, hunsampled, Bool.false_eq_true,
    if_false, and_self]

end Idle

section Steps

variable {found : TraceState} {written : List SinkWrite}

theorem untouched_step {change : Globals → Globals} (hidle : Idle change)
    {worker : Worker} (h : Untouched found written worker) :
    Untouched found written (worker.step change) := by
  obtain ⟨hchain, hspans⟩ := hidle worker.globals h.unsampled
  have hchanged : Untouched found written
      { worker with globals := change worker.globals } :=
    { unsampled := (congrArg (·.isSampled) hchain).trans h.unsampled
      trace := by
        rw [← h.trace]
        simp only [Worker.trace, hchain, hspans]
      seen := h.seen
      sink := h.sink }
  exact hchanged.observe

theorem untouched_onGlobals {change : Globals → Globals}
    (hidle : Idle change) :
    Invariant (Untouched found written) (onGlobals change) :=
  .act fun _ h => untouched_step hidle h

theorem untouched_moltenErrorCb (config : Config) (args : ErrorArgs)
    {worker : Worker} (h : Untouched found written worker) :
    Untouched found written (moltenErrorCb config args worker) := by
  refine Untouched.observe ?_
  rw [if_neg h.inactive]
  split
  · exact ⟨h.unsampled, h.trace, h.seen, h.sink⟩
  · exact h

theorem untouched_moExecuteCore {build : Build}
    {record : Frame → Run Worker} {body : Run Worker}
    (hbody : Invariant (Untouched found written) body) :
    Invariant (Untouched found written) (moExecuteCore build record body) := by
  intro worker h
  rw [moExecuteCore, Run.reading_apply, if_neg h.inactive]
  exact hbody worker h

theorem untouched_moltenCurlExec {build : Build} {handle : Nat}
    {body : Run Worker} (hbody : Invariant (Untouched found written) body) :
    Invariant (Untouched found written) (moltenCurlExec build handle body) :=
  .reading fun _ => (untouched_onGlobals (.curlPush build)).andThen <|
    .reading fun _ =>
      (untouched_onGlobals (.ofOnlyCurl (onlyCurl_setTraceHeader build
        handle))).andThen <|
        hbody.andThen (untouched_onGlobals (.curlRecord _ _))

end Steps

mutual
theorem Act.untouched (config : Config) {found : TraceState}
    {written : List SinkWrite} :
    ∀ act : Act, Invariant (Untouched found written) (act.run config)
  | .plain body => body.untouched config
  | .intercepted _ body => untouched_moExecuteCore (body.untouched config)
  | .curlExec _ body => untouched_moltenCurlExec (body.untouched config)
  | .curlExecRejected body =>
      (untouched_onGlobals (.curlPush _)).andThen (body.untouched config)
  | .curlSetopt args =>
      untouched_onGlobals (.ofOnlyCurl (onlyCurl_userSetopt args))
  | .curlSetoptArray args =>
      untouched_onGlobals (.ofOnlyCurl (onlyCurl_userSetoptArray args))
  | .curlReset handle =>
      untouched_onGlobals (.ofOnlyCurl (onlyCurl_userReset handle))
  | .elapse _ => untouched_onGlobals fun _ _ => ⟨rfl, rfl⟩
  | .error args => .act fun _ h => untouched_moltenErrorCb config args h

theorem ActSeq.untouched (config : Config) {found : TraceState}
    {written : List SinkWrite} :
    ∀ acts : ActSeq, Invariant (Untouched found written) (acts.run config)
  | .done => .skip
  | .bailout => .bailout
  | .next act rest => (act.untouched config).andThen (rest.untouched config)
end

theorem untouched_runPhases (config : Config) {found : TraceState}
    {written : List SinkWrite} (phases : List ActSeq) {worker : Worker}
    (h : Untouched found written worker) :
    Untouched found written (runPhases config phases worker) := by
  induction phases generalizing worker with
  | nil => exact h
  | cons phase phases ih => exact ih (phase.untouched config worker h)

/-! The two ends of the request. -/

theorem phpRinit_unsampled {build : Build} {input : Chain.RequestInput}
    {module : CtrlModule} {record record' : SamplingRecord}
    (h : moCtrlSampling build.headers input module record =
      some (false, record')) (prior : Globals) :
    ∃ g, Request.phpRinit build input module record prior =
        some (g, record') ∧
      g.chain = { prior.chain with isSampled := false } ∧
      g.spans = prior.spans := by
  simp only [Request.phpRinit, Chain.startChain, h, Option.map_some,
    Chain.moChainCtor, Bool.false_eq_true, if_false]
  exact ⟨_, rfl, rfl, rfl⟩

theorem untouched_phpRinit {config : Config} {arrival : Arrival}
    (h : arrival.decision config = some false) (prior : Worker) :
    ∃ worker, phpRinit config arrival prior = some worker ∧
      Untouched prior.trace prior.sink worker := by
  obtain ⟨⟨_, record'⟩, hsampling, rfl⟩ := Option.map_eq_some_iff.mp h
  obtain ⟨g, hrinit, hchain, hspans⟩ :=
    phpRinit_unsampled hsampling prior.globals
  have hunsampled : g.chain.isSampled = false := by rw [hchain]
  refine ⟨Worker.observe { prior.arrive arrival with globals := g }, ?_, ?_⟩
  · rw [phpRinit]
    change ((Request.phpRinit _ _ _ _ prior.globals).map _) = _
    rw [hrinit, Option.map_some]
    simp [hunsampled]
  · refine Untouched.observe ⟨hunsampled, ?_, by simp [Worker.arrive],
      .refl _⟩
    simp only [Worker.trace, Worker.arrive, hchain, hspans]

theorem untouched_phpRshutdown (config : Config)
    (encoder : Encoder Request.Span) {found : TraceState}
    {written : List SinkWrite} {worker : Worker}
    (h : Untouched found written worker) :
    Untouched found written (phpRshutdown config encoder worker) := by
  have hend : Untouched found written (endTrace config encoder worker) := by
    rw [endTrace, if_neg (by simp [h.unsampled])]
    exact untouched_step .phpRshutdown h
  have hreport : Untouched found written
      (endReport config (endTrace config encoder worker)) := by
    refine Untouched.observe ?_
    split
    · exact ⟨hend.unsampled, hend.trace, hend.seen,
        hend.sink.trans (onlyReports_moRepRecordData _ _ _ _ _)⟩
    · exact hend
  exact ⟨hreport.unsampled, hreport.trace, hreport.seen, hreport.sink⟩

/-! Whole requests. -/

/-- After each step of the request the trace state is the one it found, and it
writes nothing but reports. -/
structure LeavesNoTrace (before after : Worker) : Prop where
  during : ∀ state ∈ after.seen, state = before.trace
  trace : after.trace = before.trace
  sink : OnlyReports before.sink after.sink

def UnsampledUntouched (config : Config) (worker : Option Worker)
    (request : ServedRequest) : Prop :=
  ∀ before, worker = some before →
    request.arrival.decision config = some false →
      ∃ after, serve config before request = some after ∧
        LeavesNoTrace before after

theorem serve_untouched (config : Config) (worker : Option Worker)
    (request : ServedRequest) : UnsampledUntouched config worker request := by
  intro before _ hunsampled
  obtain ⟨start, hrinit, hstart⟩ := untouched_phpRinit hunsampled before
  have hafter := untouched_phpRshutdown config request.encoder
    (untouched_runPhases config request.phases hstart)
  refine ⟨_, ?_, hafter.seen, hafter.trace, hafter.sink⟩
  rw [serve, hrinit, Option.map_some]

theorem serve_all_unsampled (config : Config) {requests : List ServedRequest}
    (h : ∀ request ∈ requests,
      request.arrival.decision config = some false) (worker : Worker) :
    ∃ after, requests.foldl (serveNext config) (some worker) = some after ∧
      after.trace = worker.trace ∧ OnlyReports worker.sink after.sink := by
  induction requests generalizing worker with
  | nil => exact ⟨worker, rfl, rfl, .refl _⟩
  | cons request requests ih =>
      rw [List.forall_mem_cons] at h
      obtain ⟨served, hserve, hserved⟩ :=
        serve_untouched config (some worker) request worker rfl h.1
      obtain ⟨after, hrun, htrace, hsink⟩ := ih h.2 served
      have hnext : serveNext config (some worker) request = some served :=
        hserve
      refine ⟨after, ?_, htrace.trans hserved.trace,
        hserved.sink.trans hsink⟩
      rw [List.foldl_cons, hnext, hrun]

/-- Whatever requests a worker serves, the unsampled ones leave no trace. -/
theorem unsampled_untouched (config : Config) (worker : Worker)
    (requests : List ServedRequest) :
    Along (serveNext config) (UnsampledUntouched config) (some worker)
      requests :=
  along_of_forall (serve_untouched config) requests

example (config : Config) (module : CtrlModule) (record : SamplingRecord) :
    Arrival.decision config ⟨⟨false, fun _ => some (.string "0"),
      "127.0.0.1", 0, 0, "00000000000000a1"⟩, module, record, 0⟩ =
        some false := rfl

end Molten.Process
