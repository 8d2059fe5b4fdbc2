import Molten.Control.Simulation
import Molten.Process.Worker

namespace Molten.Process

open Molten.Control
open Molten.Report
open Molten.Span
open Molten.Request

/-! What a script executes on a worker: calls as before, and errors. -/

mutual
inductive Act
  | plain (body : ActSeq)
  | intercepted (record : ActRecord) (body : ActSeq)
  | curlExec (handle : Nat) (body : ActSeq)
  | curlExecRejected (body : ActSeq)
  | curlSetopt (args : Option SetoptArgs)
  | curlSetoptArray (args : Option SetoptArrayArgs)
  | curlReset (handle : Option Nat)
  | elapse (millis : Nat)
  /-- the error callback; a fatal error is followed by an unwinding -/
  | error (args : ErrorArgs)

inductive ActRecord
  | silent (acts : ActSeq)
  | span (before after : ActSeq)
  | multiAdd (handle : Nat)
  | multiRemove (handle : Nat)

inductive ActSeq
  | done
  | bailout
  | next (act : Act) (rest : ActSeq)
end

/-! The entry points, step by step over the worker. -/

def onGlobals (change : Globals → Globals) : Run Worker :=
  .act (Worker.step change)

def moltenCurlExec (build : Build) (handle : Nat) (body : Run Worker) :
    Run Worker :=
  .reading fun start =>
    (onGlobals (curlPush build)).andThen <| .reading fun pushed =>
      (onGlobals (setTraceHeader build handle)).andThen <|
        body.andThen <|
          onGlobals (curlRecord start.globals.clock
            pushed.globals.chain.span.retrieveSpanId)

def moltenCurlExecRejected (build : Build) (body : Run Worker) :
    Run Worker :=
  (onGlobals (curlPush build)).andThen body

def moExecuteCore (build : Build) (record : Frame → Run Worker)
    (body : Run Worker) : Run Worker :=
  .reading fun start =>
    if start.globals.Active then
      (onGlobals (frameBuild build)).andThen <|
        body.ensuring <| .reading fun left =>
          (record ⟨start.globals.clock, left.globals.clock⟩).andThen
            (onGlobals frameDestroy)
    else body

def recordSpan (before after : Run Worker) (frame : Frame) : Run Worker :=
  before.andThen <| .reading fun worker =>
    after.andThen <| onGlobals (moChainAddSpan (startSpan .client
      frame.entryTime frame.exitTime worker.globals))

mutual
def Act.run (config : Config) : Act → Run Worker
  | .plain body => body.run config
  | .intercepted record body =>
      moExecuteCore config.build (record.run config) (body.run config)
  | .curlExec handle body =>
      moltenCurlExec config.build handle (body.run config)
  | .curlExecRejected body =>
      moltenCurlExecRejected config.build (body.run config)
  | .curlSetopt args => onGlobals (userSetopt args)
  | .curlSetoptArray args => onGlobals (userSetoptArray args)
  | .curlReset handle => onGlobals (userReset handle)
  | .elapse millis => onGlobals (Request.elapse millis)
  | .error args => .act (moltenErrorCb config args)

def ActRecord.run (config : Config) : ActRecord → Frame → Run Worker
  | .silent acts, _ => acts.run config
  | .span before after, frame =>
      recordSpan (before.run config) (after.run config) frame
  | .multiAdd handle, frame =>
      onGlobals (curlMultiAddHandleRecord handle frame)
  | .multiRemove handle, frame =>
      onGlobals (curlMultiRemoveHandleRecord handle frame)

def ActSeq.run (config : Config) : ActSeq → Run Worker
  | .done => .skip
  | .bailout => .bailout
  | .next act rest => (act.run config).andThen (rest.run config)
end

def runPhases (config : Config) (phases : List ActSeq) (worker : Worker) :
    Worker :=
  phases.foldl (fun worker phase => (phase.run config worker).1) worker

/-! Whole requests. -/

structure ServedRequest where
  arrival : Arrival
  phases : List ActSeq
  encoder : Log.Encoder Request.Span

/-- `none` when the worker dies in RINIT. -/
def serve (config : Config) (worker : Worker) (request : ServedRequest) :
    Option Worker :=
  (phpRinit config request.arrival worker).map fun worker =>
    phpRshutdown config request.encoder
      (runPhases config request.phases worker)

/-- A dead worker serves nothing. -/
def serveNext (config : Config) (worker : Option Worker)
    (request : ServedRequest) : Option Worker :=
  worker.bind fun worker => serve config worker request

/-! Without the errors this is the request as the spans see it. -/

mutual
def Act.call : Act → Call
  | .plain body => .plain body.calls
  | .intercepted record body => .intercepted record.callback body.calls
  | .curlExec handle body => .curlExec handle body.calls
  | .curlExecRejected body => .curlExecRejected body.calls
  | .curlSetopt args => .curlSetopt args
  | .curlSetoptArray args => .curlSetoptArray args
  | .curlReset handle => .curlReset handle
  | .elapse millis => .elapse millis
  | .error _ => .plain .done

def ActRecord.callback : ActRecord → Record
  | .silent acts => .silent acts.calls
  | .span before after => .span before.calls after.calls
  | .multiAdd handle => .multiAdd handle
  | .multiRemove handle => .multiRemove handle

def ActSeq.calls : ActSeq → CallSeq
  | .done => .done
  | .bailout => .bailout
  | .next act rest => .next act.call rest.calls
end

def Shows (worker : Worker) (g : Globals) : Prop := worker.globals = g

theorem onGlobals_lockstep (change : Globals → Globals) :
    Lockstep Shows (onGlobals change) (.act change) :=
  .act fun _ _ hshows => congrArg change hshows

theorem globals_moltenErrorCb (config : Config) (args : ErrorArgs)
    (worker : Worker) :
    (moltenErrorCb config args worker).globals = worker.globals := by
  unfold moltenErrorCb Worker.observe
  split <;> rfl

theorem moExecuteCore_lockstep {build : Build} {record : Frame → Run Worker}
    {record' : Frame → Run Globals} {body : Run Worker} {body' : Run Globals}
    (hrecord : ∀ frame, Lockstep Shows (record frame) (record' frame))
    (hbody : Lockstep Shows body body') :
    Lockstep Shows (moExecuteCore build record body)
      (Request.moExecuteCore build record' body') := by
  refine Simulation.reading fun start start' hstart => ?_
  obtain rfl : start.globals = start' := hstart
  split
  · refine Simulation.andThen Shows ?_ <|
      Simulation.ensuring hbody fun _ =>
        Simulation.reading fun left left' hleft => ?_
    · exact (onGlobals_lockstep _).weaken (fun _ _ h => h.2.2)
        fun exit _ _ h => by cases exit <;> exact h
    · obtain rfl : left.globals = left' := hleft
      exact Simulation.weaken
        ((hrecord _).andThen (onGlobals_lockstep frameDestroy))
        (fun _ _ h => h.2.2) fun _ _ _ h => h
  · exact hbody.weaken (fun _ _ h => h.2.2) fun _ _ _ h => h

theorem moltenCurlExec_lockstep {build : Build} {handle : Nat}
    {body : Run Worker} {body' : Run Globals}
    (hbody : Lockstep Shows body body') :
    Lockstep Shows (moltenCurlExec build handle body)
      (Request.moltenCurlExec build handle body') := by
  refine Simulation.reading fun start start' hstart => ?_
  obtain rfl : start.globals = start' := hstart
  refine Simulation.weaken ((onGlobals_lockstep (curlPush build)).andThen <|
    Simulation.reading fun pushed pushed' hpushed => ?_)
    (fun _ _ h => h.2.2) fun _ _ _ h => h
  obtain rfl : pushed.globals = pushed' := hpushed
  exact Simulation.weaken ((onGlobals_lockstep _).andThen
    (hbody.andThen (onGlobals_lockstep _))) (fun _ _ h => h.2.2)
    fun _ _ _ h => h

theorem recordSpan_lockstep {before after : Run Worker}
    {before' after' : Run Globals} (hbefore : Lockstep Shows before before')
    (hafter : Lockstep Shows after after') (frame : Frame) :
    Lockstep Shows (recordSpan before after frame)
      (Request.recordSpan before' after' frame) := by
  refine hbefore.andThen <| Simulation.reading fun start start' hstart => ?_
  obtain rfl : start.globals = start' := hstart
  exact Simulation.weaken (hafter.andThen (onGlobals_lockstep _))
    (fun _ _ h => h.2.2) fun _ _ _ h => h

mutual
theorem Act.lockstep (config : Config) : ∀ act : Act,
    Lockstep Shows (act.run config) (act.call.run config.build)
  | .plain body => body.lockstep config
  | .intercepted record body =>
      moExecuteCore_lockstep (record.lockstep config) (body.lockstep config)
  | .curlExec _ body => moltenCurlExec_lockstep (body.lockstep config)
  | .curlExecRejected body =>
      (onGlobals_lockstep _).andThen (body.lockstep config)
  | .curlSetopt args => onGlobals_lockstep (userSetopt args)
  | .curlSetoptArray args => onGlobals_lockstep (userSetoptArray args)
  | .curlReset handle => onGlobals_lockstep (userReset handle)
  | .elapse millis => onGlobals_lockstep (Request.elapse millis)
  | .error args => .act fun worker _ hshows =>
      (globals_moltenErrorCb config args worker).trans hshows

theorem ActRecord.lockstep (config : Config) :
    ∀ (record : ActRecord) (frame : Frame), Lockstep Shows
      (record.run config frame) (record.callback.run config.build frame)
  | .silent acts, _ => acts.lockstep config
  | .span before after, frame =>
      recordSpan_lockstep (before.lockstep config) (after.lockstep config)
        frame
  | .multiAdd _, _ => onGlobals_lockstep _
  | .multiRemove _, _ => onGlobals_lockstep _

theorem ActSeq.lockstep (config : Config) : ∀ acts : ActSeq,
    Lockstep Shows (acts.run config) (acts.calls.run config.build)
  | .done => .skip
  | .bailout => .bailout
  | .next act rest => (act.lockstep config).andThen (rest.lockstep config)
end

theorem globals_runPhases (config : Config) (phases : List ActSeq)
    (worker : Worker) :
    (runPhases config phases worker).globals =
      Request.runPhases config.build (phases.map ActSeq.calls)
        worker.globals := by
  induction phases generalizing worker with
  | nil => rfl
  | cons phase phases ih =>
      have hphase : (phase.run config worker).1.globals =
          (phase.calls.run config.build worker.globals).1 :=
        (phase.lockstep config worker worker.globals rfl).2
      have hrun : runPhases config (phase :: phases) worker =
          runPhases config phases (phase.run config worker).1 := rfl
      rw [hrun, ih, hphase]
      rfl

theorem globals_phpRinit {config : Config} {arrival : Arrival}
    {prior worker : Worker}
    (h : phpRinit config arrival prior = some worker) :
    ∃ record', Request.phpRinit config.build arrival.input arrival.module
      arrival.record prior.globals = some (worker.globals, record') := by
  obtain ⟨⟨g, record'⟩, hrinit, rfl⟩ := Option.map_eq_some_iff.mp h
  refine ⟨record', hrinit.trans ?_⟩
  dsimp only
  split <;> rfl

theorem globals_phpRshutdown (config : Config)
    (encoder : Log.Encoder Request.Span) (worker : Worker) :
    (phpRshutdown config encoder worker).globals =
      (Request.phpRshutdown worker.globals).1 := by
  have hreport : ∀ worker, (endReport config worker).globals =
      worker.globals := by
    intro worker
    unfold endReport Worker.observe
    split <;> rfl
  have htrace : (endTrace config encoder worker).globals =
      (Request.phpRshutdown worker.globals).1 := by
    unfold endTrace
    split <;> rfl
  exact (hreport _).trans htrace

/-- A worker that serves a request goes through the request as the spans see
it. -/
theorem globals_serve {config : Config} {worker after : Worker}
    {request : ServedRequest} (h : serve config worker request = some after) :
    ∃ start record', Request.phpRinit config.build request.arrival.input
        request.arrival.module request.arrival.record worker.globals =
          some (start, record') ∧
      after.globals = (Request.phpRshutdown (Request.runPhases config.build
        (request.phases.map ActSeq.calls) start)).1 := by
  obtain ⟨start, hrinit, rfl⟩ := Option.map_eq_some_iff.mp h
  obtain ⟨record', hstart⟩ := globals_phpRinit hrinit
  refine ⟨start.globals, record', hstart, ?_⟩
  rw [globals_phpRshutdown, globals_runPhases]

end Molten.Process
