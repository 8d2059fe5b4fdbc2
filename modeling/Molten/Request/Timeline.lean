import Molten.Control.Simulation
import Molten.Request.Call

namespace Molten.Request

open Molten.Control
open Molten.Span
open Molten.Chain

/-! The calls of a request with a log of who recorded which span.  Calls are
numbered in the order they are entered, the main script is 0. -/

/-- A context on the stack, and the call that pushed it. -/
structure Opened where
  call : Nat
  id : String
  deriving DecidableEq, Repr

structure Entry where
  call : Nat
  /-- the contexts whose ids the span shows -/
  shows : Option Opened
  parent : Option Opened
  /-- the `curl_multi_add_handle` that a `curl_multi` span starts at -/
  added : Option Nat
  /-- made while the calling function ran, not by its record callback -/
  inBody : Bool
  span : Span
  deriving DecidableEq, Repr

/-- The call at whose entry the span starts. -/
def Entry.since (entry : Entry) : Nat := entry.added.getD entry.call

structure Timeline where
  globals : Globals
  /-- when each call was entered -/
  began : List Nat
  contexts : List Opened
  /-- the call that last added a handle -/
  added : Nat → Option Nat
  entries : List Entry

namespace Timeline

def start (g : Globals) : Timeline where
  globals := g
  began := [g.clock]
  contexts := (g.ids.take 1).map (Opened.mk 0)
  added := fun _ => none
  entries := []

def opened (t : Timeline) : Nat := t.began.length

def change (f : Globals → Globals) (t : Timeline) : Timeline :=
  { t with globals := f t.globals }

def enter (build : Build) (t : Timeline) : Timeline where
  globals := frameBuild build t.globals
  began := t.began ++ [t.globals.clock]
  contexts := ⟨t.opened, t.globals.chain.span.nextSpanId build.ids⟩ ::
    t.contexts
  added := t.added
  entries := t.entries

def leave (t : Timeline) : Timeline :=
  { t with
    globals := frameDestroy t.globals
    contexts := t.contexts.tail }

def entry (t : Timeline) (call : Nat) (added : Option Nat) (inBody : Bool)
    (span : Span) : Entry :=
  ⟨call, t.contexts.head?, t.contexts.tail.head?, added, inBody, span⟩

def record (entry : Entry) (t : Timeline) : Timeline :=
  { t with
    globals := moChainAddSpan entry.span t.globals
    entries := t.entries ++ [entry] }

/-- The end of the `curl_exec` that was entered at `start`. -/
def curlRecord (inBody : Bool) (start pushed t : Timeline) : Timeline :=
  let span := { startSpan .client start.globals.clock t.globals.clock t.globals
    with id := pushed.globals.chain.span.retrieveSpanId }
  let entry := { t.entry start.opened none inBody span with
    shows := pushed.contexts.head? }
  (t.record entry).leave

def addHandle (call handle : Nat) (frame : Frame) (t : Timeline) : Timeline :=
  { t with
    globals := curlMultiAddHandleRecord handle frame t.globals
    added := Function.update t.added handle (some call) }

def removeHandle (call : Nat) (inBody : Bool) (handle : Nat) (frame : Frame)
    (t : Timeline) : Timeline :=
  match t.globals.spanInfoCache handle with
  | some startTime =>
      t.record (t.entry call (t.added handle) inBody
        (startSpan .client startTime frame.exitTime t.globals))
  | none => t

def main (t : Timeline) : Entry := t.entry 0 none true (mainSpan t.globals)

end Timeline

mutual
def Call.timeline (build : Build) (inBody : Bool) : Call → Run Timeline
  | .plain body => body.timeline build inBody
  | .intercepted record body =>
      .reading fun start =>
        (Run.act (Timeline.enter build)).andThen <|
          (body.timeline build true).ensuring <| .reading fun left =>
            (record.timeline build start.opened inBody
              ⟨start.globals.clock, left.globals.clock⟩).andThen
                (.act Timeline.leave)
  | .curlExec handle body =>
      .reading fun start =>
        (Run.act (Timeline.enter build)).andThen <| .reading fun pushed =>
          (Run.act (Timeline.change (setTraceHeader build handle))).andThen <|
            (body.timeline build true).andThen <|
              .act (Timeline.curlRecord inBody start pushed)
  | .curlExecRejected body =>
      (Run.act (Timeline.enter build)).andThen (body.timeline build true)
  | .curlSetopt args => .act (Timeline.change (userSetopt args))
  | .curlSetoptArray args => .act (Timeline.change (userSetoptArray args))
  | .curlReset handle => .act (Timeline.change (userReset handle))
  | .elapse millis => .act (Timeline.change (Molten.Request.elapse millis))

def Record.timeline (build : Build) (call : Nat) (inBody : Bool) :
    Record → Frame → Run Timeline
  | .silent calls, _ => calls.timeline build false
  | .span before after, frame =>
      (before.timeline build false).andThen <| .reading fun t =>
        (after.timeline build false).andThen <|
          .act (Timeline.record (t.entry call none inBody
            (startSpan .client frame.entryTime frame.exitTime t.globals)))
  | .multiAdd handle, frame => .act (Timeline.addHandle call handle frame)
  | .multiRemove handle, frame =>
      .act (Timeline.removeHandle call inBody handle frame)

def CallSeq.timeline (build : Build) (inBody : Bool) :
    CallSeq → Run Timeline
  | .done => .skip
  | .bailout => .bailout
  | .next call rest =>
      (call.timeline build inBody).andThen (rest.timeline build inBody)
end

def phasesTimeline (build : Build) (phases : List CallSeq) (t : Timeline) :
    Timeline :=
  phases.foldl (fun t phase => (phase.timeline build true t).1) t

/-- The spans of a request as they are recorded, the main span last. -/
def requestEntries (build : Build) (phases : List CallSeq) (g : Globals) :
    List Entry :=
  let t := phasesTimeline build phases (.start g)
  t.entries ++ [t.main]

/-! The log changes nothing. -/

def Logs (g : Globals) (t : Timeline) : Prop :=
  t.globals = g ∧ g.Active

namespace Logs

variable {build : Build} {g : Globals} {t : Timeline}

theorem enter (h : Logs g t) : Logs (frameBuild build g) (t.enter build) :=
  ⟨congrArg (frameBuild build) h.1, h.2⟩

theorem leave (h : Logs g t) : Logs (frameDestroy g) t.leave :=
  ⟨congrArg frameDestroy h.1, h.2⟩

theorem record (h : Logs g t) (entry : Entry) :
    Logs (moChainAddSpan entry.span g) (t.record entry) :=
  ⟨congrArg (moChainAddSpan entry.span) h.1,
    (active_moChainAddSpan entry.span g).mpr h.2⟩

theorem change (h : Logs g t) {f : Globals → Globals}
    (hf : ∀ g, SameTrace (f g) g) : Logs (f g) (t.change f) :=
  ⟨congrArg f h.1, ((hf g).active h.2).1⟩

theorem curlPush (h : Logs g t) :
    Logs (curlPush build g) (t.enter build) := by
  rw [Request.curlPush, if_pos h.2.1]
  exact h.enter

theorem removeHandle (h : Logs g t) (call : Nat) (inBody : Bool)
    (handle : Nat) (frame : Frame) :
    Logs (curlMultiRemoveHandleRecord handle frame g)
      (t.removeHandle call inBody handle frame) := by
  obtain ⟨rfl, hg⟩ := h
  rw [curlMultiRemoveHandleRecord, Timeline.removeHandle]
  cases t.globals.spanInfoCache handle with
  | none => exact ⟨rfl, hg⟩
  | some startTime => exact Logs.record ⟨rfl, hg⟩ _

end Logs

section Frames

variable {build : Build} {inBody : Bool} {body : Run Globals}
    {body' : Run Timeline}

theorem logs_moExecuteCore {record : Frame → Run Globals}
    {record' : Nat → Frame → Run Timeline}
    (hbody : Lockstep Logs body body')
    (hrecord : ∀ call frame,
      Lockstep Logs (record frame) (record' call frame)) :
    Lockstep Logs (moExecuteCore build record body)
      (.reading fun start =>
        (Run.act (Timeline.enter build)).andThen <|
          body'.ensuring <| .reading fun left =>
            (record' start.opened
              ⟨start.globals.clock, left.globals.clock⟩).andThen
                (.act Timeline.leave)) := by
  refine Simulation.reading fun start start' hstart => ?_
  obtain ⟨rfl, hactive⟩ := hstart
  rw [if_pos hactive]
  refine Simulation.andThen Logs (Simulation.act fun _ _ h => h.2.2.enter) ?_
  refine Simulation.ensuring hbody fun _ =>
    Simulation.reading fun left left' hleft => ?_
  obtain ⟨rfl, -⟩ := hleft
  refine Simulation.weaken ?_ (fun _ _ h => h.2.2) fun _ _ _ h => h
  exact (hrecord _ _).andThen (.act fun _ _ h => h.leave)

theorem logs_moltenCurlExec {handle : Nat} (hbody : Lockstep Logs body body') :
    Lockstep Logs (moltenCurlExec build handle body)
      (.reading fun start =>
        (Run.act (Timeline.enter build)).andThen <| .reading fun pushed =>
          (Run.act (Timeline.change (setTraceHeader build handle))).andThen <|
            body'.andThen <|
              .act (Timeline.curlRecord inBody start pushed)) := by
  refine Simulation.reading fun start start' hstart => ?_
  obtain ⟨rfl, hactive⟩ := hstart
  refine Simulation.andThen Logs
    (Simulation.act fun _ _ h => h.2.2.curlPush) ?_
  refine Simulation.reading fun pushed pushed' hpushed => ?_
  obtain ⟨rfl, -⟩ := hpushed
  refine Simulation.weaken ?_ (fun _ _ h => h.2.2) fun _ _ _ h => h
  refine Lockstep.andThen (.act fun _ _ h => h.change fun g =>
    (onlyCurl_setTraceHeader build handle g).sameTrace) ?_
  refine hbody.andThen (.act fun g t h => ?_)
  obtain ⟨rfl, hg⟩ := h
  rw [curlRecord, if_pos hg.1]
  exact (Logs.record ⟨rfl, hg⟩ _).leave

theorem logs_recordSpan {call : Nat} {before after : Run Globals}
    {before' after' : Run Timeline} (hbefore : Lockstep Logs before before')
    (hafter : Lockstep Logs after after') (frame : Frame) :
    Lockstep Logs (recordSpan before after frame)
      (before'.andThen <| .reading fun t =>
        after'.andThen <| .act (Timeline.record (t.entry call none inBody
          (startSpan .client frame.entryTime frame.exitTime t.globals)))) := by
  refine hbefore.andThen (Simulation.reading fun start start' hstart => ?_)
  obtain ⟨rfl, -⟩ := hstart
  refine Simulation.weaken ?_ (fun _ _ h => h.2.2) fun _ _ _ h => h
  exact hafter.andThen (.act fun _ _ h => h.record _)

end Frames

mutual
theorem Call.logs (build : Build) : ∀ (call : Call) (inBody : Bool),
    Lockstep Logs (call.run build) (call.timeline build inBody)
  | .plain body, inBody => body.logs build inBody
  | .intercepted record body, inBody =>
      logs_moExecuteCore (body.logs build true) fun call frame =>
        record.logs build call inBody frame
  | .curlExec _ body, _ => logs_moltenCurlExec (body.logs build true)
  | .curlExecRejected body, _ =>
      Lockstep.andThen (.act fun _ _ h => h.curlPush) (body.logs build true)
  | .curlSetopt args, _ => .act fun _ _ h => h.change fun g =>
      (onlyCurl_userSetopt args g).sameTrace
  | .curlSetoptArray args, _ => .act fun _ _ h => h.change fun g =>
      (onlyCurl_userSetoptArray args g).sameTrace
  | .curlReset handle, _ => .act fun _ _ h => h.change fun g =>
      (onlyCurl_userReset handle g).sameTrace
  | .elapse _, _ => .act fun _ _ h => h.change fun _ => ⟨rfl, rfl⟩

theorem Record.logs (build : Build) :
    ∀ (record : Record) (call : Nat) (inBody : Bool) (frame : Frame),
      Lockstep Logs (record.run build frame)
        (record.timeline build call inBody frame)
  | .silent calls, _, _, _ => calls.logs build false
  | .span before after, _, _, frame =>
      logs_recordSpan (before.logs build false) (after.logs build false) frame
  | .multiAdd handle, _, _, frame => .act fun _ _ h =>
      ⟨congrArg (curlMultiAddHandleRecord handle frame) h.1, h.2⟩
  | .multiRemove handle, call, inBody, frame => .act fun _ _ h =>
      h.removeHandle call inBody handle frame

theorem CallSeq.logs (build : Build) : ∀ (calls : CallSeq) (inBody : Bool),
    Lockstep Logs (calls.run build) (calls.timeline build inBody)
  | .done, _ => .skip
  | .bailout, _ => .bailout
  | .next call rest, inBody =>
      (call.logs build inBody).andThen (rest.logs build inBody)
end

theorem globals_phasesTimeline (build : Build) (phases : List CallSeq)
    {t : Timeline} (h : t.globals.Active) :
    (phasesTimeline build phases t).globals =
      runPhases build phases t.globals := by
  induction phases generalizing t with
  | nil => rfl
  | cons phase phases ih =>
      obtain ⟨-, hglobals, hactive⟩ :=
        phase.logs build true t.globals t ⟨rfl, h⟩
      rw [runPhases_cons, ← hglobals]
      exact ih (by rw [hglobals]; exact hactive)

end Molten.Request
