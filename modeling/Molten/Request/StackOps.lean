import Molten.Chain.LevelId
import Molten.Request.Balance

namespace Molten.Request

open Molten.Control
open Molten.Span
open Molten.Chain

/-! The pushes and pops that a call makes on the span stack, in their order. -/

def Exit.opsIfReturned (ops : List StackOp) : Exit → List StackOp
  | .returned => ops
  | .bailed => []

mutual
def Call.ops : Call → List StackOp
  | .plain body => body.ops
  | .intercepted record body =>
      .pushSpanContext :: (body.ops ++ record.ops ++
        Exit.opsIfReturned [.popSpanContext] record.exit)
  | .curlExec _ body =>
      .pushSpanContext ::
        (body.ops ++ Exit.opsIfReturned [.popSpanContext] body.exit)
  | .curlExecRejected body => .pushSpanContext :: body.ops
  | .curlSetopt _ => []
  | .curlSetoptArray _ => []
  | .curlReset _ => []
  | .elapse _ => []

def Record.ops : Record → List StackOp
  | .silent calls => calls.ops
  | .span before after =>
      before.ops ++ Exit.opsIfReturned after.ops before.exit
  | .multiAdd _ => []
  | .multiRemove _ => []

def CallSeq.ops : CallSeq → List StackOp
  | .done => []
  | .bailout => []
  | .next call rest => call.ops ++ Exit.opsIfReturned rest.ops call.exit
end

/-! The ops of a call never reach below the stack they start on. -/

/-- From any depth the ops end so much higher, and never below. -/
def Climbs (height : Nat) (ops : List StackOp) : Prop :=
  ∀ depth rest, StackOp.neverBelow depth (ops ++ rest) =
    StackOp.neverBelow (depth + height) rest

namespace Climbs

variable {height height' : Nat} {ops ops' : List StackOp}

theorem nil : Climbs 0 [] := fun _ _ => rfl

theorem append (h : Climbs height ops) (h' : Climbs height' ops') :
    Climbs (height + height') (ops ++ ops') := by
  intro depth rest
  rw [List.append_assoc, h, h', Nat.add_assoc]

theorem ifReturned (h : Climbs height ops) (exit : Exit) :
    Climbs (Exit.ifReturned height exit) (Exit.opsIfReturned ops exit) := by
  cases exit with
  | returned => exact h
  | bailed => exact nil

theorem push (h : Climbs height ops) :
    Climbs (height + 1) (.pushSpanContext :: ops) := by
  intro depth rest
  rw [List.cons_append, StackOp.neverBelow, h, Nat.add_right_comm,
    Nat.add_assoc]

theorem frame (h : Climbs height ops) (exit : Exit) :
    Climbs (height + Exit.ifBailed 1 exit)
      (.pushSpanContext ::
        (ops ++ Exit.opsIfReturned [.popSpanContext] exit)) := by
  cases exit with
  | bailed =>
      rw [Exit.opsIfReturned, List.append_nil]
      exact h.push
  | returned =>
      intro depth rest
      rw [Exit.opsIfReturned, List.cons_append, List.append_assoc,
        StackOp.neverBelow, h, Nat.add_right_comm]
      rfl

end Climbs

mutual
theorem Call.climbs : ∀ call : Call, Climbs call.leaks call.ops
  | .plain body => body.climbs
  | .intercepted record body =>
      (body.climbs.append record.climbs).frame record.exit
  | .curlExec _ body => body.climbs.frame body.exit
  | .curlExecRejected body => body.climbs.push
  | .curlSetopt _ => .nil
  | .curlSetoptArray _ => .nil
  | .curlReset _ => .nil
  | .elapse _ => .nil

theorem Record.climbs : ∀ record : Record, Climbs record.leaks record.ops
  | .silent calls => calls.climbs
  | .span before after =>
      before.climbs.append (after.climbs.ifReturned before.exit)
  | .multiAdd _ => .nil
  | .multiRemove _ => .nil

theorem CallSeq.climbs : ∀ calls : CallSeq, Climbs calls.leaks calls.ops
  | .done => .nil
  | .bailout => .nil
  | .next call rest => call.climbs.append (rest.climbs.ifReturned call.exit)
end

def phasesOps (phases : List CallSeq) : List StackOp :=
  phases.flatMap CallSeq.ops

theorem phasesOps_neverBelow (phases : List CallSeq) (depth : Nat) :
    StackOp.neverBelow depth (phasesOps phases) = true := by
  induction phases generalizing depth with
  | nil => cases depth <;> rfl
  | cons phase phases ih =>
      rw [phasesOps, List.flatMap_cons, phase.climbs]
      exact ih _

/-! The stack of a request is what its ops make of it. -/

def applyOp (ids : IdBuild) (span : SpanState) : StackOp → SpanState
  | .pushSpanContext => span.pushSpanContext ids
  | .popSpanContext => span.popSpanContext

/-- From a sampled request, the program leaves like this, and the stack as the
ops do. -/
def Performs (build : Build) (exit : Exit) (ops : List StackOp)
    (program : Run Globals) : Prop :=
  ∀ g, g.Active → (program g).2 = exit ∧ (program g).1.Active ∧
    (program g).1.chain.span = ops.foldl (applyOp build.ids) g.chain.span

namespace Performs

variable {build : Build} {exit exit' : Exit} {ops ops' : List StackOp}
  {first second body : Run Globals}

theorem act {change : Globals → Globals} (h : ∀ g, SameTrace (change g) g) :
    Performs build .returned [] (.act change) := by
  intro g hg
  refine ⟨rfl, ((h g).active hg).1, ?_⟩
  exact congrArg ChainState.span (h g).1

theorem bailout : Performs build .bailed [] .bailout :=
  fun _ hg => ⟨rfl, hg, rfl⟩

theorem andThen (hfirst : Performs build exit ops first)
    (hsecond : Performs build exit' ops' second) :
    Performs build (exit.andThen exit')
      (ops ++ Exit.opsIfReturned ops' exit) (first.andThen second) := by
  intro g hg
  obtain ⟨hexit, hactive, hspan⟩ := hfirst g hg
  cases exit with
  | bailed =>
      rw [Run.andThen_of_bailed hexit, Exit.opsIfReturned, List.append_nil]
      exact ⟨rfl, hactive, hspan⟩
  | returned =>
      obtain ⟨hexit', hactive', hspan'⟩ := hsecond _ hactive
      rw [Run.andThen_of_returned hexit, Exit.opsIfReturned,
        List.foldl_append, ← hspan]
      exact ⟨hexit', hactive', hspan'⟩

theorem reading {program : Globals → Run Globals}
    (h : ∀ start : Globals, start.Active →
      Performs build exit ops (program start)) :
    Performs build exit ops (.reading program) :=
  fun g hg => h g hg g hg

theorem moExecuteCore {record : Frame → Run Globals}
    (hbody : Performs build exit ops body)
    (hrecord : ∀ frame, Performs build exit' ops' (record frame)) :
    Performs build (exit'.andThen exit)
      (.pushSpanContext :: (ops ++ ops' ++
        Exit.opsIfReturned [.popSpanContext] exit'))
      (moExecuteCore build record body) := by
  intro g hg
  rw [Request.moExecuteCore, Run.reading_apply, if_pos hg, Run.act_andThen,
    Run.ensuring_state, Run.ensuring_exit, Run.reading_apply]
  obtain ⟨hexit, hactive, hspan⟩ := hbody (frameBuild build g) hg
  obtain ⟨hexit', hactive', hspan'⟩ :=
    hrecord ⟨g.clock, (body (frameBuild build g)).1.clock⟩ _ hactive
  have hops : (ops ++ ops').foldl (applyOp build.ids)
        (frameBuild build g).chain.span =
      (record ⟨g.clock, (body (frameBuild build g)).1.clock⟩
        (body (frameBuild build g)).1).1.chain.span := by
    rw [List.foldl_append, hspan', hspan]
  cases exit' with
  | bailed =>
      rw [Run.andThen_of_bailed hexit', Exit.opsIfReturned, List.append_nil]
      exact ⟨rfl, hactive', hops.symm⟩
  | returned =>
      rw [Run.andThen_of_returned hexit', Exit.opsIfReturned,
        List.foldl_cons, List.foldl_append]
      refine ⟨hexit, hactive', ?_⟩
      exact congrArg SpanState.popSpanContext hops.symm

theorem curlPush (hbody : Performs build exit ops body) :
    Performs build exit (.pushSpanContext :: ops)
      ((Run.act (curlPush build)).andThen body) := by
  intro g hg
  rw [Run.act_andThen, Request.curlPush, if_pos hg.1]
  exact hbody _ hg

theorem moltenCurlExec {handle : Nat} (hbody : Performs build exit ops body) :
    Performs build exit (.pushSpanContext ::
        (ops ++ Exit.opsIfReturned [.popSpanContext] exit))
      (moltenCurlExec build handle body) := by
  have hpop : ∀ entryTime spanId, Performs build .returned [.popSpanContext]
      (.act (curlRecord entryTime spanId)) := by
    intro entryTime spanId g hg
    rw [Run.act_apply, curlRecord, if_pos hg.1]
    refine ⟨rfl, by simpa using hg, ?_⟩
    simp [Globals.mapSpan, applyOp]
  have hheader : Performs build .returned []
      (.act (setTraceHeader build handle)) :=
    act fun g => (onlyCurl_setTraceHeader build handle g).sameTrace
  refine reading fun start _ => curlPush (reading fun pushed _ => ?_)
  have hrest := hheader.andThen (hbody.andThen
    (hpop start.clock pushed.chain.span.retrieveSpanId))
  rwa [Exit.andThen_returned] at hrest

theorem recordSpan {before after : Run Globals}
    (hbefore : Performs build exit ops before)
    (hafter : Performs build exit' ops' after) (frame : Frame) :
    Performs build (exit.andThen exit')
      (ops ++ Exit.opsIfReturned ops' exit)
      (recordSpan before after frame) := by
  refine hbefore.andThen (reading fun start _ => ?_)
  have hadd : Performs build .returned [] (.act (moChainAddSpan
      (startSpan .client frame.entryTime frame.exitTime start))) :=
    act fun g => sameTrace_moChainAddSpan _ g
  have hseq := hafter.andThen hadd
  cases exit' <;> simpa [Exit.opsIfReturned] using hseq

end Performs

mutual
theorem Call.performs (build : Build) :
    ∀ call : Call, Performs build call.exit call.ops (call.run build)
  | .plain body => body.performs build
  | .intercepted record body =>
      .moExecuteCore (body.performs build) (record.performs build)
  | .curlExec _ body => .moltenCurlExec (body.performs build)
  | .curlExecRejected body => .curlPush (body.performs build)
  | .curlSetopt args => .act fun g => (onlyCurl_userSetopt args g).sameTrace
  | .curlSetoptArray args =>
      .act fun g => (onlyCurl_userSetoptArray args g).sameTrace
  | .curlReset handle =>
      .act fun g => (onlyCurl_userReset handle g).sameTrace
  | .elapse _ => .act fun _ => ⟨rfl, rfl⟩

theorem Record.performs (build : Build) :
    ∀ (record : Record) (frame : Frame),
      Performs build record.exit record.ops (record.run build frame)
  | .silent calls, _ => calls.performs build
  | .span before after, frame =>
      .recordSpan (before.performs build) (after.performs build) frame
  | .multiAdd _, _ => .act fun _ => ⟨rfl, rfl⟩
  | .multiRemove handle, frame =>
      .act (sameTrace_curlMultiRemoveHandleRecord handle frame)

theorem CallSeq.performs (build : Build) :
    ∀ calls : CallSeq, Performs build calls.exit calls.ops (calls.run build)
  | .done => .act fun _ => ⟨rfl, rfl⟩
  | .bailout => .bailout
  | .next call rest =>
      (call.performs build).andThen (rest.performs build)
end

theorem span_runPhases (build : Build) (phases : List CallSeq) {g : Globals}
    (hg : g.Active) : (runPhases build phases g).chain.span =
      (phasesOps phases).foldl (applyOp build.ids) g.chain.span := by
  induction phases generalizing g with
  | nil => rfl
  | cons phase phases ih =>
      obtain ⟨-, hactive, hspan⟩ := phase.performs build g hg
      rw [runPhases_cons, ih hactive, hspan, phasesOps, phasesOps,
        List.flatMap_cons, List.foldl_append]

end Molten.Request
