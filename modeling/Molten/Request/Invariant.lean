import Molten.Request.Call

namespace Molten.Request

open Molten.Control
open Molten.Span

/-! Conditions that hold at every point of a request.  They may speak of the
number of contexts that are on the stack at least. -/

/-- Every step from a sampled request keeps the condition, at the depth to which
it pushes or pops. -/
structure KeptBySteps (build : Build) (inv : Nat → Globals → Prop) : Prop where
  active : ∀ {depth g}, inv depth g → g.Active
  push : ∀ {depth g}, inv depth g → inv (depth + 1) (frameBuild build g)
  pop : ∀ {depth g}, inv (depth + 1) g → inv depth (frameDestroy g)
  leak : ∀ {depth g}, inv (depth + 1) g → inv depth g
  addSpan : ∀ {depth g} span, inv depth g → inv depth (moChainAddSpan span g)
  setTraceHeader : ∀ {depth g} handle, inv (depth + 1) g →
    inv (depth + 1) (setTraceHeader build handle g)
  setopt : ∀ {depth g} args, inv depth g → inv depth (userSetopt args g)
  setoptArray : ∀ {depth g} args, inv depth g →
    inv depth (userSetoptArray args g)
  reset : ∀ {depth g} handle, inv depth g → inv depth (userReset handle g)
  multiAdd : ∀ {depth g} handle frame, inv depth g →
    inv depth (curlMultiAddHandleRecord handle frame g)
  elapse : ∀ {depth g} millis, inv depth g → inv depth (elapse millis g)

namespace KeptBySteps

variable {build : Build} {inv : Nat → Globals → Prop}

theorem moExecuteCore (kept : KeptBySteps build inv) {depth : Nat}
    {record : Frame → Run Globals} {body : Run Globals}
    (hbody : ∀ depth, Invariant (inv depth) body)
    (hrecord : ∀ depth frame, Invariant (inv depth) (record frame)) :
    Invariant (inv depth) (moExecuteCore build record body) := by
  refine .reading fun start => ?_
  split
  · refine Triple.andThen (inv (depth + 1))
      (Triple.act fun _ hg => kept.push hg) <|
      Triple.ensuring (hbody (depth + 1)) fun _ =>
        Triple.reading fun left => ?_
    refine Triple.andThen (inv (depth + 1))
      ((hrecord (depth + 1) _).weaken (fun _ hg => hg.2) fun exit _ hg => ?_)
      (Triple.act fun _ hg => kept.pop hg)
    cases exit with
    | returned => exact hg
    | bailed => exact kept.leak hg
  · exact hbody depth

theorem curlPush (kept : KeptBySteps build inv) {depth : Nat} {g : Globals}
    (hg : inv depth g) : inv (depth + 1) (curlPush build g) := by
  rw [Request.curlPush, if_pos (kept.active hg).1]
  exact kept.push hg

theorem curlRecord (kept : KeptBySteps build inv) {depth : Nat} {g : Globals}
    (hg : inv (depth + 1) g) (entryTime : Nat) (spanId : Option String) :
    inv depth (curlRecord entryTime spanId g) := by
  rw [Request.curlRecord, if_pos (kept.active hg).1]
  exact kept.pop (kept.addSpan _ hg)

theorem moltenCurlExec (kept : KeptBySteps build inv) {depth handle : Nat}
    {body : Run Globals} (hbody : ∀ depth, Invariant (inv depth) body) :
    Invariant (inv depth) (moltenCurlExec build handle body) := by
  refine .reading fun start => Triple.andThen (inv (depth + 1))
    (Triple.act fun _ hg => kept.curlPush hg) (Triple.reading fun pushed => ?_)
  refine Triple.andThen (inv (depth + 1))
    (Triple.act fun _ hg => kept.setTraceHeader handle hg.2) ?_
  refine Triple.andThen (inv (depth + 1))
    ((hbody (depth + 1)).weaken (fun _ hg => hg) fun exit _ hg => ?_)
    (Triple.act fun _ hg => kept.curlRecord hg _ _)
  cases exit with
  | returned => exact hg
  | bailed => exact kept.leak hg

theorem moltenCurlExecRejected (kept : KeptBySteps build inv) {depth : Nat}
    {body : Run Globals} (hbody : ∀ depth, Invariant (inv depth) body) :
    Invariant (inv depth) (moltenCurlExecRejected build body) :=
  Triple.andThen (inv (depth + 1)) (Triple.act fun _ hg => kept.curlPush hg)
    ((hbody (depth + 1)).weaken (fun _ hg => hg) fun _ _ hg => kept.leak hg)

theorem recordSpan (kept : KeptBySteps build inv) {depth : Nat}
    {before after : Run Globals} (hbefore : Invariant (inv depth) before)
    (hafter : Invariant (inv depth) after) (frame : Frame) :
    Invariant (inv depth) (recordSpan before after frame) :=
  hbefore.andThen <| .reading fun _ =>
    hafter.andThen <| .act fun _ hg => kept.addSpan _ hg

theorem multiRemove (kept : KeptBySteps build inv) {depth : Nat} {g : Globals}
    (hg : inv depth g) (handle : Nat) (frame : Frame) :
    inv depth (curlMultiRemoveHandleRecord handle frame g) := by
  unfold curlMultiRemoveHandleRecord
  split
  · exact kept.addSpan _ hg
  · exact hg

end KeptBySteps

mutual
theorem Call.kept {build : Build} {inv : Nat → Globals → Prop}
    (kept : KeptBySteps build inv) :
    ∀ (call : Call) (depth : Nat), Invariant (inv depth) (call.run build)
  | .plain body, depth => body.kept kept depth
  | .intercepted record body, _ =>
      kept.moExecuteCore (body.kept kept) (record.kept kept)
  | .curlExec _ body, _ => kept.moltenCurlExec (body.kept kept)
  | .curlExecRejected body, _ =>
      kept.moltenCurlExecRejected (body.kept kept)
  | .curlSetopt args, _ => .act fun _ => kept.setopt args
  | .curlSetoptArray args, _ => .act fun _ => kept.setoptArray args
  | .curlReset handle, _ => .act fun _ => kept.reset handle
  | .elapse millis, _ => .act fun _ => kept.elapse millis

theorem Record.kept {build : Build} {inv : Nat → Globals → Prop}
    (kept : KeptBySteps build inv) :
    ∀ (record : Record) (depth : Nat) (frame : Frame),
      Invariant (inv depth) (record.run build frame)
  | .silent calls, depth, _ => calls.kept kept depth
  | .span before after, depth, frame =>
      kept.recordSpan (before.kept kept depth) (after.kept kept depth) frame
  | .multiAdd handle, _, frame => .act fun _ => kept.multiAdd handle frame
  | .multiRemove handle, _, frame =>
      .act fun _ hg => kept.multiRemove hg handle frame

theorem CallSeq.kept {build : Build} {inv : Nat → Globals → Prop}
    (kept : KeptBySteps build inv) :
    ∀ (calls : CallSeq) (depth : Nat), Invariant (inv depth) (calls.run build)
  | .done, _ => .skip
  | .bailout, _ => .bailout
  | .next call rest, depth =>
      (call.kept kept depth).andThen (rest.kept kept depth)
end

theorem runPhases_kept {build : Build} {inv : Nat → Globals → Prop}
    (kept : KeptBySteps build inv) (phases : List CallSeq) (depth : Nat)
    {g : Globals} (hg : inv depth g) : inv depth (runPhases build phases g) := by
  induction phases generalizing g with
  | nil => exact hg
  | cons phase phases ih => exact ih (phase.kept kept depth g hg)

end Molten.Request
