import Molten.Control.Machine
import Molten.Request.Balance

namespace Molten.Request.MultiPairs

open Molten.Control

/-! The handles of curl multi: what a removal makes of the adds before it. -/

def removedSpan (handle : Nat) (frame : Frame) (g : Globals) : Option Span :=
  (g.spanInfoCache handle).map fun startTime =>
    startSpan .client startTime frame.exitTime g

theorem curlMultiRemoveHandleRecord_eq (handle : Nat) (frame : Frame)
    (g : Globals) :
    curlMultiRemoveHandleRecord handle frame g =
      match removedSpan handle frame g with
      | some span => moChainAddSpan span g
      | none => g := by
  rw [curlMultiRemoveHandleRecord, removedSpan]
  cases g.spanInfoCache handle <;> rfl

/-- What else happens in the request has no part in the cache. -/
inductive MultiStep
  | add (handle : Nat) (frame : Frame)
  | remove (handle : Nat) (frame : Frame)
  | other (change : Globals → Globals)
      (keeps : ∀ g, (change g).spanInfoCache = g.spanInfoCache)

/-- `history` and `spans` are no part of the program: the steps up to here, the
newest first, and the handles of the spans that were made. -/
structure MultiRun where
  globals : Globals
  history : List MultiStep
  spans : List Nat

def MultiRun.next (run : MultiRun) (step : MultiStep) : MultiRun where
  globals :=
    match step with
    | .add handle frame => curlMultiAddHandleRecord handle frame run.globals
    | .remove handle frame =>
        curlMultiRemoveHandleRecord handle frame run.globals
    | .other change _ => change run.globals
  history := step :: run.history
  spans :=
    match step with
    | .remove handle frame =>
        match removedSpan handle frame run.globals with
        | some _ => handle :: run.spans
        | none => run.spans
    | _ => run.spans

def MultiRun.start (g : Globals) : MultiRun := ⟨g, [], []⟩

/-! What the history says of a handle. -/

/-- When the add was entered that no removal has followed. -/
def matchingAdd (handle : Nat) : List MultiStep → Option Nat
  | [] => none
  | .add other frame :: history =>
      if other = handle then some frame.entryTime
      else matchingAdd handle history
  | .remove other _ :: history =>
      if other = handle then none else matchingAdd handle history
  | .other _ _ :: history => matchingAdd handle history

def lastAdd (handle : Nat) : List MultiStep → Option Nat
  | [] => none
  | .add other frame :: history =>
      if other = handle then some frame.entryTime else lastAdd handle history
  | .remove _ _ :: history => lastAdd handle history
  | .other _ _ :: history => lastAdd handle history

def adds (handle : Nat) : List MultiStep → Nat
  | [] => 0
  | .add other _ :: history =>
      if other = handle then adds handle history + 1 else adds handle history
  | .remove _ _ :: history => adds handle history
  | .other _ _ :: history => adds handle history

/-- A removal makes a span just when there is a matching add, from its entry
on. -/
def Matches (run : MultiRun) : MultiStep → Prop
  | .remove handle frame =>
      (removedSpan handle frame run.globals).map Span.start =
        matchingAdd handle run.history
  | _ => True

def NoMoreSpans (run : MultiRun) : Prop :=
  ∀ handle, run.spans.count handle ≤ adds handle run.history

def Pairs (g : Globals) (steps : List MultiStep) : Prop :=
  Along MultiRun.next Matches (.start g) steps ∧
    EveryState MultiRun.next NoMoreSpans (.start g) steps

/-- No handle is removed a second time after its last add. -/
def RemovedOnce (run : MultiRun) : MultiStep → Prop
  | .remove handle _ =>
      lastAdd handle run.history ≠ none → matchingAdd handle run.history ≠ none
  | _ => True

/-! The cache has the last add. -/

def Cached (run : MultiRun) : Prop :=
  ∀ handle, run.globals.spanInfoCache handle = lastAdd handle run.history

theorem start_removedSpan (handle : Nat) (frame : Frame) (g : Globals) :
    (removedSpan handle frame g).map Span.start = g.spanInfoCache handle := by
  rw [removedSpan, Option.map_map]
  exact Option.map_id'

theorem spanInfoCache_remove (handle : Nat) (frame : Frame) (g : Globals) :
    (curlMultiRemoveHandleRecord handle frame g).spanInfoCache =
      g.spanInfoCache := by
  rw [curlMultiRemoveHandleRecord_eq]
  split
  · exact spanInfoCache_moChainAddSpan _ g
  · rfl

theorem cached_next {run : MultiRun} (cached : Cached run)
    (step : MultiStep) : Cached (run.next step) := by
  intro handle
  cases step with
  | add other frame =>
      show Function.update run.globals.spanInfoCache other
        (some frame.entryTime) handle = _
      by_cases same : other = handle
      · subst same
        rw [Function.update_self, MultiRun.next, lastAdd, if_pos rfl]
      · rw [Function.update_of_ne (Ne.symm same), cached handle, MultiRun.next,
          lastAdd, if_neg same]
  | remove other frame =>
      show (curlMultiRemoveHandleRecord other frame
        run.globals).spanInfoCache handle = _
      rw [spanInfoCache_remove, cached handle]
      rfl
  | other change keeps =>
      show (change run.globals).spanInfoCache handle = _
      rw [keeps, cached handle]
      rfl

theorem lastAdd_of_matchingAdd {handle entered : Nat}
    {history : List MultiStep}
    (found : matchingAdd handle history = some entered) :
    lastAdd handle history = some entered := by
  induction history with
  | nil => cases found
  | cons step history induction =>
      cases step with
      | add other frame =>
          rw [matchingAdd] at found
          rw [lastAdd]
          split at found
          · rw [if_pos ‹_›]
            exact found
          · rw [if_neg ‹_›]
            exact induction found
      | remove other frame =>
          rw [matchingAdd] at found
          split at found
          · cases found
          · exact induction found
      | other change keeps => exact induction found

theorem matches_iff_removedOnce (run : MultiRun) (step : MultiStep)
    (cached : Cached run) : Matches run step ↔ RemovedOnce run step := by
  cases step with
  | add handle frame => exact Iff.rfl
  | other change keeps => exact Iff.rfl
  | remove handle frame =>
      rw [Matches, RemovedOnce, start_removedSpan, cached handle]
      cases found : matchingAdd handle run.history with
      | some entered => simp [lastAdd_of_matchingAdd found]
      | none => simp

/-! The spans of a handle. -/

/-- The open add is one that no span was made of yet. -/
def Balanced (run : MultiRun) : Prop :=
  ∀ handle, run.spans.count handle +
      (if (matchingAdd handle run.history).isSome then 1 else 0) ≤
    adds handle run.history

theorem balanced_next {run : MultiRun} (balanced : Balanced run)
    {step : MultiStep} (matching : Matches run step) :
    Balanced (run.next step) := by
  intro handle
  have before := balanced handle
  cases step with
  | add other frame =>
      by_cases same : other = handle
      · simp only [MultiRun.next, matchingAdd, adds, if_pos same,
          Option.isSome_some, if_true]
        omega
      · simp only [MultiRun.next, matchingAdd, adds, if_neg same]
        exact before
  | other change keeps => exact before
  | remove other frame =>
      by_cases same : other = handle
      · subst same
        rw [Matches] at matching
        simp only [MultiRun.next, matchingAdd, adds, if_true]
        rw [← matching, Option.isSome_map] at before
        cases removed : removedSpan other frame run.globals with
        | none =>
            exact Nat.le_of_add_right_le before
        | some span =>
            rw [removed] at before
            simp only [List.count_cons_self, Option.isSome_none]
            exact before
      · simp only [MultiRun.next, matchingAdd, adds, if_neg same]
        split
        · rw [List.count_cons_of_ne same]
          exact before
        · exact before

theorem everyState_noMoreSpans {run : MultiRun} {steps : List MultiStep}
    (balanced : Balanced run) (matching : Along MultiRun.next Matches run steps) :
    EveryState MultiRun.next NoMoreSpans run steps := by
  induction steps generalizing run with
  | nil =>
      rw [everyState_iff]
      exact ⟨fun handle => Nat.le_of_add_right_le (balanced handle), trivial⟩
  | cons step steps induction =>
      rw [everyState_cons]
      exact ⟨fun handle => Nat.le_of_add_right_le (balanced handle),
        induction (balanced_next balanced matching.1) matching.2⟩

/-- A request that is sampled, from its start. -/
structure SampledStart where
  build : Build
  input : Chain.RequestInput
  module : Ctrl.CtrlModule
  record : Ctrl.SamplingRecord
  prior : Globals
  globals : Globals
  recorded : Ctrl.SamplingRecord
  started : phpRinit build input module record prior = some (globals, recorded)
  sampled : globals.chain.isSampled = true

/-- The spans of curl multi match its calls just when no handle is removed a
second time after its last add. -/
theorem multi_pairs_iff (request : SampledStart) (steps : List MultiStep) :
    Pairs request.globals steps ↔
      Along MultiRun.next RemovedOnce (.start request.globals) steps := by
  have cached : Cached (.start request.globals) :=
    fun handle => spanInfoCache_phpRinit request.started handle
  have balanced : Balanced (.start request.globals) :=
    fun handle => Nat.le_refl 0
  rw [← along_congr Cached matches_iff_removedOnce
    (fun run step cached _ => cached_next cached step) cached]
  exact ⟨And.left,
    fun matching => ⟨matching, everyState_noMoreSpans balanced matching⟩⟩

def scriptRequest : SampledStart where
  build := ⟨.molten, .level⟩
  input := scriptInput
  module := ⟨1, 1, 1, 0⟩
  record := ⟨0, 0⟩
  prior := freshGlobals
  globals := scriptStart .level
  recorded := ⟨0, 0⟩
  started := phpRinit_script .level
  sampled := rfl

/-- The second removal makes a second span. -/
theorem not_pairs_removed_twice :
    ¬ Pairs scriptRequest.globals
      [.add 4 ⟨1, 2⟩, .remove 4 ⟨3, 4⟩, .remove 4 ⟨5, 6⟩] := by
  rintro ⟨⟨-, -, again, -⟩, -⟩
  have made : some 1 = none := again
  cases made

end Molten.Request.MultiPairs
