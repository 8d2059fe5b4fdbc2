import Mathlib.Data.List.Forall2
import Mathlib.Data.List.Nodup
import Molten.Control.Simulation
import Molten.Request.Balance

namespace Molten.Request

open Molten.Control
open Molten.Span
open Molten.Chain
open Molten.Text

/-! Which context every recorded span shows. Contexts are numbered in the order
they are opened, the main span's with 0; nothing here looks at an id. -/

structure Tally where
  opened : Nat
  /-- the contexts on the stack, innermost first -/
  stack : List Nat
  /-- the context of every recorded span -/
  recorded : List Nat
  cached : Nat → Bool

namespace Tally

def start : Tally := ⟨1, [0], [], fun _ => false⟩

def enter (t : Tally) : Tally :=
  { t with opened := t.opened + 1, stack := t.opened :: t.stack }

def leave (t : Tally) : Tally := { t with stack := t.stack.tail }

def top (t : Tally) : Nat := t.stack.headD 0

def record (context : Nat) (t : Tally) : Tally :=
  { t with recorded := t.recorded ++ [context] }

def cache (handle : Nat) (t : Tally) : Tally :=
  { t with cached := Function.update t.cached handle true }

end Tally

mutual
def Call.tally : Call → Run Tally
  | .plain body => body.tally
  | .intercepted record body =>
      (Run.act Tally.enter).andThen <|
        body.tally.ensuring <| record.tally.andThen (.act Tally.leave)
  | .curlExec _ body =>
      (Run.act Tally.enter).andThen <| .reading fun pushed =>
        body.tally.andThen <| .act fun t => (t.record pushed.top).leave
  | .curlExecRejected body => (Run.act Tally.enter).andThen body.tally
  | .curlSetopt _ => .skip
  | .curlSetoptArray _ => .skip
  | .curlReset _ => .skip
  | .elapse _ => .skip

def Record.tally : Record → Run Tally
  | .silent calls => calls.tally
  | .span before after =>
      before.tally.andThen <| .reading fun t =>
        after.tally.andThen <| .act (Tally.record t.top)
  | .multiAdd handle => .act (Tally.cache handle)
  | .multiRemove handle =>
      .act fun t => if t.cached handle then t.record t.top else t

def CallSeq.tally : CallSeq → Run Tally
  | .done => .skip
  | .bailout => .bailout
  | .next call rest => call.tally.andThen rest.tally
end

def phasesTally (phases : List CallSeq) (t : Tally) : Tally :=
  phases.foldl (fun t phase => (phase.tally t).1) t

/-- The contexts of all spans of a request, the main span's last. -/
def spanContexts (phases : List CallSeq) : List Nat :=
  let t := phasesTally phases .start
  t.recorded ++ [t.top]

/-! The ids of contexts. -/

/-- The id is that of the context when the main span's was drawn at `base`. All
that counts of a level id is how it starts. -/
def IdOf (ids : IdBuild) (base : Nat) (id : String) (context : Nat) : Prop :=
  match ids with
  | .level => id = "1" ∨ "1.".toList <+: id.toList
  | .random => id = buildSpanIdRandom (base + context)

def Shows (ids : IdBuild) (base : Nat) (span : Span) (context : Nat) : Prop :=
  ∃ id, span.id = some id ∧ IdOf ids base id context

/-- A sampled request beside its tally, with more than `depth` contexts on the
stack. -/
structure Tallied (build : Build) (base depth : Nat) (g : Globals)
    (t : Tally) : Prop where
  active : g.Active
  deep : depth < t.stack.length
  ids : List.Forall₂ (IdOf build.ids base) g.ids t.stack
  step : build.ids = .random → g.chain.span.step = base + t.opened
  spans : ∃ spans, g.spans = some (spans.take maxSpans) ∧
    List.Forall₂ (Shows build.ids base) spans t.recorded
  cached : ∀ handle, (g.spanInfoCache handle).isSome = t.cached handle

theorem prefix_buildSpanIdLevel (parent : String) (count : Nat) :
    (parent ++ ".").toList <+:
      (buildSpanIdLevel (some parent) count).toList := by
  rw [buildSpanIdLevel, toList_cutToBuffer]
  refine List.prefix_take_iff.mpr ⟨?_, ?_⟩
  · rw [String.toList_append, String.toList_append, String.toList_append]
    exact List.prefix_append _ _
  · have hdot : ".".toList.length = 1 := rfl
    rw [String.toList_append, List.length_append, hdot, maxSpansLen]
    omega

theorem idOf_level_child {base context : Nat} {parent : String}
    (h : IdOf .level base parent context) (count other : Nat) :
    IdOf .level base (buildSpanIdLevel (some parent) count) other := by
  refine .inr (List.IsPrefix.trans ?_ (prefix_buildSpanIdLevel parent count))
  obtain rfl | h := h
  · exact List.prefix_refl _
  · rw [String.toList_append]
    exact h.trans (List.prefix_append _ _)

namespace Tallied

variable {build : Build} {base depth : Nat} {g : Globals} {t : Tally}

theorem exists_ids (h : Tallied build base depth g t) :
    ∃ id ids rest, g.ids = id :: ids ∧ t.stack = t.top :: rest ∧
      IdOf build.ids base id t.top ∧
      List.Forall₂ (IdOf build.ids base) ids rest := by
  have hids := h.ids
  have hdeep := h.deep
  rw [Tally.top]
  generalize g.ids = all at hids
  generalize t.stack = stack at hids hdeep
  cases hids with
  | nil => simp at hdeep
  | cons hid hrest => exact ⟨_, _, _, rfl, rfl, hid, hrest⟩

theorem idOf_nextSpanId (h : Tallied build base depth g t) :
    IdOf build.ids base (g.chain.span.nextSpanId build.ids) t.opened := by
  obtain ⟨headers, ids⟩ := build
  cases ids with
  | random =>
      rw [SpanState.nextSpanId, h.step rfl]
      rfl
  | level =>
      obtain ⟨id, rest, -, hids, -, hid, -⟩ := h.exists_ids
      rw [Globals.ids, SpanState.ids] at hids
      obtain ⟨parent, below, hstack, rfl, -⟩ := List.map_eq_cons_iff.mp hids
      rw [SpanState.nextSpanId, hstack]
      exact idOf_level_child hid _ _

theorem push (h : Tallied build base depth g t) :
    Tallied build base (depth + 1) (frameBuild build g) t.enter where
  active := h.active
  deep := Nat.succ_lt_succ h.deep
  ids := by
    rw [ids_frameBuild]
    exact .cons h.idOf_nextSpanId h.ids
  step hrandom := by
    have hstep : (frameBuild build g).chain.span.step =
        g.chain.span.step + 1 := by
      rw [frameBuild, hrandom]
      rfl
    rw [hstep, h.step hrandom]
    rfl
  spans := h.spans
  cached := h.cached

theorem pop (h : Tallied build base (depth + 1) g t) :
    Tallied build base depth (frameDestroy g) t.leave where
  active := h.active
  deep := by
    rw [Tally.leave, List.length_tail]
    exact Nat.lt_sub_of_add_lt h.deep
  ids := by
    obtain ⟨id, ids, rest, hids, hstack, -, hrest⟩ := h.exists_ids
    rw [ids_frameDestroy, Tally.leave, hids, hstack]
    exact hrest
  step := h.step
  spans := h.spans
  cached := h.cached

theorem leak (h : Tallied build base (depth + 1) g t) :
    Tallied build base depth g t :=
  { h with deep := Nat.lt_of_succ_lt h.deep }

theorem addSpan (h : Tallied build base depth g t) {span : Span}
    {context : Nat} (hshows : Shows build.ids base span context) :
    Tallied build base depth (moChainAddSpan span g) (t.record context) where
  active := (active_moChainAddSpan span g).mpr h.active
  deep := h.deep
  ids := by
    rw [ids_moChainAddSpan]
    exact h.ids
  step hrandom := by
    rw [chain_moChainAddSpan]
    exact h.step hrandom
  spans := by
    obtain ⟨spans, hspans, hall⟩ := h.spans
    exact ⟨spans ++ [span], spans_moChainAddSpan hspans span,
      List.rel_append hall (.cons hshows .nil)⟩
  cached handle := by
    obtain ⟨spans, hadd⟩ := moChainAddSpan_eq span g
    rw [hadd]
    exact h.cached handle

theorem onlyCurl (h : Tallied build base depth g t) {g' : Globals}
    (hcurl : OnlyCurl g' g) : Tallied build base depth g' t := by
  obtain ⟨record, internel, events, rfl⟩ := hcurl
  exact ⟨h.active, h.deep, h.ids, h.step, h.spans, h.cached⟩

theorem elapse (h : Tallied build base depth g t) (millis : Nat) :
    Tallied build base depth (elapse millis g) t :=
  ⟨h.active, h.deep, h.ids, h.step, h.spans, h.cached⟩

theorem cache (h : Tallied build base depth g t) (handle : Nat)
    (frame : Frame) :
    Tallied build base depth (curlMultiAddHandleRecord handle frame g)
      (t.cache handle) where
  active := h.active
  deep := h.deep
  ids := h.ids
  step := h.step
  spans := h.spans
  cached other := by
    rw [curlMultiAddHandleRecord, Tally.cache]
    by_cases heq : other = handle
    · subst heq
      simp
    · simpa [heq] using h.cached other

theorem idOf_top (h : Tallied build base depth g t) :
    ∃ id, g.chain.span.retrieveSpanId = some id ∧
      IdOf build.ids base id t.top := by
  obtain ⟨id, ids, rest, hids, -, hid, -⟩ := h.exists_ids
  exact ⟨id, SpanState.retrieveSpanId_of_ids hids, hid⟩

theorem shows_startSpan (h : Tallied build base depth g t) (anType : AnType)
    (start finish : Nat) :
    Shows build.ids base (startSpan anType start finish g) t.top :=
  h.idOf_top

end Tallied

/-! The calls beside their tally. -/

section Frames

variable {build : Build} {base depth : Nat} {body : Run Globals}
    {body' : Run Tally}

theorem lockstep_moExecuteCore {record : Frame → Run Globals}
    {record' : Run Tally}
    (hbody : ∀ depth, Lockstep (Tallied build base depth) body body')
    (hrecord : ∀ depth frame,
      Lockstep (Tallied build base depth) (record frame) record') :
    Lockstep (Tallied build base depth) (moExecuteCore build record body)
      ((Run.act Tally.enter).andThen <|
        body'.ensuring <| record'.andThen (.act Tally.leave)) := by
  refine Simulation.readingLeft fun start _ hstart => ?_
  rw [if_pos hstart.active]
  refine Simulation.andThen (Tallied build base (depth + 1))
    (Simulation.act fun _ _ h => h.2.2.push)
    (Simulation.ensuring (hbody (depth + 1)) fun _ =>
      Simulation.readingLeft fun left _ _ => ?_)
  refine Simulation.andThen (Tallied build base (depth + 1))
    ((hrecord (depth + 1) _).weaken (fun _ _ h => h.2.2)
      fun exit _ _ h => ?_)
    (Simulation.act fun _ _ h => h.pop)
  cases exit with
  | returned => exact h
  | bailed => exact h.leak

theorem Tallied.curlPush {g : Globals} {t : Tally}
    (h : Tallied build base depth g t) :
    Tallied build base (depth + 1) (curlPush build g) t.enter := by
  rw [Request.curlPush, if_pos h.active.1]
  exact h.push

theorem Tallied.curlRecord {g : Globals} {t : Tally}
    (h : Tallied build base (depth + 1) g t) (entryTime : Nat)
    {spanId : String} {context : Nat}
    (hid : IdOf build.ids base spanId context) :
    Tallied build base depth (curlRecord entryTime (some spanId) g)
      (t.record context).leave := by
  rw [Request.curlRecord, if_pos h.active.1]
  exact (h.addSpan ⟨spanId, rfl, hid⟩).pop

theorem lockstep_moltenCurlExec {handle : Nat}
    (hbody : ∀ depth, Lockstep (Tallied build base depth) body body') :
    Lockstep (Tallied build base depth) (moltenCurlExec build handle body)
      ((Run.act Tally.enter).andThen <| .reading fun pushed =>
        body'.andThen <| .act fun t => (t.record pushed.top).leave) := by
  refine Simulation.readingLeft fun start _ _ =>
    Simulation.andThen (Tallied build base (depth + 1))
      (Simulation.act fun _ _ h => h.2.2.curlPush)
      (Simulation.reading fun pushed pushed' hpushed => ?_)
  obtain ⟨spanId, hspanId, hid⟩ := hpushed.idOf_top
  rw [hspanId]
  refine Simulation.actLeft (fun g _ h =>
    h.2.2.onlyCurl (onlyCurl_setTraceHeader build handle g)) ?_
  refine Simulation.andThen (Tallied build base (depth + 1))
    ((hbody (depth + 1)).weaken (fun _ _ h => h) fun exit _ _ h => ?_)
    (Simulation.act fun _ _ h => h.curlRecord _ hid)
  cases exit with
  | returned => exact h
  | bailed => exact h.leak

theorem lockstep_moltenCurlExecRejected
    (hbody : ∀ depth, Lockstep (Tallied build base depth) body body') :
    Lockstep (Tallied build base depth) (moltenCurlExecRejected build body)
      ((Run.act Tally.enter).andThen body') :=
  Simulation.andThen (Tallied build base (depth + 1))
    (Simulation.act fun _ _ h => h.curlPush)
    ((hbody (depth + 1)).weaken (fun _ _ h => h) fun _ _ _ h => h.leak)

theorem lockstep_recordSpan {before after : Run Globals}
    {before' after' : Run Tally}
    (hbefore : Lockstep (Tallied build base depth) before before')
    (hafter : Lockstep (Tallied build base depth) after after')
    (frame : Frame) :
    Lockstep (Tallied build base depth) (recordSpan before after frame)
      (before'.andThen <| .reading fun t =>
        after'.andThen <| .act (Tally.record t.top)) := by
  refine hbefore.andThen (Simulation.reading fun start start' hstart => ?_)
  exact (hafter.andThen (.act fun _ _ h =>
    h.addSpan (hstart.shows_startSpan .client _ _))).weaken
      (fun _ _ h => h.2.2) fun _ _ _ h => h

theorem Tallied.multiRemove {g : Globals} {t : Tally}
    (h : Tallied build base depth g t) (handle : Nat) (frame : Frame) :
    Tallied build base depth (curlMultiRemoveHandleRecord handle frame g)
      (if t.cached handle then t.record t.top else t) := by
  rw [← h.cached handle, curlMultiRemoveHandleRecord]
  cases g.spanInfoCache handle with
  | none => exact h
  | some startTime => exact h.addSpan (h.shows_startSpan .client _ _)

end Frames

mutual
theorem Call.lockstep (build : Build) (base : Nat) :
    ∀ (call : Call) (depth : Nat),
      Lockstep (Tallied build base depth) (call.run build) call.tally
  | .plain body, depth => body.lockstep build base depth
  | .intercepted record body, _ =>
      lockstep_moExecuteCore (body.lockstep build base)
        (record.lockstep build base)
  | .curlExec _ body, _ => lockstep_moltenCurlExec (body.lockstep build base)
  | .curlExecRejected body, _ =>
      lockstep_moltenCurlExecRejected (body.lockstep build base)
  | .curlSetopt args, _ =>
      .act fun g _ h => h.onlyCurl (onlyCurl_userSetopt args g)
  | .curlSetoptArray args, _ =>
      .act fun g _ h => h.onlyCurl (onlyCurl_userSetoptArray args g)
  | .curlReset handle, _ =>
      .act fun g _ h => h.onlyCurl (onlyCurl_userReset handle g)
  | .elapse millis, _ => .act fun _ _ h => h.elapse millis

theorem Record.lockstep (build : Build) (base : Nat) :
    ∀ (record : Record) (depth : Nat) (frame : Frame),
      Lockstep (Tallied build base depth) (record.run build frame) record.tally
  | .silent calls, depth, _ => calls.lockstep build base depth
  | .span before after, depth, frame =>
      lockstep_recordSpan (before.lockstep build base depth)
        (after.lockstep build base depth) frame
  | .multiAdd handle, _, frame => .act fun _ _ h => h.cache handle frame
  | .multiRemove handle, _, frame =>
      .act fun _ _ h => h.multiRemove handle frame

theorem CallSeq.lockstep (build : Build) (base : Nat) :
    ∀ (calls : CallSeq) (depth : Nat),
      Lockstep (Tallied build base depth) (calls.run build) calls.tally
  | .done, _ => .skip
  | .bailout, _ => .bailout
  | .next call rest, depth =>
      (call.lockstep build base depth).andThen (rest.lockstep build base depth)
end

theorem tallied_runPhases {build : Build} {base depth : Nat} {g : Globals}
    {t : Tally} (h : Tallied build base depth g t) (phases : List CallSeq) :
    Tallied build base depth (runPhases build phases g)
      (phasesTally phases t) := by
  induction phases generalizing g t with
  | nil => exact h
  | cons phase phases ih =>
      exact ih (phase.lockstep build base depth g t h).2

/-! Clean calls record every context at most once. -/

/-- Contexts recorded meanwhile are new ones, or among `own`. -/
structure Tally.Extends (own : List Nat) (t t' : Tally) : Prop where
  stack : t'.stack = t.stack
  opened : t.opened ≤ t'.opened
  recorded : ∃ added, t'.recorded = t.recorded ++ added ∧ added.Nodup ∧
    ∀ context ∈ added,
      context ∈ own ∨ t.opened ≤ context ∧ context < t'.opened

namespace Tally.Extends

variable {own : List Nat} {t t' t'' : Tally}

theorem refl : Tally.Extends own t t :=
  ⟨rfl, le_refl _, [], (List.append_nil _).symm, .nil, by simp⟩

theorem record (context : Nat) : Tally.Extends [context] t (t.record context) :=
  ⟨rfl, le_refl _, [context], rfl, List.nodup_singleton _,
    fun _ hmem => .inl hmem⟩

theorem mono (h : Tally.Extends [] t t') : Tally.Extends own t t' := by
  obtain ⟨hstack, hopened, added, hrecorded, hnodup, hadded⟩ := h
  exact ⟨hstack, hopened, added, hrecorded, hnodup, fun context hcontext =>
    .inr ((hadded context hcontext).resolve_left List.not_mem_nil)⟩

theorem trans (h : Tally.Extends [] t t') (h' : Tally.Extends own t' t'')
    (hown : ∀ context ∈ own, context < t.opened) :
    Tally.Extends own t t'' := by
  obtain ⟨hstack, hopened, added, hrecorded, hnodup, hadded⟩ := h
  obtain ⟨hstack', hopened', added', hrecorded', hnodup', hadded'⟩ := h'
  refine ⟨hstack'.trans hstack, hopened.trans hopened', added ++ added', ?_,
    List.nodup_append.mpr ⟨hnodup, hnodup', ?_⟩, ?_⟩
  · rw [hrecorded', hrecorded, List.append_assoc]
  · rintro context hcontext _ hother rfl
    obtain hnil | ⟨hlow, hhigh⟩ := hadded context hcontext
    · contradiction
    · obtain hmem | ⟨hlow', -⟩ := hadded' context hother
      · exact absurd (hown context hmem) (Nat.not_lt.mpr hlow)
      · exact absurd hhigh (Nat.not_lt.mpr hlow')
  · intro context hcontext
    obtain hcontext | hcontext := List.mem_append.mp hcontext
    · obtain hnil | ⟨hlow, hhigh⟩ := hadded context hcontext
      · contradiction
      · exact .inr ⟨hlow, hhigh.trans_le hopened'⟩
    · exact (hadded' context hcontext).imp_right fun h =>
        ⟨hopened.trans h.1, h.2⟩

theorem frame (h : Tally.Extends [t.opened] t.enter t') :
    Tally.Extends [] t t'.leave := by
  obtain ⟨hstack, hopened, added, hrecorded, hnodup, hadded⟩ := h
  refine ⟨by rw [Tally.leave, hstack]; rfl, Nat.le_of_succ_le hopened, added,
    hrecorded, hnodup, fun context hcontext => .inr ?_⟩
  obtain hown | ⟨hlow, hhigh⟩ := hadded context hcontext
  · obtain rfl := List.mem_singleton.mp hown
    exact ⟨le_refl _, Nat.lt_of_succ_le hopened⟩
  · exact ⟨Nat.le_of_succ_le hlow, hhigh⟩

end Tally.Extends

theorem Tally.Extends.top {own : List Nat} {t t' : Tally}
    (h : Tally.Extends own t t') : t'.top = t.top := by
  rw [Tally.top, Tally.top, h.stack]

/-- From a context that was opened before, leaves like this, and records that
context at most once if it may record it. -/
def Extending (own : Tally → List Nat) (exit : Exit) (program : Run Tally) :
    Prop :=
  ∀ t, t.top < t.opened →
    (program t).2 = exit ∧ Tally.Extends (own t) t (program t).1

def ownContext (t : Tally) : List Nat := [t.top]

namespace Extending

variable {exit exit' : Exit} {first second body record : Run Tally}

theorem skip : Extending (fun _ => []) .returned .skip :=
  fun _ _ => ⟨rfl, .refl⟩

theorem own (h : Extending (fun _ => []) exit body) :
    Extending ownContext exit body := fun t ht => (h t ht).imp_right .mono

theorem andThen {own : Tally → List Nat}
    (hfirst : Extending (fun _ => []) exit first)
    (hown : ∀ t, t.top < t.opened → ∀ context ∈ own t, context < t.opened)
    (hsame : ∀ t t', Tally.Extends [] t t' → own t' = own t)
    (hsecond : exit = .returned → Extending own exit' second) :
    Extending own (exit.andThen exit') (first.andThen second) := by
  intro t ht
  obtain ⟨hexit, hext⟩ := hfirst t ht
  cases exit with
  | bailed =>
      rw [Run.andThen_of_bailed hexit]
      exact ⟨rfl, hext.mono⟩
  | returned =>
      rw [Run.andThen_of_returned hexit]
      obtain ⟨hexit', hext'⟩ := hsecond rfl (first t).1 (by
        rw [hext.top]
        exact ht.trans_le hext.opened)
      rw [hsame t _ hext] at hext'
      exact ⟨hexit', hext.trans hext' (hown t ht)⟩

theorem next (hfirst : Extending (fun _ => []) exit first)
    (hsecond : exit = .returned → Extending (fun _ => []) exit' second) :
    Extending (fun _ => []) (exit.andThen exit') (first.andThen second) :=
  hfirst.andThen (by simp) (fun _ _ _ => rfl) hsecond

theorem nextOwn (hfirst : Extending (fun _ => []) exit first)
    (hsecond : exit = .returned → Extending ownContext exit' second) :
    Extending ownContext (exit.andThen exit') (first.andThen second) :=
  hfirst.andThen (fun _ ht => by simpa [ownContext] using ht)
    (fun t t' h => by rw [ownContext, h.top, ownContext]) hsecond

theorem recordRead (hbody : Extending (fun _ => []) exit body) :
    Extending ownContext exit
      (.reading fun t => body.andThen (.act (Tally.record t.top))) := by
  intro t ht
  obtain ⟨hexit, hext⟩ := hbody t ht
  rw [Run.reading_apply]
  cases exit with
  | bailed =>
      rw [Run.andThen_of_bailed hexit]
      exact ⟨rfl, hext.mono⟩
  | returned =>
      rw [Run.andThen_of_returned hexit]
      exact ⟨rfl, hext.trans (.record t.top)
        (by simpa [ownContext] using ht)⟩

theorem frame (hbody : Extending (fun _ => []) exit body)
    (hrecord : Extending ownContext .returned record) :
    Extending (fun _ => []) exit ((Run.act Tally.enter).andThen <|
      body.ensuring <| record.andThen (.act Tally.leave)) := by
  intro t _
  obtain ⟨hexit, hext⟩ := hbody t.enter (Nat.lt_succ_self _)
  obtain ⟨hexit', hext'⟩ := hrecord (body t.enter).1 (by
    rw [hext.top]
    exact (Nat.lt_succ_self t.opened).trans_le hext.opened)
  have hown : ownContext (body t.enter).1 = [t.opened] := by
    rw [ownContext, hext.top]
    rfl
  rw [hown] at hext'
  rw [Run.act_andThen, Run.ensuring_state, Run.ensuring_exit,
    Run.andThen_of_returned hexit', Run.act_apply]
  exact ⟨hexit, (hext.trans hext' fun context hcontext => by
    rw [List.mem_singleton.mp hcontext]
    exact Nat.lt_succ_self _).frame⟩

theorem curlFrame (hbody : Extending (fun _ => []) .returned body) :
    Extending (fun _ => []) .returned ((Run.act Tally.enter).andThen <|
      .reading fun pushed =>
        body.andThen <| .act fun t => (t.record pushed.top).leave) := by
  intro t _
  obtain ⟨hexit, hext⟩ := hbody t.enter (Nat.lt_succ_self _)
  rw [Run.act_andThen, Run.reading_apply, Run.andThen_of_returned hexit,
    Run.act_apply]
  exact ⟨rfl, (hext.trans (.record t.opened) fun context hcontext => by
    rw [List.mem_singleton.mp hcontext]
    exact Nat.lt_succ_self _).frame⟩

end Extending

mutual
theorem Call.extending :
    ∀ call : Call, call.Clean → Extending (fun _ => []) call.exit call.tally
  | .plain body, hclean => body.extending hclean
  | .intercepted record body, hclean => by
      obtain ⟨hbody, hrecord, hexit⟩ := hclean
      have hown := record.extending hrecord
      rw [hexit] at hown
      rw [Call.exit, hexit]
      exact .frame (body.extending hbody) hown
  | .curlExec _ body, hclean => by
      obtain ⟨hbody, hexit⟩ := hclean
      have hreturned := body.extending hbody
      rw [hexit] at hreturned
      rw [Call.exit, hexit]
      exact .curlFrame hreturned
  | .curlExecRejected _, hclean => hclean.elim
  | .curlSetopt _, _ => .skip
  | .curlSetoptArray _, _ => .skip
  | .curlReset _, _ => .skip
  | .elapse _, _ => .skip

theorem Record.extending : ∀ record : Record, record.Clean →
    Extending ownContext record.exit record.tally
  | .silent calls, hclean => (calls.extending hclean).own
  | .span before after, hclean =>
      (before.extending hclean.1).nextOwn fun hexit =>
        .recordRead (after.extending (hclean.2 hexit))
  | .multiAdd _, _ => fun _ _ => ⟨rfl, rfl, le_refl _, [],
      (List.append_nil _).symm, .nil, by simp⟩
  | .multiRemove handle, _ => fun t _ => by
      refine ⟨rfl, ?_⟩
      rw [Record.tally, Run.act_apply]
      split
      · exact .record t.top
      · exact .refl

theorem CallSeq.extending : ∀ calls : CallSeq, calls.Clean →
    Extending (fun _ => []) calls.exit calls.tally
  | .done, _ => .skip
  | .bailout, _ => fun _ _ => ⟨rfl, .refl⟩
  | .next call rest, hclean =>
      (call.extending hclean.1).next fun hexit =>
        rest.extending (hclean.2 hexit)
end

theorem phasesTally_extends {phases : List CallSeq}
    (hclean : ∀ phase ∈ phases, phase.Clean) {t : Tally}
    (ht : t.top < t.opened) : Tally.Extends [] t (phasesTally phases t) := by
  induction phases generalizing t with
  | nil => exact .refl
  | cons phase phases ih =>
      rw [List.forall_mem_cons] at hclean
      have hext := (phase.extending hclean.1 t ht).2
      exact hext.trans (ih hclean.2 (by
        rw [hext.top]
        exact ht.trans_le hext.opened)) (by simp)

end Molten.Request
