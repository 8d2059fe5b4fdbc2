import Molten.Chain.Header
import Mathlib.Data.List.Nodup
import Mathlib.Data.Option.Basic

namespace Molten.Chain

open Molten.Data
open Molten.Text
open Molten.Span

/-! The ids of the level build number an outline, up to the width of the buffer
they are printed into. -/

inductive StackOp
  | pushSpanContext
  | popSpanContext
  deriving DecidableEq, Repr

namespace StackOp

def move : StackOp → Outline.Move
  | .pushSpanContext => .enter
  | .popSpanContext => .leave

/-- The run never pops below the stack it starts on, which holds `depth`
contexts pushed by the run itself. -/
def neverBelow : Nat → List StackOp → Bool
  | _, [] => true
  | depth, .pushSpanContext :: ops => neverBelow (depth + 1) ops
  | 0, .popSpanContext :: _ => false
  | depth + 1, .popSpanContext :: ops => neverBelow depth ops

end StackOp

/-- One push of a run: the id it was made on, the number of pushes made on that
context so far, and the id handed out. -/
structure Handout where
  parentId : Option String
  ordinal : Nat
  spanId : Option String
  deriving DecidableEq, Repr

/-- The pushes of a run.  The outline counts the pushes on each live context and
is no part of the program. -/
def handouts (state : SpanState) (outline : Outline) :
    List StackOp → List Handout
  | [] => []
  | .pushSpanContext :: ops =>
      let after := state.pushSpanContext .level
      ⟨state.retrieveSpanId, outline.ordinal, after.retrieveSpanId⟩ ::
        handouts after outline.enter ops
  | .popSpanContext :: ops =>
      handouts state.popSpanContext outline.leave ops

def Handout.Numbered (handout : Handout) : Prop :=
  ∃ parent, handout.parentId = some parent ∧
    handout.spanId = some (parent ++ "." ++ toString handout.ordinal)

def LevelIdsSound (handed : List Handout) : Prop :=
  (∀ handout ∈ handed, handout.Numbered) ∧
    (handed.map Handout.spanId).Nodup

/-! One id. -/

theorem buildSpanIdLevel_eq_iff (parent : String) (ordinal : Nat) :
    buildSpanIdLevel (some parent) ordinal =
        parent ++ "." ++ toString ordinal ↔ ordinal ≤ 99999 := by
  have hwidth : (toString ordinal).toList.length ≤ 5 ↔ ordinal ≤ 99999 := by
    rw [toList_toString, Nat.length_toDigits_le_iff (by decide) (by decide)]
    omega
  have hlen : (2 + maxSpansLen + parent.toList.length) - 1 =
      parent.toList.length + 6 := by
    simp [maxSpansLen]
    omega
  constructor
  · intro h
    have hcut := congrArg (fun text => text.toList.length) h
    simp only [buildSpanIdLevel, toList_cutToBuffer, List.length_take, hlen,
      String.toList_append, List.length_append] at hcut
    rw [← hwidth]
    have hdot : (".".toList).length = 1 := rfl
    omega
  · intro h
    rw [buildSpanIdLevel, intText_of_lt (by omega)]
    apply cutToBuffer_eq_self
    rw [hlen, String.toList_append, String.toList_append, List.length_append,
      List.length_append]
    have hdigits := hwidth.mpr h
    have hdot : (".".toList).length = 1 := rfl
    omega

/-! The stack of a run whose ids were all printed in full. -/

/-- The contexts of an outline position, over the stack the run started on. -/
def outlineContexts (root : String) (below : List SpanContext) (count : Nat) :
    List Nat → List SpanContext
  | [] => ⟨root, count + 1⟩ :: below
  | ordinal :: trail =>
      ⟨dotted root (ordinal :: trail).reverse, count + 1⟩ ::
        outlineContexts root below ordinal trail

def AtOutline (root : String) (below : List SpanContext) (outline : Outline)
    (state : SpanState) : Prop :=
  state.stack = outlineContexts root below outline.count outline.trail

theorem AtOutline.exists_stack {root : String} {below : List SpanContext}
    {outline : Outline} {state : SpanState}
    (h : AtOutline root below outline state) :
    ∃ rest, state.stack =
        ⟨dotted root outline.trail.reverse, outline.ordinal⟩ :: rest ∧
      ∀ ordinal, ⟨dotted root outline.trail.reverse, ordinal + 1⟩ :: rest =
        outlineContexts root below ordinal outline.trail := by
  obtain ⟨count, trail⟩ := outline
  cases trail with
  | nil => exact ⟨below, h, fun _ => rfl⟩
  | cons first trail =>
      exact ⟨outlineContexts root below first trail, h, fun _ => rfl⟩

theorem AtOutline.push {root : String} {below : List SpanContext}
    {outline : Outline} {state : SpanState}
    (h : AtOutline root below outline state)
    (hwidth : outline.ordinal ≤ 99999) :
    AtOutline root below outline.enter (state.pushSpanContext .level) := by
  obtain ⟨rest, hstack, hrest⟩ := h.exists_stack
  have hid := (buildSpanIdLevel_eq_iff
    (dotted root outline.trail.reverse) outline.ordinal).mpr hwidth
  simp only [AtOutline, Outline.enter, outlineContexts,
    SpanState.pushSpanContext, hstack, hid, ← dotted_concat,
    List.reverse_cons, hrest]

theorem AtOutline.pop {root : String} {below : List SpanContext}
    {count ordinal : Nat} {trail : List Nat} {state : SpanState}
    (h : AtOutline root below ⟨count, ordinal :: trail⟩ state) :
    AtOutline root below (Outline.leave ⟨count, ordinal :: trail⟩)
      state.popSpanContext := by
  simp only [AtOutline, SpanState.popSpanContext, Outline.leave] at h ⊢
  rw [h, outlineContexts, List.tail_cons]

theorem AtOutline.retrieveSpanId {root : String} {below : List SpanContext}
    {outline : Outline} {state : SpanState}
    (h : AtOutline root below outline state) :
    state.retrieveSpanId = some (dotted root outline.trail.reverse) := by
  obtain ⟨rest, hstack, -⟩ := h.exists_stack
  simp [SpanState.retrieveSpanId, hstack]

theorem AtOutline.retrieveSpanId_push {root : String}
    {below : List SpanContext} {outline : Outline} {state : SpanState}
    (h : AtOutline root below outline state) :
    (state.pushSpanContext .level).retrieveSpanId =
      some (buildSpanIdLevel (some (dotted root outline.trail.reverse))
        outline.ordinal) := by
  obtain ⟨rest, hstack, -⟩ := h.exists_stack
  simp [SpanState.retrieveSpanId, SpanState.pushSpanContext, hstack]

/-! Whole runs. -/

theorem AtOutline.level_numbered_iff {root : String} {below : List SpanContext}
    {outline : Outline} {state : SpanState} {ops : List StackOp}
    (h : AtOutline root below outline state)
    (hbelow : StackOp.neverBelow outline.trail.length ops) :
    (∀ handout ∈ handouts state outline ops, handout.Numbered) ↔
      ∀ ordinal ∈ outline.ordinals (ops.map StackOp.move),
        ordinal ≤ 99999 := by
  induction ops generalizing outline state with
  | nil => simp [handouts, Outline.ordinals]
  | cons op ops ih =>
      cases op with
      | pushSpanContext =>
          have hfirst : Handout.Numbered ⟨state.retrieveSpanId,
              outline.ordinal,
              (state.pushSpanContext .level).retrieveSpanId⟩ ↔
              outline.ordinal ≤ 99999 := by
            rw [Handout.Numbered, h.retrieveSpanId, h.retrieveSpanId_push,
              ← buildSpanIdLevel_eq_iff (dotted root outline.trail.reverse)]
            simp
          simp only [handouts, List.mem_cons, forall_eq_or_imp, hfirst,
            List.map_cons, StackOp.move, Outline.ordinals]
          exact and_congr_right fun hwidth => ih (h.push hwidth)
            (by simpa [StackOp.neverBelow, Outline.enter] using hbelow)
      | popSpanContext =>
          obtain ⟨count, trail⟩ := outline
          cases trail with
          | nil => simp [StackOp.neverBelow] at hbelow
          | cons ordinal trail =>
              exact ih h.pop (by simpa [StackOp.neverBelow, Outline.leave]
                using hbelow)

theorem AtOutline.spanIds_eq {root : String} {below : List SpanContext}
    {outline : Outline} {state : SpanState} {ops : List StackOp}
    (h : AtOutline root below outline state)
    (hbelow : StackOp.neverBelow outline.trail.length ops)
    (hwidth : ∀ ordinal ∈ outline.ordinals (ops.map StackOp.move),
      ordinal ≤ 99999) :
    (handouts state outline ops).map Handout.spanId =
      (outline.places (ops.map StackOp.move)).map
        fun place => some (dotted root place) := by
  induction ops generalizing outline state with
  | nil => simp [handouts, Outline.places]
  | cons op ops ih =>
      cases op with
      | pushSpanContext =>
          simp only [List.map_cons, StackOp.move, Outline.ordinals,
            List.mem_cons, forall_eq_or_imp] at hwidth
          have hid := (buildSpanIdLevel_eq_iff
            (dotted root outline.trail.reverse) outline.ordinal).mpr hwidth.1
          simp only [handouts, List.map_cons, StackOp.move, Outline.places,
            h.retrieveSpanId_push, hid, ← dotted_concat, Outline.place]
          rw [ih (h.push hwidth.1)
            (by simpa [StackOp.neverBelow, Outline.enter] using hbelow)
            hwidth.2]
      | popSpanContext =>
          obtain ⟨count, trail⟩ := outline
          cases trail with
          | nil => simp [StackOp.neverBelow] at hbelow
          | cons ordinal trail =>
              exact ih h.pop (by simpa [StackOp.neverBelow, Outline.leave]
                using hbelow) (by simpa [StackOp.move, Outline.ordinals]
                using hwidth)

theorem AtOutline.sound_iff {root : String} {below : List SpanContext}
    {outline : Outline} {state : SpanState} {ops : List StackOp}
    (h : AtOutline root below outline state)
    (hbelow : StackOp.neverBelow outline.trail.length ops) :
    LevelIdsSound (handouts state outline ops) ↔
      ∀ ordinal ∈ outline.ordinals (ops.map StackOp.move),
        ordinal ≤ 99999 := by
  rw [LevelIdsSound, h.level_numbered_iff hbelow]
  refine and_iff_left_of_imp fun hwidth => ?_
  rw [h.spanIds_eq hbelow hwidth]
  exact (outline.places_nodup _).map
    ((Option.some_injective _).comp (dotted_injective root))

/-! From the stack a request starts with. -/

theorem atOutline_pushEntry (parentSpanId spanId : Option String)
    (span : SpanState) :
    ∃ root below, AtOutline root below Outline.start
      (pushEntry .level parentSpanId spanId span) := by
  obtain ⟨stack, step⟩ := span
  cases parentSpanId <;> cases spanId <;> cases stack <;>
    exact ⟨_, _, rfl⟩

def entryStack (headers : HeaderBuild) (input : RequestInput) (ip : String)
    (port : Int) (step : Nat) : SpanState :=
  (moBuildChainHeader .level input (moInitChainHeader headers ip port)
    ⟨[], step⟩).2

theorem atOutline_entryStack (headers : HeaderBuild) (input : RequestInput)
    (ip : String) (port : Int) (step : Nat) :
    ∃ root below, AtOutline root below Outline.start
      (entryStack headers input ip port step) := by
  obtain ⟨_, _, hbuild⟩ :=
    moBuildChainHeader_init headers .level input ip port ⟨[], step⟩
  rw [entryStack, hbuild]
  exact atOutline_pushEntry _ _ _

/-- Level ids follow the numbering rule and never repeat in exactly those runs
that push at most 99999 times on any one context. -/
theorem level_ids_sound_iff (headers : HeaderBuild) (input : RequestInput)
    (ip : String) (port : Int) (step : Nat) {ops : List StackOp}
    (hbelow : StackOp.neverBelow 0 ops) :
    LevelIdsSound
        (handouts (entryStack headers input ip port step) .start ops) ↔
      ∀ ordinal ∈ Outline.start.ordinals (ops.map StackOp.move),
        ordinal ≤ 99999 := by
  obtain ⟨root, below, h⟩ :=
    atOutline_entryStack headers input ip port step
  exact h.sound_iff hbelow

theorem level_ids_sound_of_three :
    LevelIdsSound (handouts
      (entryStack .molten ⟨true, fun _ => none, "", 0, 0, ""⟩ "" 0 0) .start
      [.pushSpanContext, .pushSpanContext, .popSpanContext,
        .pushSpanContext]) :=
  (level_ids_sound_iff .molten ⟨true, fun _ => none, "", 0, 0, ""⟩ "" 0 0
    (by simp [StackOp.neverBelow])).mpr (by decide)

/-! A run of siblings outgrows the buffer. -/

def siblings : Nat → List StackOp
  | 0 => []
  | count + 1 => .pushSpanContext :: .popSpanContext :: siblings count

theorem siblings_neverBelow (count : Nat) :
    StackOp.neverBelow 0 (siblings count) := by
  induction count with
  | zero => rfl
  | succ count ih => exact ih

theorem mem_ordinals_siblings {count : Nat} (hpos : 0 < count)
    (outline : Outline) :
    outline.count + count ∈
      outline.ordinals ((siblings count).map StackOp.move) := by
  induction count generalizing outline with
  | zero => exact absurd hpos (by decide)
  | succ count ih =>
      cases count with
      | zero => exact List.mem_cons_self
      | succ count =>
          have hlater := ih (Nat.succ_pos count) outline.enter.leave
          have hcount : outline.enter.leave.count = outline.count + 1 := rfl
          rw [hcount, Nat.add_right_comm] at hlater
          exact List.mem_cons_of_mem _ hlater

theorem not_sound_siblings (headers : HeaderBuild) (input : RequestInput)
    (count : Nat) (hcount : 99999 < count) :
    ¬ LevelIdsSound (handouts (entryStack headers input "" 0 0) .start
      (siblings count)) := by
  intro hsound
  obtain ⟨root, below, h⟩ := atOutline_entryStack headers input "" 0 0
  have hwidth := (h.sound_iff (siblings_neverBelow count)).mp hsound _
    (mem_ordinals_siblings (by omega) .start)
  have hstart : Outline.start.count = 0 := rfl
  omega

theorem level_ids_not_sound :
    StackOp.neverBelow 0 (siblings 100000) ∧
      ¬ LevelIdsSound (handouts
        (entryStack .molten ⟨true, fun _ => none, "", 0, 0, ""⟩ "" 0 0) .start
        (siblings 100000)) :=
  ⟨siblings_neverBelow 100000,
    not_sound_siblings .molten ⟨true, fun _ => none, "", 0, 0, ""⟩ 100000
      (by decide)⟩

end Molten.Chain
