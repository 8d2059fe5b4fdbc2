import Molten.Text.CString

namespace Molten.Span

open Molten.Text

/-! Span ids. -/

/-- Whether the extension was built with `USE_LEVEL_ID`. -/
inductive IdBuild
  | level
  | random
  deriving DecidableEq, Repr

inductive AnType
  | server
  | client
  deriving DecidableEq, Repr

/-- An element of the span stack.  Only the level build has, and reads, the
counter. -/
structure SpanContext where
  spanId : String
  spanCount : Nat
  deriving DecidableEq, Repr

/-- The span stack, top first, and the process-wide counter of
`build_span_id_random`. -/
structure SpanState where
  stack : List SpanContext
  step : Nat
  deriving DecidableEq, Repr

def maxSpansLen : Nat := 5

/-- The id drawn when the counter stands at `step`. -/
def buildSpanIdRandom (step : Nat) : String :=
  cutToBuffer (8 * 2 + 1) (intText step)

def buildSpanIdLevel (parentSpanId : Option String) (spanCount : Nat) :
    String :=
  match parentSpanId with
  | some parent =>
      cutToBuffer (2 + maxSpansLen + parent.toList.length)
        (parent ++ "." ++ intText spanCount)
  | none => "1"

namespace SpanState

def ids (state : SpanState) : List String :=
  state.stack.map SpanContext.spanId

def initSpanContext (state : SpanState) : SpanState :=
  { state with stack := [] }

def pushSpanContext (build : IdBuild) (state : SpanState) : SpanState :=
  match build with
  | .level =>
      match state.stack with
      | parent :: below =>
          let spanId := buildSpanIdLevel (some parent.spanId) parent.spanCount
          { state with
            stack := ⟨spanId, 1⟩ ::
              { parent with spanCount := parent.spanCount + 1 } :: below }
      | [] => { state with stack := [⟨buildSpanIdLevel none 0, 1⟩] }
  | .random =>
      { stack := ⟨buildSpanIdRandom state.step, 1⟩ :: state.stack
        step := state.step + 1 }

def pushSpanContextWithId (build : IdBuild) (spanId : String)
    (state : SpanState) : SpanState :=
  match build, state.stack with
  | .level, parent :: below =>
      { state with
        stack := ⟨spanId, 1⟩ ::
          { parent with spanCount := parent.spanCount + 1 } :: below }
  | _, stack => { state with stack := ⟨spanId, 1⟩ :: stack }

def popSpanContext (state : SpanState) : SpanState :=
  { state with stack := state.stack.tail }

def retrieveSpanId (state : SpanState) : Option String :=
  state.stack.head?.map SpanContext.spanId

def retrieveParentSpanId (state : SpanState) : Option String :=
  state.stack.tail.head?.map SpanContext.spanId

def nextSpanId (build : IdBuild) (state : SpanState) : String :=
  match build with
  | .level =>
      match state.stack with
      | parent :: _ => buildSpanIdLevel (some parent.spanId) parent.spanCount
      | [] => buildSpanIdLevel none 0
  | .random => buildSpanIdRandom state.step

@[simp] theorem ids_initSpanContext (state : SpanState) :
    state.initSpanContext.ids = [] := rfl

@[simp] theorem ids_pushSpanContext (build : IdBuild) (state : SpanState) :
    (state.pushSpanContext build).ids =
      state.nextSpanId build :: state.ids := by
  obtain ⟨stack, step⟩ := state
  cases build <;> cases stack <;> rfl

@[simp] theorem ids_pushSpanContextWithId (build : IdBuild) (spanId : String)
    (state : SpanState) :
    (state.pushSpanContextWithId build spanId).ids = spanId :: state.ids := by
  obtain ⟨stack, step⟩ := state
  cases build <;> cases stack <;> rfl

@[simp] theorem ids_popSpanContext (state : SpanState) :
    state.popSpanContext.ids = state.ids.tail := by
  simp [ids, popSpanContext]

theorem retrieveSpanId_eq (state : SpanState) :
    state.retrieveSpanId = state.ids.head? := by
  simp [retrieveSpanId, ids]

theorem retrieveParentSpanId_eq (state : SpanState) :
    state.retrieveParentSpanId = state.ids.tail.head? := by
  simp [retrieveParentSpanId, ids, ← List.map_tail]

theorem retrieveSpanId_of_ids {state : SpanState} {own : String}
    {below : List String} (h : state.ids = own :: below) :
    state.retrieveSpanId = some own := by
  rw [retrieveSpanId_eq, h]
  rfl

theorem retrieveParentSpanId_of_ids {state : SpanState} {own parent : String}
    {below : List String} (h : state.ids = own :: parent :: below) :
    state.retrieveParentSpanId = some parent := by
  rw [retrieveParentSpanId_eq, h]
  rfl

end SpanState

theorem buildSpanIdRandom_eq_intText (step : Nat) :
    buildSpanIdRandom step = intText step :=
  cutToBuffer_eq_self ((length_intText_le step).trans (by decide))

theorem buildSpanIdRandom_eq_iff {first second : Nat} :
    buildSpanIdRandom first = buildSpanIdRandom second ↔
      first % 2 ^ 32 = second % 2 ^ 32 := by
  rw [buildSpanIdRandom_eq_intText, buildSpanIdRandom_eq_intText,
    intText_eq_iff]

end Molten.Span
