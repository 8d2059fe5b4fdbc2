import Mathlib.Logic.Basic

namespace Molten.Control

universe u

/-! Computations over a state that either return or unwind to the nearest
handler.  The state reached so far survives an unwinding, as it does when a
`longjmp` leaves a C frame. -/

inductive Exit
  | returned
  | bailed
  deriving DecidableEq, Repr

namespace Exit

def andThen : Exit → Exit → Exit
  | .returned, next => next
  | .bailed, _ => .bailed

@[simp] theorem andThen_returned (exit : Exit) :
    exit.andThen .returned = exit := by
  cases exit <;> rfl

theorem andThen_eq_returned {first second : Exit} :
    first.andThen second = .returned ↔
      first = .returned ∧ second = .returned := by
  cases first <;> simp [andThen]

end Exit

def Run (σ : Type u) := σ → σ × Exit

namespace Run

variable {σ : Type u}

def act (change : σ → σ) : Run σ := fun s => (change s, .returned)

def skip : Run σ := act id

def bailout : Run σ := fun s => (s, .bailed)

def andThen (first second : Run σ) : Run σ := fun s =>
  match first s with
  | (t, .returned) => second t
  | (t, .bailed) => (t, .bailed)

/-- Run `cleanup` however `body` left, then leave the way `body` did.  An
unwinding inside `cleanup` is not caught. -/
def ensuring (body cleanup : Run σ) : Run σ := fun s =>
  let (t, exit) := body s
  let (t', exit') := cleanup t
  (t', exit'.andThen exit)

def reading (program : σ → Run σ) : Run σ := fun s => program s s

@[simp] theorem act_apply (change : σ → σ) (s : σ) :
    act change s = (change s, .returned) := rfl

@[simp] theorem skip_apply (s : σ) : (skip : Run σ) s = (s, .returned) := rfl

@[simp] theorem bailout_apply (s : σ) :
    (bailout : Run σ) s = (s, .bailed) := rfl

@[simp] theorem reading_apply (program : σ → Run σ) (s : σ) :
    reading program s = program s s := rfl

theorem andThen_of_returned {first : Run σ} {s : σ}
    (h : (first s).2 = .returned) (second : Run σ) :
    first.andThen second s = second (first s).1 := by
  cases hfirst : first s with
  | mk t exit =>
      rw [hfirst] at h
      cases h
      simp [andThen, hfirst]

theorem andThen_of_bailed {first : Run σ} {s : σ}
    (h : (first s).2 = .bailed) (second : Run σ) :
    first.andThen second s = ((first s).1, .bailed) := by
  cases hfirst : first s with
  | mk t exit =>
      rw [hfirst] at h
      cases h
      simp [andThen, hfirst]

@[simp] theorem act_andThen (change : σ → σ) (second : Run σ) (s : σ) :
    (act change).andThen second s = second (change s) := rfl

theorem ensuring_state (body cleanup : Run σ) (s : σ) :
    (body.ensuring cleanup s).1 = (cleanup (body s).1).1 := rfl

theorem ensuring_exit (body cleanup : Run σ) (s : σ) :
    (body.ensuring cleanup s).2 =
      (cleanup (body s).1).2.andThen (body s).2 := rfl

end Run

/-! Hoare triples whose postcondition also sees the exit. -/

section Triples

variable {σ : Type u}

def Triple (pre : σ → Prop) (program : Run σ)
    (post : Exit → σ → Prop) : Prop :=
  ∀ s, pre s → post (program s).2 (program s).1

namespace Triple

variable {pre : σ → Prop} {post : Exit → σ → Prop}

theorem weaken {pre' : σ → Prop} {post' : Exit → σ → Prop}
    {program : Run σ} (h : Triple pre program post)
    (hpre : ∀ s, pre' s → pre s)
    (hpost : ∀ exit s, post exit s → post' exit s) :
    Triple pre' program post' :=
  fun s hs => hpost _ _ (h s (hpre s hs))

theorem act {change : σ → σ}
    (h : ∀ s, pre s → post .returned (change s)) :
    Triple pre (Run.act change) post := h

theorem bailout (h : ∀ s, pre s → post .bailed s) :
    Triple pre Run.bailout post := h

theorem andThen (mid : σ → Prop) {first second : Run σ}
    (hfirst : Triple pre first fun exit s =>
      match exit with
      | .returned => mid s
      | .bailed => post .bailed s)
    (hsecond : Triple mid second post) :
    Triple pre (first.andThen second) post := by
  intro s hs
  have hs' := hfirst s hs
  cases hexit : (first s).2 with
  | returned =>
      rw [hexit] at hs'
      rw [Run.andThen_of_returned hexit]
      exact hsecond _ hs'
  | bailed =>
      rw [hexit] at hs'
      rw [Run.andThen_of_bailed hexit]
      exact hs'

theorem ensuring {body cleanup : Run σ} {left : Exit → σ → Prop}
    (hbody : Triple pre body left)
    (hcleanup : ∀ exit, Triple (left exit) cleanup
      fun exit' s => post (exit'.andThen exit) s) :
    Triple pre (body.ensuring cleanup) post := by
  intro s hs
  rw [Run.ensuring_state, Run.ensuring_exit]
  exact hcleanup _ _ (hbody s hs)

theorem reading {program : σ → Run σ}
    (h : ∀ start, Triple (fun s => s = start ∧ pre s) (program start) post) :
    Triple pre (Run.reading program) post :=
  fun s hs => h s s ⟨rfl, hs⟩

end Triple

def Invariant (inv : σ → Prop) (program : Run σ) : Prop :=
  Triple inv program fun _ s => inv s

namespace Invariant

variable {inv : σ → Prop}

theorem act {change : σ → σ} (h : ∀ s, inv s → inv (change s)) :
    Invariant inv (Run.act change) :=
  Triple.act h

theorem skip : Invariant inv (Run.skip : Run σ) :=
  Triple.act fun _ hs => hs

theorem bailout : Invariant inv (Run.bailout : Run σ) :=
  Triple.bailout fun _ hs => hs

theorem andThen {first second : Run σ}
    (hfirst : Invariant inv first) (hsecond : Invariant inv second) :
    Invariant inv (first.andThen second) :=
  Triple.andThen inv (hfirst.weaken (fun _ hs => hs) fun exit _ hs => by
    cases exit <;> exact hs) hsecond

theorem reading {program : σ → Run σ}
    (h : ∀ start, Invariant inv (program start)) :
    Invariant inv (Run.reading program) :=
  Triple.reading fun start =>
    (h start).weaken (fun _ hs => hs.2) fun _ _ hs => hs

end Invariant

end Triples

end Molten.Control
