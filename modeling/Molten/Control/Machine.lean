import Mathlib.Data.List.Infix

namespace Molten.Control

/-! Deterministic machines that read a list of inputs. -/

section Machine

variable {σ α : Type*} (next : σ → α → σ)

/-- `P` holds of every state in which an input is read, with that input. -/
def Along (P : σ → α → Prop) : σ → List α → Prop
  | _, [] => True
  | s, a :: inputs => P s a ∧ Along P (next s a) inputs

/-- `L` holds of every state that the run reaches. -/
def EveryState (L : σ → Prop) (s : σ) (inputs : List α) : Prop :=
  ∀ earlier, earlier <+: inputs → L (earlier.foldl next s)

variable {next} {P Q : σ → α → Prop} {L : σ → Prop} {s : σ}

@[simp] theorem along_nil : Along next P s [] := trivial

@[simp] theorem along_cons {a : α} {inputs : List α} :
    Along next P s (a :: inputs) ↔
      P s a ∧ Along next P (next s a) inputs := Iff.rfl

theorem along_of_forall (h : ∀ s a, P s a) (inputs : List α) :
    Along next P s inputs := by
  induction inputs generalizing s with
  | nil => trivial
  | cons a inputs ih => exact ⟨h s a, ih⟩

theorem along_of_invariant (inv : σ → Prop) (h : ∀ s a, inv s → P s a)
    (hkept : ∀ s a, inv s → inv (next s a)) (hs : inv s)
    (inputs : List α) : Along next P s inputs := by
  induction inputs generalizing s with
  | nil => trivial
  | cons a inputs ih => exact ⟨h s a hs, ih (hkept s a hs)⟩

theorem foldl_of_along (inv : σ → Prop)
    (hkept : ∀ s a, inv s → P s a → inv (next s a)) (hs : inv s)
    {inputs : List α} (h : Along next P s inputs) :
    inv (inputs.foldl next s) := by
  induction inputs generalizing s with
  | nil => exact hs
  | cons a inputs ih => exact ih (hkept s a hs h.1) h.2

theorem along_of_along (inv : σ → Prop)
    (h : ∀ s a, inv s → P s a → Q s a)
    (hkept : ∀ s a, inv s → P s a → inv (next s a)) (hs : inv s)
    {inputs : List α} (hP : Along next P s inputs) :
    Along next Q s inputs := by
  induction inputs generalizing s with
  | nil => trivial
  | cons a inputs ih => exact ⟨h s a hs hP.1, ih (hkept s a hs hP.1) hP.2⟩

/-- Two conditions on the steps agree on whole runs when they agree wherever
the invariant holds, and the steps that meet them keep the invariant. -/
theorem along_congr (inv : σ → Prop)
    (hiff : ∀ s a, inv s → (P s a ↔ Q s a))
    (hkept : ∀ s a, inv s → P s a → inv (next s a)) (hs : inv s)
    (inputs : List α) :
    Along next P s inputs ↔ Along next Q s inputs := by
  induction inputs generalizing s with
  | nil => exact Iff.rfl
  | cons a inputs ih =>
      rw [along_cons, along_cons]
      constructor
      · rintro ⟨hP, hrest⟩
        exact ⟨(hiff s a hs).mp hP, (ih (hkept s a hs hP)).mp hrest⟩
      · rintro ⟨hQ, hrest⟩
        have hP := (hiff s a hs).mpr hQ
        exact ⟨hP, (ih (hkept s a hs hP)).mpr hrest⟩

theorem along_iff (hiff : ∀ s a, P s a ↔ Q s a) {inputs : List α} :
    Along next P s inputs ↔ Along next Q s inputs := by
  obtain rfl : P = Q := by
    funext s a
    exact propext (hiff s a)
  exact Iff.rfl

/-- Two machines over the same inputs, in states that stay related. -/
theorem along_related {τ : Type*} {next' : τ → α → τ} {Q' : τ → α → Prop}
    (Related : σ → τ → Prop)
    (hiff : ∀ s t a, Related s t → (P s a ↔ Q' t a))
    (hkept : ∀ s t a, Related s t → Related (next s a) (next' t a)) {t : τ}
    (hst : Related s t) (inputs : List α) :
    Along next P s inputs ↔ Along next' Q' t inputs := by
  induction inputs generalizing s t with
  | nil => exact Iff.rfl
  | cons a inputs ih =>
      rw [along_cons, along_cons, hiff s t a hst, ih (hkept s t a hst)]

theorem everyState_cons {a : α} {inputs : List α} :
    EveryState next L s (a :: inputs) ↔
      L s ∧ EveryState next L (next s a) inputs := by
  constructor
  · intro h
    refine ⟨h [] List.nil_prefix, fun earlier hearlier => ?_⟩
    exact h (a :: earlier) (List.cons_prefix_cons.mpr ⟨rfl, hearlier⟩)
  · rintro ⟨hs, hrest⟩ earlier hearlier
    cases earlier with
    | nil => exact hs
    | cons b earlier =>
        obtain ⟨rfl, hrest'⟩ := List.cons_prefix_cons.mp hearlier
        exact hrest earlier hrest'

theorem everyState_iff {inputs : List α} :
    EveryState next L s inputs ↔
      L s ∧ Along next (fun s a => L (next s a)) s inputs := by
  induction inputs generalizing s with
  | nil => simp [EveryState]
  | cons a inputs ih => rw [everyState_cons, ih, along_cons]

end Machine

end Molten.Control
