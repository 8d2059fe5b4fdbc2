import Mathlib.Algebra.BigOperators.Ring.Finset
import Mathlib.Algebra.Order.BigOperators.Group.Finset
import Mathlib.Algebra.Order.Ring.Int
import Mathlib.Data.Fintype.BigOperators
import Mathlib.Data.List.Range
import Mathlib.Tactic.Linarith
import Mathlib.Tactic.Ring

namespace Molten.Data

/-! Smooth weighted rotation.  In each turn every candidate is credited its
weight, and a candidate with the greatest credit is served and pays the
total. -/

structure Rotation (ι : Type*) where
  weight : ι → ℤ
  pick : (ι → ℤ) → ι
  credit_le_pick : ∀ (credit : ι → ℤ) (i : ι), credit i ≤ credit (pick credit)

namespace Rotation

variable {ι : Type*} [Fintype ι] [DecidableEq ι] (rotation : Rotation ι)

def total : ℤ := ∑ i, rotation.weight i

def raise (credit : ι → ℤ) : ι → ℤ := fun i => credit i + rotation.weight i

def served (credit : ι → ℤ) : ι := rotation.pick (rotation.raise credit)

def advance (credit : ι → ℤ) : ι → ℤ := fun i =>
  rotation.raise credit i -
    if i = rotation.served credit then rotation.total else 0

def credit : ℕ → ι → ℤ
  | 0 => 0
  | t + 1 => rotation.advance (credit t)

def turn (t : ℕ) : ι := rotation.served (rotation.credit t)

def turns (t : ℕ) : List ι := (List.range t).map rotation.turn

@[simp] theorem credit_zero : rotation.credit 0 = 0 := rfl

theorem credit_succ (t : ℕ) (i : ι) :
    rotation.credit (t + 1) i = rotation.credit t i + rotation.weight i -
      if i = rotation.turn t then rotation.total else 0 := rfl

@[simp] theorem turns_zero : rotation.turns 0 = [] := rfl

theorem turns_succ (t : ℕ) :
    rotation.turns (t + 1) = rotation.turns t ++ [rotation.turn t] := by
  simp [turns, List.range_succ]

theorem take_turns {s t : ℕ} (h : s ≤ t) :
    (rotation.turns t).take s = rotation.turns s := by
  rw [turns, ← List.map_take, List.take_range, min_eq_left h, turns]

theorem credit_eq (t : ℕ) (i : ι) :
    rotation.credit t i =
      t * rotation.weight i - rotation.total * (rotation.turns t).count i := by
  induction t with
  | zero => simp
  | succ t ih =>
      rw [credit_succ, ih, turns_succ, List.count_append,
        List.count_singleton]
      by_cases hi : i = rotation.turn t
      · simp only [hi, if_true, BEq.rfl]
        push_cast
        ring
      · have hne : (rotation.turn t == i) = false :=
          beq_eq_false_iff_ne.mpr (Ne.symm hi)
        simp only [hi, hne, if_false, Bool.false_eq_true, add_zero, sub_zero]
        push_cast
        ring

theorem sum_credit (t : ℕ) : ∑ i, rotation.credit t i = 0 := by
  induction t with
  | zero => simp
  | succ t ih =>
      simp only [credit_succ, Finset.sum_sub_distrib, Finset.sum_add_distrib,
        ih, Finset.sum_ite_eq', Finset.mem_univ, if_true]
      exact sub_eq_zero.mpr (zero_add _)

/-- Who is served has credit, since together all have the total. -/
theorem raise_turn_pos (htotal : 0 < rotation.total) (t : ℕ) :
    0 < rotation.raise (rotation.credit t) (rotation.turn t) := by
  by_contra hle
  have hnonpos : ∀ i ∈ Finset.univ,
      rotation.raise (rotation.credit t) i ≤ 0 := fun i _ =>
    (rotation.credit_le_pick _ i).trans (not_lt.mp hle)
  have hsum : ∑ i, rotation.raise (rotation.credit t) i = rotation.total := by
    simp only [raise, Finset.sum_add_distrib, sum_credit, zero_add, total]
  have := Finset.sum_nonpos hnonpos
  omega

section Bounds

variable (hweight : ∀ i, 0 ≤ rotation.weight i)
  (htotal : 0 < rotation.total)

include hweight htotal

theorem neg_total_lt_credit (t : ℕ) (i : ι) :
    -rotation.total < rotation.credit t i := by
  induction t with
  | zero => simpa using htotal
  | succ t ih =>
      rw [credit_succ]
      have := hweight i
      split
      · rename_i hi
        have hpos := rotation.raise_turn_pos htotal t
        rw [raise, ← hi] at hpos
        omega
      · omega

theorem credit_le (t : ℕ) (i : ι) :
    rotation.credit t i ≤ (Fintype.card ι - 1) * rotation.total := by
  have hothers : ∑ j ∈ Finset.univ.erase i, -rotation.credit t j ≤
      ∑ _j ∈ Finset.univ.erase i, rotation.total :=
    Finset.sum_le_sum fun j _ => by
      have := rotation.neg_total_lt_credit hweight htotal t j
      omega
  have hcard : ((Finset.univ.erase i).card : ℤ) = Fintype.card ι - 1 := by
    rw [Finset.card_erase_of_mem (Finset.mem_univ i), Finset.card_univ,
      Nat.cast_sub (Fintype.card_pos_iff.mpr ⟨i⟩), Nat.cast_one]
  rw [Finset.sum_neg_distrib, Finset.sum_const, nsmul_eq_mul, hcard]
    at hothers
  have hsum := Finset.add_sum_erase Finset.univ (rotation.credit t)
    (Finset.mem_univ i)
  rw [sum_credit] at hsum
  omega

theorem raise_le (t : ℕ) (i : ι) :
    rotation.raise (rotation.credit t) i ≤
      Fintype.card ι * rotation.total := by
  have hcredit := rotation.credit_le hweight htotal t i
  have hweight_le : rotation.weight i ≤ rotation.total :=
    Finset.single_le_sum (fun j _ => hweight j) (Finset.mem_univ i)
  rw [raise]
  linarith

theorem count_turns_lt (t : ℕ) (i : ι) :
    (rotation.turns t).count i * rotation.total <
      t * rotation.weight i + rotation.total := by
  have := rotation.neg_total_lt_credit hweight htotal t i
  rw [credit_eq] at this
  linarith

/-- After a multiple of the total every credit is a multiple of it, and above
its negative: none is positive, since they add up to nothing. -/
theorem credit_of_dvd {t : ℕ} (hdvd : rotation.total ∣ t) :
    rotation.credit t = 0 := by
  have hnonneg : ∀ i ∈ Finset.univ, 0 ≤ rotation.credit t i := by
    intro i _
    obtain ⟨rounds, hrounds⟩ := hdvd
    have hlow := rotation.neg_total_lt_credit hweight htotal t i
    rw [credit_eq, hrounds, mul_assoc, ← mul_sub] at hlow ⊢
    have : -1 < rounds * rotation.weight i - (rotation.turns t).count i :=
      lt_of_mul_lt_mul_left (by rwa [mul_neg_one]) htotal.le
    exact mul_nonneg htotal.le (by omega)
  funext i
  exact (Finset.sum_eq_zero_iff_of_nonneg hnonneg).mp
    (rotation.sum_credit t) i (Finset.mem_univ i)

theorem credit_add_total {period : ℕ} (hperiod : period = rotation.total)
    (t : ℕ) : rotation.credit (period + t) = rotation.credit t := by
  induction t with
  | zero =>
      exact rotation.credit_of_dvd hweight htotal (dvd_of_eq hperiod.symm)
  | succ t ih => exact congrArg rotation.advance ih

theorem count_turns_add_total {period : ℕ} (hperiod : period = rotation.total)
    (start : ℕ) (i : ι) :
    ((rotation.turns (period + start)).count i : ℤ) =
      (rotation.turns start).count i + rotation.weight i := by
  have hcredit := congrFun
    (rotation.credit_add_total hweight htotal hperiod start) i
  rw [credit_eq, credit_eq, Nat.cast_add, hperiod] at hcredit
  refine mul_left_cancel₀ htotal.ne' ?_
  linarith

/-- In as many turns in a row as the weights add up to, each candidate is
served as often as its weight says. -/
theorem count_window {period : ℕ} (hperiod : period = rotation.total)
    {start t : ℕ} (hstart : start + period ≤ t) (i : ι) :
    ((((rotation.turns t).drop start).take period).count i : ℤ) =
      rotation.weight i := by
  have hcount := rotation.count_turns_add_total hweight htotal hperiod start i
  rw [add_comm period start, ← rotation.take_turns hstart,
    ← rotation.take_turns (le_of_add_le_left hstart), List.take_add,
    List.count_append, Nat.cast_add] at hcount
  exact add_left_cancel hcount

end Bounds

end Rotation

end Molten.Data
