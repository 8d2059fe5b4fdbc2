import Mathlib.Algebra.Order.Ring.Int
import Molten.Text.Format
import Molten.Text.Json

namespace Molten.Text.Format

/-! Integers in decimal, which are numbers of JSON. -/

/-- A number in decimal, as `%d` and `%.0f` print it. -/
def integer : Int → Block
  | .ofNat value => decimal value
  | .negSucc value => 45 :: decimal (value + 1)

theorem digits_decimal (value : Nat) : Json.Digits (decimal value) := by
  refine ⟨?_, fun byte member => isDigit_of_mem_decimal member⟩
  exact fun nothing => Nat.toDigits_ne_nil (List.map_eq_nil_iff.mp nothing)

/-- Only 0 is written with a leading zero. -/
theorem head_toDigits {value : Nat} (positive : 0 < value) :
    (Nat.toDigits 10 value).head? ≠ some '0' := by
  induction value using Nat.strongRecOn with
  | ind value induction =>
      rcases Nat.lt_or_ge value 10 with small | large
      · rw [Nat.toDigits_of_lt_base small]
        have digits : ∀ digit < 10, 0 < digit →
            [Nat.digitChar digit].head? ≠ some '0' := by decide
        exact digits value small positive
      · have smaller : value / 10 < value := by omega
        rw [Nat.toDigits_of_base_le (by decide) large, List.head?_append,
          Option.or_of_isSome]
        · exact induction (value / 10) smaller (by omega)
        · simp [List.isSome_head?, Nat.toDigits_ne_nil]

theorem leading_decimal (value : Nat) :
    decimal value = [48] ∨ (decimal value).head? ≠ some 48 := by
  rcases Nat.eq_zero_or_pos value with rfl | positive
  · exact .inl rfl
  · refine .inr ?_
    have head := head_toDigits positive
    rw [decimal, List.head?_map]
    intro same
    obtain ⟨digit, first, code⟩ := Option.map_eq_some_iff.mp same
    have member := List.mem_of_head? first
    have digital :=
      Nat.isDigit_of_mem_toDigits (by decide) (by decide) member
    have bounds : 48 ≤ digit.toNat ∧ digit.toNat ≤ 57 := by
      simpa [Char.isDigit, UInt32.le_iff_toNat_le] using digital
    have zero : digit.toNat = 48 := by
      have number := congrArg UInt8.toNat code
      rw [UInt8.toNat_ofNat', Nat.mod_eq_of_lt (by omega)] at number
      exact number
    have same : digit = '0' := Char.toNat_inj.mp zero
    exact head (first.trans (congrArg some same))

theorem number_integer (value : Int) : Json.Number (integer value) := by
  cases value with
  | ofNat value =>
      have number := Json.Number.mk (.inl rfl) (digits_decimal value)
        (leading_decimal value) (.inl rfl) (.inl rfl)
      simpa [integer] using number
  | negSucc value =>
      have number := Json.Number.mk (.inr rfl) (digits_decimal (value + 1))
        (leading_decimal (value + 1)) (.inl rfl) (.inl rfl)
      simpa [integer] using number

theorem length_decimal_le {value : Nat} (bound : value < 2 ^ 53) :
    (decimal value).length ≤ 16 := by
  rw [decimal, List.length_map,
    Nat.length_toDigits_le_iff (by decide) (by decide)]
  omega

theorem length_integer_le {value : Int} (bound : value.natAbs < 2 ^ 53) :
    (integer value).length ≤ 17 := by
  cases value with
  | ofNat value => exact (length_decimal_le bound).trans (by decide)
  | negSucc value => exact Nat.succ_le_succ (length_decimal_le bound)

end Molten.Text.Format
