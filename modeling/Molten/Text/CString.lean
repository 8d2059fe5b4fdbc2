import Mathlib.Algebra.Group.Int.Defs
import Mathlib.Algebra.Group.Nat.Defs
import Mathlib.Data.List.TakeWhile
import Molten.Data.Outline

namespace Molten.Text

open Molten.Data

/-! C text.  A `char *` is a `String` without NUL, one character a byte. -/

/-- `strncmp(text, start, strlen(start)) == 0`. -/
def startsWith (text start : String) : Bool :=
  start.toList.isPrefixOf text.toList

/-- The bytes `strncpy` keeps in a field of `len` bytes. -/
def copyToField (len : Nat) (text : String) : String :=
  String.ofList (text.toList.take len)

def isSpace (c : Char) : Bool :=
  c == ' ' || ('\t' ≤ c && c ≤ '\r')

def leadingDigits (chars : List Char) : Nat :=
  Nat.ofDigitChars 10 (chars.takeWhile Char.isDigit) 0

def atoi (text : String) : Int :=
  match text.toList.dropWhile isSpace with
  | '-' :: chars => -leadingDigits chars
  | '+' :: chars => leadingDigits chars
  | chars => leadingDigits chars

/-- What a buffer of `len` bytes holds once its last byte is set to NUL. -/
def cutToBuffer (len : Nat) (text : String) : String :=
  String.ofList (text.toList.take (len - 1))

/-- `sprintf("%d")` of an `int` that was incremented `count` times from 0. -/
def intText (count : Nat) : String :=
  toString ((count : Int).bmod (2 ^ 32))

/-- `sprintf("%ld")` of a `long`. -/
def printLong (value : Int) : String :=
  toString (value.bmod (2 ^ 64))

@[simp] theorem toList_cutToBuffer (len : Nat) (text : String) :
    (cutToBuffer len text).toList = text.toList.take (len - 1) := by
  simp [cutToBuffer]

theorem cutToBuffer_eq_self {len : Nat} {text : String}
    (h : text.toList.length ≤ len - 1) : cutToBuffer len text = text := by
  rw [← String.toList_inj, toList_cutToBuffer, List.take_of_length_le h]

theorem bmod_eq_self {count : Nat} (h : count < 2 ^ 31) :
    (count : Int).bmod (2 ^ 32) = count := by
  rw [Int.bmod_def]
  split <;> omega

theorem intText_of_lt {count : Nat} (h : count < 2 ^ 31) :
    intText count = toString count := by
  rw [intText, bmod_eq_self h]
  rfl

private theorem intToString_injective :
    Function.Injective (toString : Int → String) := by
  intro first second h
  have hsign : ∀ number other : Nat,
      toString number ≠ "-" ++ toString (other + 1) := by
    intro number other heq
    have hmem : '-' ∈ (toString number).toList := by simp [heq]
    rw [toList_toString] at hmem
    have hdigit : '-'.isDigit :=
      Nat.isDigit_of_mem_toDigits (b := 10) (by decide) (by decide) hmem
    exact absurd hdigit (by decide)
  cases first with
  | ofNat first =>
      cases second with
      | ofNat second => exact congrArg Int.ofNat (toString_injective h)
      | negSucc second => exact absurd h (hsign first second)
  | negSucc first =>
      cases second with
      | ofNat second => exact absurd h.symm (hsign second first)
      | negSucc second =>
          have h' : "-" ++ toString (first + 1) =
              "-" ++ toString (second + 1) := h
          have htext : toString (first + 1) = toString (second + 1) := by
            simpa only [← String.toList_inj, String.toList_append,
              List.append_cancel_left_eq] using h'
          have hsucc : first + 1 = second + 1 := toString_injective htext
          rw [Nat.succ.inj hsucc]

theorem intText_eq_iff {first second : Nat} :
    intText first = intText second ↔ first % 2 ^ 32 = second % 2 ^ 32 := by
  rw [intText, intText, intToString_injective.eq_iff, Int.bmod_def,
    Int.bmod_def]
  split <;> split <;> omega

theorem length_toString_le {value : Int} {digits : Nat} (hdigits : 0 < digits)
    (h : value.natAbs < 10 ^ digits) :
    (toString value).toList.length ≤ digits + 1 := by
  have hnat : ∀ number : Nat, number < 10 ^ digits →
      (toString number).toList.length ≤ digits := by
    intro number hnumber
    rw [toList_toString, Nat.length_toDigits_le_iff (by decide) hdigits]
    exact hnumber
  cases value with
  | ofNat number => exact (hnat number h).trans (Nat.le_succ _)
  | negSucc number =>
      have htext : toString (Int.negSucc number) =
          "-" ++ toString (number + 1) := rfl
      rw [htext, String.toList_append, List.length_append, Nat.add_comm]
      exact Nat.add_le_add_right (hnat (number + 1) h) 1

theorem length_intText_le (count : Nat) :
    (intText count).toList.length ≤ 11 := by
  have hlow := @Int.le_bmod count (2 ^ 32) (by decide)
  have hhigh := @Int.bmod_lt count (2 ^ 32) (by decide)
  exact @length_toString_le _ 10 (by decide) (by omega)

theorem length_printLong_le (value : Int) :
    (printLong value).toList.length ≤ 20 := by
  have hlow := @Int.le_bmod value (2 ^ 64) (by decide)
  have hhigh := @Int.bmod_lt value (2 ^ 64) (by decide)
  exact @length_toString_le _ 19 (by decide) (by omega)

/-- A digit is no space and no sign. -/
private theorem atoi_digits {text : String} {first : Char} {rest : List Char}
    (htext : text.toList = first :: rest) (hdigit : first.isDigit = true) :
    atoi text = leadingDigits text.toList := by
  have hspace : isSpace first = false := by
    simp only [Char.isDigit, isSpace, Bool.and_eq_true, decide_eq_true_eq,
      Bool.or_eq_false_iff, beq_eq_false_iff_ne, Bool.and_eq_false_iff,
      decide_eq_false_iff_not] at hdigit ⊢
    refine ⟨?_, .inr fun hle => ?_⟩
    · rintro rfl
      exact absurd hdigit.1 (by decide)
    · have hlt : ('\r' : Char).val < '0'.val := by decide
      exact absurd (UInt32.le_trans hdigit.1 hle) (UInt32.not_le.mpr hlt)
  have hdrop : text.toList.dropWhile isSpace = first :: rest := by
    rw [htext, List.dropWhile_cons_of_neg (by simp [hspace])]
  rw [atoi, hdrop, htext]
  split
  · rename_i heq
    obtain ⟨rfl, -⟩ := List.cons.inj heq
    exact absurd hdigit (by decide)
  · rename_i heq
    obtain ⟨rfl, -⟩ := List.cons.inj heq
    exact absurd hdigit (by decide)
  · rfl

private theorem leadingDigits_toString (number : Nat) :
    leadingDigits (toString number).toList = number := by
  have hall : ∀ c ∈ (toString number).toList, c.isDigit = true := by
    rw [toList_toString]
    exact fun c hc =>
      Nat.isDigit_of_mem_toDigits (by decide) (by decide) hc
  rw [leadingDigits, List.takeWhile_eq_self_iff.mpr hall, toList_toString,
    Nat.ofDigitChars_ten_toDigits]

theorem atoi_toString (number : Int) : atoi (toString number) = number := by
  cases number with
  | ofNat number =>
      have htext : toString (Int.ofNat number) = toString number := rfl
      obtain ⟨first, rest, hlist⟩ : ∃ first rest,
          (toString number).toList = first :: rest :=
        List.exists_cons_of_ne_nil (by
          rw [toList_toString]
          exact Nat.toDigits_ne_nil)
      have hdigit : first.isDigit = true := by
        have hmem : first ∈ (toString number).toList :=
          hlist ▸ List.mem_cons_self
        rw [toList_toString] at hmem
        exact Nat.isDigit_of_mem_toDigits (by decide) (by decide) hmem
      rw [htext, atoi_digits hlist hdigit, leadingDigits_toString]
      rfl
  | negSucc number =>
      have htext : (toString (Int.negSucc number)).toList =
          '-' :: (toString (number + 1)).toList := by
        have : toString (Int.negSucc number) =
            "-" ++ toString (number + 1) := rfl
        rw [this, String.toList_append]
        rfl
      rw [atoi, htext, List.dropWhile_cons_of_neg (by decide)]
      simp only [leadingDigits_toString]
      omega

theorem atoi_intText (count : Nat) :
    atoi (intText count) = (count : Int).bmod (2 ^ 32) :=
  atoi_toString _

end Molten.Text
