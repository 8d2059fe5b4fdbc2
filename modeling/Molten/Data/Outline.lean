import Mathlib.Data.List.Lex
import Mathlib.Order.Basic

namespace Molten.Data

/-! Numbering the entries of an outline while it is written, as in `1.3.2`. -/

/-- A position in an outline being written: how many entries the innermost open
entry has so far, and the ordinals leading to it, innermost first. -/
structure Outline where
  count : Nat
  trail : List Nat
  deriving DecidableEq, Repr

namespace Outline

inductive Move
  | enter
  | leave
  deriving DecidableEq, Repr

def start : Outline := ⟨0, []⟩

def ordinal (outline : Outline) : Nat := outline.count + 1

/-- The ordinals, outermost first, that number the next entry. -/
def place (outline : Outline) : List Nat :=
  outline.trail.reverse ++ [outline.ordinal]

def enter (outline : Outline) : Outline :=
  ⟨0, outline.ordinal :: outline.trail⟩

def leave (outline : Outline) : Outline :=
  match outline.trail with
  | [] => outline
  | ordinal :: trail => ⟨ordinal, trail⟩

def move (outline : Outline) : Move → Outline
  | .enter => outline.enter
  | .leave => outline.leave

def places (outline : Outline) : List Move → List (List Nat)
  | [] => []
  | .enter :: moves => outline.place :: places outline.enter moves
  | .leave :: moves => places outline.leave moves

def ordinals (outline : Outline) : List Move → List Nat
  | [] => []
  | .enter :: moves => outline.ordinal :: ordinals outline.enter moves
  | .leave :: moves => ordinals outline.leave moves

theorem place_enter (outline : Outline) :
    outline.enter.place = outline.place ++ [1] := by
  simp [place, enter, ordinal]

theorem place_lt_enter (outline : Outline) :
    outline.place < outline.enter.place := by
  rw [place_enter]
  have hlt : outline.place ++ [] < outline.place ++ [1] :=
    List.append_left_lt (List.nil_lt_cons 1 [])
  simpa using hlt

theorem place_le_leave (outline : Outline) :
    outline.place ≤ outline.leave.place := by
  obtain ⟨count, trail⟩ := outline
  cases trail with
  | nil => exact le_refl _
  | cons ordinal trail =>
      refine le_of_lt ?_
      have htail : ordinal :: [count + 1] < [ordinal + 1] :=
        List.cons_lt_cons_iff.mpr (.inl (Nat.lt_succ_self ordinal))
      have hlt : trail.reverse ++ ordinal :: [count + 1] <
          trail.reverse ++ [ordinal + 1] := List.append_left_lt htail
      simpa [place, leave, Outline.ordinal] using hlt

theorem place_le_of_mem_places {outline : Outline} {moves : List Move}
    {place : List Nat} (h : place ∈ outline.places moves) :
    outline.place ≤ place := by
  induction moves generalizing outline with
  | nil => simp [places] at h
  | cons first moves ih =>
      cases first with
      | enter =>
          simp only [places, List.mem_cons] at h
          rcases h with rfl | h
          · exact le_refl _
          · exact (le_of_lt outline.place_lt_enter).trans (ih h)
      | leave =>
          exact outline.place_le_leave.trans (ih (by simpa [places] using h))

theorem places_pairwise_lt (outline : Outline) (moves : List Move) :
    (outline.places moves).Pairwise (· < ·) := by
  induction moves generalizing outline with
  | nil => simp [places]
  | cons first moves ih =>
      cases first with
      | enter =>
          rw [places, List.pairwise_cons]
          refine ⟨fun place hplace => ?_, ih _⟩
          exact outline.place_lt_enter.trans_le (place_le_of_mem_places hplace)
      | leave => exact ih _

theorem places_nodup (outline : Outline) (moves : List Move) :
    (outline.places moves).Nodup :=
  (outline.places_pairwise_lt moves).imp fun h => ne_of_lt h

end Outline

/-! Numbers as dotted decimal text. -/

def dottedChars (path : List Nat) : List Char :=
  path.flatMap fun ordinal => '.' :: (toString ordinal).toList

def dotted (root : String) (path : List Nat) : String :=
  path.foldl (fun text ordinal => text ++ "." ++ toString ordinal) root

theorem dotted_concat (root : String) (path : List Nat) (ordinal : Nat) :
    dotted root (path ++ [ordinal]) =
      dotted root path ++ "." ++ toString ordinal := by
  simp [dotted]

theorem toList_dotted (root : String) (path : List Nat) :
    (dotted root path).toList = root.toList ++ dottedChars path := by
  induction path generalizing root with
  | nil => simp [dotted, dottedChars]
  | cons ordinal path ih =>
      have hstep : dotted root (ordinal :: path) =
          dotted (root ++ "." ++ toString ordinal) path := rfl
      rw [hstep, ih]
      simp [dottedChars]

theorem toList_toString (number : Nat) :
    (toString number).toList = Nat.toDigits 10 number := by
  rw [Nat.toString_eq_repr, Nat.toList_repr]

theorem toList_toString_inj {first second : Nat}
    (h : (toString first).toList = (toString second).toList) :
    first = second := by
  rw [toList_toString, toList_toString] at h
  simpa using congrArg (fun digits => Nat.ofDigitChars 10 digits 0) h

theorem toString_injective : Function.Injective (toString : Nat → String) :=
  fun _ _ h => toList_toString_inj (congrArg String.toList h)

theorem dot_notMem_toString (number : Nat) :
    '.' ∉ (toString number).toList := by
  intro h
  rw [toList_toString] at h
  have hdigit : '.'.isDigit :=
    Nat.isDigit_of_mem_toDigits (b := 10) (by decide) (by decide) h
  exact absurd hdigit (by decide)

/-- A run free of the separator is determined by what follows it. -/
private theorem append_inj_of_separator {separator : Char}
    {first second firstRest secondRest : List Char}
    (hfirst : separator ∉ first) (hsecond : separator ∉ second)
    (hfirstRest : ∀ c ∈ firstRest.head?, c = separator)
    (hsecondRest : ∀ c ∈ secondRest.head?, c = separator)
    (h : first ++ firstRest = second ++ secondRest) :
    first = second ∧ firstRest = secondRest := by
  induction first generalizing second with
  | nil =>
      cases second with
      | nil => exact ⟨rfl, h⟩
      | cons c second =>
          rw [List.nil_append] at h
          rw [h] at hfirstRest
          exact absurd (hfirstRest c rfl) (by grind)
  | cons c first ih =>
      cases second with
      | nil =>
          rw [List.nil_append] at h
          rw [← h] at hsecondRest
          exact absurd (hsecondRest c rfl) (by grind)
      | cons d second =>
          simp only [List.cons_append, List.cons.injEq] at h
          obtain ⟨rfl, h⟩ := h
          obtain ⟨rfl, hrest⟩ := ih (by grind) (by grind) h
          exact ⟨rfl, hrest⟩

private theorem head?_dottedChars (path : List Nat) :
    ∀ c ∈ (dottedChars path).head?, c = '.' := by
  cases path <;> simp [dottedChars]

theorem dottedChars_injective : Function.Injective dottedChars := by
  intro first second h
  induction first generalizing second with
  | nil => cases second <;> simp_all [dottedChars]
  | cons ordinal first ih =>
      cases second with
      | nil => simp [dottedChars] at h
      | cons other second =>
          have h' : (toString ordinal).toList ++ dottedChars first =
              (toString other).toList ++ dottedChars second := by
            simpa [dottedChars] using h
          obtain ⟨hordinal, hrest⟩ := append_inj_of_separator
            (dot_notMem_toString ordinal) (dot_notMem_toString other)
            (head?_dottedChars first) (head?_dottedChars second) h'
          rw [toList_toString_inj hordinal, ih hrest]

theorem dotted_injective (root : String) :
    Function.Injective (dotted root) := by
  intro first second h
  have h' := congrArg String.toList h
  rw [toList_dotted, toList_dotted, List.append_cancel_left_eq] at h'
  exact dottedChars_injective h'

end Molten.Data
