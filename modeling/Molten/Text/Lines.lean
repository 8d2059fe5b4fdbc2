import Molten.Text.Block

namespace Molten.Text.Block

/-! The lines of a text, each of which a line break ends. -/

def splitLines : Block → List Block
  | [] => []
  | byte :: text =>
      if byte = 10 then [] :: splitLines text
      else
        match splitLines text with
        | [] => [[byte]]
        | line :: lines => (byte :: line) :: lines

def joinLines (lines : List Block) : Block :=
  lines.flatMap fun line => line ++ [10]

/-- No line is left without its line break. -/
def Ended (text : Block) : Prop := ∀ byte ∈ text.getLast?, byte = 10

theorem ended_nil : Ended [] := by
  intro byte last
  cases last

theorem Ended.tail {byte : UInt8} {text : Block}
    (ended : Ended (byte :: text)) : Ended text := by
  cases text with
  | nil => exact ended_nil
  | cons next text =>
      rw [Ended, List.getLast?_cons_cons] at ended
      exact ended

theorem splitLines_ne_nil {text : Block} (nonempty : text ≠ []) :
    splitLines text ≠ [] := by
  cases text with
  | nil => exact (nonempty rfl).elim
  | cons byte text =>
      rw [splitLines]
      split
      · exact List.cons_ne_nil _ _
      · split <;> exact List.cons_ne_nil _ _

theorem splitLines_cons {byte : UInt8} (other : byte ≠ 10) {text : Block}
    {line : Block} {lines : List Block}
    (rest : splitLines text = line :: lines) :
    splitLines (byte :: text) = (byte :: line) :: lines := by
  rw [splitLines, if_neg other, rest]

theorem splitLines_append {text : Block} (ended : Ended text) (rest : Block) :
    splitLines (text ++ rest) = splitLines text ++ splitLines rest := by
  induction text with
  | nil => rfl
  | cons byte text induction =>
      have behind := induction ended.tail
      by_cases newline : byte = 10
      · rw [List.cons_append, splitLines, splitLines, if_pos newline,
          if_pos newline, behind]
        rfl
      · have nonempty : text ≠ [] := by
          rintro rfl
          exact newline (ended byte rfl)
        obtain ⟨line, lines, first⟩ :=
          List.exists_cons_of_ne_nil (splitLines_ne_nil nonempty)
        rw [List.cons_append, splitLines_cons newline first]
        rw [first] at behind
        exact splitLines_cons newline behind

theorem splitLines_line {line : Block} (single : (10 : UInt8) ∉ line)
    (rest : Block) :
    splitLines (line ++ 10 :: rest) = line :: splitLines rest := by
  induction line with
  | nil => exact if_pos rfl
  | cons byte line induction =>
      simp only [List.mem_cons, not_or] at single
      exact splitLines_cons (Ne.symm single.1) (induction single.2)

theorem splitLines_joinLines {lines : List Block}
    (single : ∀ line ∈ lines, (10 : UInt8) ∉ line) :
    splitLines (joinLines lines) = lines := by
  induction lines with
  | nil => rfl
  | cons line lines induction =>
      have rest := induction fun other member =>
        single other (List.mem_cons_of_mem line member)
      have shape : joinLines (line :: lines) =
          line ++ 10 :: joinLines lines := by simp [joinLines]
      rw [shape, splitLines_line (single line List.mem_cons_self), rest]

theorem ended_append {first second : Block} (left : Ended first)
    (right : Ended second) : Ended (first ++ second) := by
  intro byte last
  rw [List.getLast?_append] at last
  cases behind : second.getLast? with
  | none =>
      rw [behind] at last
      exact left byte last
  | some other =>
      rw [behind] at last
      cases last
      exact right byte behind

theorem ended_joinLines (lines : List Block) : Ended (joinLines lines) := by
  induction lines with
  | nil => exact ended_nil
  | cons line lines induction =>
      refine ended_append ?_ induction
      intro byte last
      rw [List.getLast?_append] at last
      cases last
      rfl

end Molten.Text.Block
