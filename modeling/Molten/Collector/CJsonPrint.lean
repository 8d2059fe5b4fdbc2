import Mathlib.Algebra.Order.Ring.Nat
import Molten.Collector.CJsonComplete

namespace Molten.Collector.CJson

open Molten.Text

/-! The part of cJSON that prints a tree.  `number` tells what `print_number`
makes of the number that a text stands for. -/

/-- A text that was written into a new block of that size, with its NUL. -/
def compose (room : Nat) (text : Block) : Option Block :=
  if text.length < room ∧ room < 2 ^ 31 then some text else none

def hexits : Block := Block.ofString "0123456789abcdef"

def hexit (digit : Nat) : UInt8 := hexits.getD digit 48

/-- `%04x` of a byte. -/
def hex4 (token : UInt8) : Block :=
  [48, 48, hexit (token.toNat / 16), hexit (token.toNat % 16)]

def escape (token : UInt8) : Block :=
  if 31 < token ∧ token ≠ 34 ∧ token ≠ 92 then [token]
  else if token = 92 then [92, 92]
  else if token = 34 then [92, 34]
  else if token = 8 then [92, 98]
  else if token = 12 then [92, 102]
  else if token = 10 then [92, 110]
  else if token = 13 then [92, 114]
  else if token = 9 then [92, 116]
  else 92 :: 117 :: hex4 token

def tokenRoom (token : UInt8) : Nat :=
  if token ∈ ([34, 92, 8, 12, 10, 13, 9] : Block) then 2
  else if token < 32 then 6
  else 1

def needsEscape (token : UInt8) : Bool :=
  (0 < token && token < 32) || token == 34 || token == 92

def printStringPtr (text : Block) : Option Block :=
  if text.any needsEscape then
    compose ((text.map tokenRoom).sum + 3)
      (34 :: (text.flatMap escape ++ [34]))
  else compose (text.length + 3) (34 :: (text ++ [34]))

def tabs (count : Nat) : Block := List.replicate count 9

def arrayEntries (fmt : Bool) : List Block → Block
  | [] => []
  | [entry] => entry
  | entry :: entries =>
      entry ++ 44 :: ((if fmt then [32] else []) ++ arrayEntries fmt entries)

def arrayText (fmt : Bool) (entries : List Block) : Block :=
  91 :: (arrayEntries fmt entries ++ [93])

def printArray (fmt : Bool) (entries : List Block) : Option Block :=
  if entries.isEmpty then compose 3 (arrayText fmt [])
  else
    compose
      (5 + (entries.map fun entry => entry.length + 2 + fmt.toNat).sum)
      (arrayText fmt entries)

/-- A name and its value, from the tabs before them on. -/
def objectEntry (fmt : Bool) (depth : Nat) (entry : Block × Block) : Block :=
  (if fmt then tabs depth else []) ++
    (entry.1 ++ 58 :: ((if fmt then [9] else []) ++ entry.2))

def objectEntries (fmt : Bool) (depth : Nat) : List (Block × Block) → Block
  | [] => []
  | [entry] => objectEntry fmt depth entry ++ (if fmt then [10] else [])
  | entry :: entries =>
      objectEntry fmt depth entry ++
        44 :: ((if fmt then [10] else []) ++ objectEntries fmt depth entries)

/-- `depth` is that of the object, the entries are one deeper. -/
def objectText (fmt : Bool) (depth : Nat) (entries : List (Block × Block)) :
    Block :=
  123 :: ((if fmt then [10] else []) ++
    (objectEntries fmt (depth + 1) entries ++
      ((if fmt then tabs (if entries.isEmpty then depth - 1 else depth)
        else []) ++ [125])))

def printObject (fmt : Bool) (depth : Nat) (entries : List (Block × Block)) :
    Option Block :=
  if entries.isEmpty then
    compose (if fmt then depth + 4 else 3) (objectText fmt depth [])
  else
    compose
      (7 + (if fmt then depth + 1 else 0) + (entries.map fun entry =>
        entry.2.length + entry.1.length + 2 +
          (if fmt then 2 + (depth + 1) else 0)).sum)
      (objectText fmt depth entries)

section

variable (number : Block → Block) (fmt : Bool)

mutual

def printValue (depth : Nat) : Json → Option Block
  | .null => some (Block.ofString "null")
  | .bool false => some (Block.ofString "false")
  | .bool true => some (Block.ofString "true")
  | .number text => some (number text)
  | .string text => printStringPtr text
  | .array items => do
      let entries ← printItems (depth + 1) items
      printArray fmt entries
  | .object members => do
      let entries ← printMembers (depth + 1) members
      printObject fmt depth entries

def printItems (depth : Nat) : List Json → Option (List Block)
  | [] => some []
  | item :: items => do
      let entry ← printValue depth item
      let entries ← printItems depth items
      some (entry :: entries)

def printMembers (depth : Nat) :
    List (Block × Json) → Option (List (Block × Block))
  | [] => some []
  | (string, item) :: members => do
      let name ← printStringPtr string
      let entry ← printValue depth item
      let entries ← printMembers depth members
      some ((name, entry) :: entries)

end

def cJSONPrint (value : Json) : Option Block := printValue number true 0 value

def cJSONPrintUnformatted (value : Json) : Option Block :=
  printValue number false 0 value

/-! The texts, wherever they were written to. -/

def stringText (text : Block) : Block := 34 :: (text.flatMap escape ++ [34])

mutual

def valueText (depth : Nat) : Json → Block
  | .null => Block.ofString "null"
  | .bool false => Block.ofString "false"
  | .bool true => Block.ofString "true"
  | .number text => number text
  | .string text => stringText text
  | .array items => arrayText fmt (itemTexts (depth + 1) items)
  | .object members =>
      objectText fmt depth (memberTexts (depth + 1) members)

def itemTexts (depth : Nat) : List Json → List Block
  | [] => []
  | item :: items => valueText depth item :: itemTexts depth items

def memberTexts (depth : Nat) : List (Block × Json) → List (Block × Block)
  | [] => []
  | (string, item) :: members =>
      (stringText string, valueText depth item) :: memberTexts depth members

end

end

/-! Strings. -/

theorem token_cases (token : UInt8) :
    (31 < token ∧ token ≠ 34 ∧ token ≠ 92) ∨ token = 34 ∨ token = 92 ∨
      ∃ code < 32, token = UInt8.ofNat code := by
  by_cases printable : 31 < token
  · by_cases quote : token = 34
    · exact .inr (.inl quote)
    · by_cases backslash : token = 92
      · exact .inr (.inr (.inl backslash))
      · exact .inl ⟨printable, quote, backslash⟩
  · refine .inr (.inr (.inr ⟨token.toNat, ?_, UInt8.ofNat_toNat.symm⟩))
    rw [UInt8.lt_iff_toNat_lt] at printable
    have code : (31 : UInt8).toNat = 31 := rfl
    omega

theorem escape_plain {token : UInt8}
    (plain : 31 < token ∧ token ≠ 34 ∧ token ≠ 92) : escape token = [token] :=
  if_pos plain

theorem tokenRoom_plain {token : UInt8}
    (plain : 31 < token ∧ token ≠ 34 ∧ token ≠ 92) : tokenRoom token = 1 := by
  obtain ⟨printable, quote, backslash⟩ := plain
  have low : ∀ other ∈ ([8, 12, 10, 13, 9] : Block), ¬ 31 < other :=
    Block.forall_of_all rfl
  have other : token ∉ ([34, 92, 8, 12, 10, 13, 9] : Block) := by
    intro member
    rcases List.mem_cons.mp member with same | member
    · exact quote same
    · rcases List.mem_cons.mp member with same | member
      · exact backslash same
      · exact low token member printable
  have above : ¬ token < 32 := by
    rw [UInt8.lt_iff_toNat_lt] at printable ⊢
    have codes : (31 : UInt8).toNat = 31 ∧ (32 : UInt8).toNat = 32 := ⟨rfl, rfl⟩
    omega
  rw [tokenRoom, if_neg other, if_neg above]

theorem length_escape (token : UInt8) :
    (escape token).length = tokenRoom token := by
  have low : ∀ code < 32, (escape (UInt8.ofNat code)).length =
      tokenRoom (UInt8.ofNat code) := by decide
  rcases token_cases token with plain | rfl | rfl | ⟨code, small, rfl⟩
  · rw [escape_plain plain, tokenRoom_plain plain]
    rfl
  · rfl
  · rfl
  · exact low code small

theorem length_flatMap_escape (text : Block) :
    (text.flatMap escape).length = (text.map tokenRoom).sum := by
  induction text with
  | nil => rfl
  | cons token text induction =>
      rw [List.flatMap_cons, List.length_append, length_escape, induction]
      rfl

theorem escape_control : ∀ code < 32, code ∉ [8, 9, 10, 12, 13] →
    escape (UInt8.ofNat code) = 92 :: 117 :: hex4 (UInt8.ofNat code) ∧
      Json.hexNumber (hex4 (UInt8.ofNat code)) = some code ∧
      Json.utf8 code = [UInt8.ofNat code] := by
  decide

/-- One byte more, in the escape that is printed for it. -/
theorem chars_escape (token : UInt8) {decoded written : Block}
    (rest : Json.Chars decoded written) :
    Json.Chars (token :: decoded) (escape token ++ written) := by
  rcases token_cases token with plain | rfl | rfl | ⟨code, small, rfl⟩
  · rw [escape_plain plain]
    have printable : 32 ≤ token := by
      have above := plain.1
      rw [UInt8.lt_iff_toNat_lt] at above
      exact UInt8.le_iff_toNat_le.mpr above
    exact .plain printable plain.2.1 plain.2.2 rest
  · exact .escape (by decide) rest
  · exact .escape (by decide) rest
  · by_cases short : code ∈ [8, 9, 10, 12, 13]
    · simp only [List.mem_cons, List.not_mem_nil, or_false] at short
      rcases short with rfl | rfl | rfl | rfl | rfl
      all_goals exact .escape (by decide) rest
    · obtain ⟨same, number, single⟩ := escape_control code small short
      have four : (hex4 (UInt8.ofNat code)).length = 4 := rfl
      have chars := Json.Chars.unicode four number
        (.inl (small.trans (by decide))) rest
      rw [same]
      rw [single] at chars
      exact chars

theorem chars_flatMap_escape (text : Block) :
    Json.Chars text (text.flatMap escape) := by
  induction text with
  | nil => exact .nil
  | cons token text induction => exact chars_escape token induction

theorem flatMap_escape_of_plain {text : Block} (noNul : (0 : UInt8) ∉ text)
    (plain : text.any needsEscape = false) : text.flatMap escape = text := by
  induction text with
  | nil => rfl
  | cons token text induction =>
      simp only [List.mem_cons, not_or] at noNul
      simp only [List.any_cons, Bool.or_eq_false_iff] at plain
      have first : 31 < token ∧ token ≠ 34 ∧ token ≠ 92 := by
        have kept := plain.1
        simp only [needsEscape, Bool.or_eq_false_iff, Bool.and_eq_false_iff,
          decide_eq_false_iff_not, beq_eq_false_iff_ne,
          UInt8.lt_iff_toNat_lt] at kept ⊢
        have nonzero : token.toNat ≠ 0 := fun same =>
          noNul.1 (UInt8.toNat_inj.mp same).symm
        have codes : (0 : UInt8).toNat = 0 ∧ (31 : UInt8).toNat = 31 ∧
          (32 : UInt8).toNat = 32 := ⟨rfl, rfl, rfl⟩
        refine ⟨by omega, kept.1.2, kept.2⟩
      rw [List.flatMap_cons, escape_plain first, induction noNul.2 plain.2]
      rfl

/-! Sizes. -/

theorem compose_eq_some {room : Nat} {text : Block}
    (fits : text.length < room) (int : room < 2 ^ 31) :
    compose room text = some text := if_pos ⟨fits, int⟩

theorem length_stringText (text : Block) :
    (stringText text).length = (text.map tokenRoom).sum + 2 := by
  simp [stringText, ← length_flatMap_escape]

theorem printStringPtr_eq {text : Block} (noNul : (0 : UInt8) ∉ text)
    (short : (stringText text).length + 1 < 2 ^ 31) :
    printStringPtr text = some (stringText text) := by
  rw [length_stringText] at short
  rw [printStringPtr]
  split
  · exact compose_eq_some
      ((length_stringText text).trans_lt (Nat.lt_succ_self _)) short
  · rename_i plain
    have same := flatMap_escape_of_plain noNul (Bool.eq_false_iff.mpr plain)
    have length := length_flatMap_escape text
    rw [same] at length
    rw [stringText, same]
    refine compose_eq_some ?_ (by omega)
    simp

theorem length_arrayEntries (fmt : Bool) (entry : Block)
    (entries : List Block) :
    (arrayEntries fmt (entry :: entries)).length + 1 + fmt.toNat =
      ((entry :: entries).map fun entry =>
        entry.length + 1 + fmt.toNat).sum := by
  induction entries generalizing entry with
  | nil => rfl
  | cons next entries induction =>
      have rest := induction next
      have space : (if fmt then [32] else ([] : Block)).length =
          fmt.toNat := by cases fmt <;> rfl
      rw [List.map_cons, List.sum_cons, ← rest]
      simp only [arrayEntries, List.length_append, List.length_cons, space]
      omega

theorem length_objectEntry (fmt : Bool) (depth : Nat)
    (entry : Block × Block) :
    (objectEntry fmt depth entry).length +
        (if fmt then [10] else ([] : Block)).length + 1 =
      entry.2.length + entry.1.length + 2 +
        (if fmt then 2 + depth else 0) := by
  cases fmt with
  | false =>
      simp only [objectEntry, Bool.false_eq_true, if_false, List.nil_append,
        List.length_append, List.length_cons, List.length_nil]
      omega
  | true =>
      simp only [objectEntry, tabs, if_true, List.length_append,
        List.length_cons, List.length_nil, List.length_replicate]
      omega

theorem length_objectEntries (fmt : Bool) (depth : Nat)
    (entry : Block × Block) (entries : List (Block × Block)) :
    (objectEntries fmt depth (entry :: entries)).length + 1 =
      ((entry :: entries).map fun entry =>
        entry.2.length + entry.1.length + 2 +
          (if fmt then 2 + depth else 0)).sum := by
  induction entries generalizing entry with
  | nil =>
      have first := length_objectEntry fmt depth entry
      simp only [objectEntries, List.length_append, List.map_cons,
        List.map_nil, List.sum_cons, List.sum_nil]
      omega
  | cons next entries induction =>
      have rest := induction next
      have first := length_objectEntry fmt depth entry
      rw [List.map_cons, List.sum_cons, ← rest]
      simp only [objectEntries, List.length_append, List.length_cons]
      omega

theorem length_le_arrayEntries (fmt : Bool) {entry : Block}
    {entries : List Block} (member : entry ∈ entries) :
    entry.length ≤ (arrayEntries fmt entries).length := by
  induction entries with
  | nil => cases member
  | cons first entries induction =>
      cases entries with
      | nil =>
          rw [List.mem_singleton.mp member]
          exact Nat.le_refl _
      | cons next entries =>
          simp only [arrayEntries, List.length_append, List.length_cons]
          rcases List.mem_cons.mp member with rfl | member
          · omega
          · have bound := induction member
            omega

theorem length_le_objectEntries (fmt : Bool) (depth : Nat)
    {entry : Block × Block} {entries : List (Block × Block)}
    (member : entry ∈ entries) :
    (objectEntry fmt depth entry).length ≤
      (objectEntries fmt depth entries).length := by
  induction entries with
  | nil => cases member
  | cons first entries induction =>
      cases entries with
      | nil =>
          rw [List.mem_singleton.mp member]
          simp [objectEntries]
      | cons next entries =>
          simp only [objectEntries, List.length_append, List.length_cons]
          rcases List.mem_cons.mp member with rfl | member
          · omega
          · have bound := induction member
            omega

theorem sum_le_double {entries : List Block}
    (nonempty : ∀ entry ∈ entries, entry ≠ []) (extra : Nat)
    (small : extra ≤ 1) :
    (entries.map fun entry => entry.length + 2 + extra).sum ≤
      2 * (entries.map fun entry => entry.length + 1 + extra).sum := by
  induction entries with
  | nil => exact Nat.le_refl _
  | cons entry entries induction =>
      have rest := induction fun other member =>
        nonempty other (List.mem_cons_of_mem entry member)
      have first := List.length_pos_iff.mpr
        (nonempty entry List.mem_cons_self)
      simp only [List.map_cons, List.sum_cons]
      omega

theorem sum_lt_sum {entries : List Block} {entry : Block} (extra : Nat) :
    ((entry :: entries).map fun entry => entry.length + 1 + extra).sum <
      ((entry :: entries).map fun entry => entry.length + 2 + extra).sum := by
  induction entries generalizing entry with
  | nil => simp
  | cons next entries induction =>
      have rest := @induction next
      simp only [List.map_cons, List.sum_cons] at rest ⊢
      omega

theorem printArray_eq {fmt : Bool} {entries : List Block}
    (nonempty : ∀ entry ∈ entries, entry ≠ [])
    (short : 2 * (arrayText fmt entries).length + 6 < 2 ^ 31) :
    printArray fmt entries = some (arrayText fmt entries) := by
  cases entries with
  | nil => rfl
  | cons entry entries =>
      have length := length_arrayEntries fmt entry entries
      have less := @sum_lt_sum entries entry fmt.toNat
      have double := sum_le_double nonempty fmt.toNat (Bool.toNat_le fmt)
      have flag := Bool.toNat_le fmt
      have text : (arrayText fmt (entry :: entries)).length =
          (arrayEntries fmt (entry :: entries)).length + 2 := by
        simp [arrayText]
      rw [text] at short
      refine compose_eq_some ?_ ?_ <;> omega

theorem printObject_eq {fmt : Bool} {depth : Nat}
    {entries : List (Block × Block)}
    (short : 2 * (objectText fmt depth entries).length + 6 < 2 ^ 31) :
    printObject fmt depth entries = some (objectText fmt depth entries) := by
  cases entries with
  | nil =>
      cases fmt with
      | false => rfl
      | true =>
          have text : (objectText true depth []).length =
              3 + (depth - 1) := by
            simp [objectText, objectEntries, tabs]
            omega
          rw [text] at short
          refine compose_eq_some ?_ ?_
          · rw [text, if_pos rfl]
            omega
          · rw [if_pos rfl]
            omega
  | cons entry entries =>
      have length := length_objectEntries fmt (depth + 1) entry entries
      have text : (objectText fmt depth (entry :: entries)).length =
          (objectEntries fmt (depth + 1) (entry :: entries)).length + 2 +
            (if fmt then depth + 1 else 0) := by
        cases fmt with
        | false => simp [objectText]
        | true =>
            simp [objectText, tabs]
            omega
      rw [text] at short
      refine compose_eq_some ?_ ?_ <;> omega

/-! Trees. -/

section

variable (number : Block → Block) (fmt : Bool)

/-- No number is printed as nothing at all. -/
def PrintsNumber (text : Block) : Prop := number text ≠ []

theorem valueText_ne_nil {value : Json}
    (numbers : value.NumbersAre (PrintsNumber number)) (depth : Nat) :
    valueText number fmt depth value ≠ [] := by
  cases value with
  | null => exact List.cons_ne_nil _ _
  | bool value => cases value <;> exact List.cons_ne_nil _ _
  | number text => exact numbers
  | string text => exact List.cons_ne_nil _ _
  | array items => exact List.cons_ne_nil _ _
  | object members => exact List.cons_ne_nil _ _

theorem itemTexts_ne_nil {items : List Json}
    (numbers : Json.NumbersAreItems (PrintsNumber number) items)
    (depth : Nat) :
    ∀ entry ∈ itemTexts number fmt depth items, entry ≠ [] := by
  induction items with
  | nil => simp [itemTexts]
  | cons item items induction =>
      rw [itemTexts, List.forall_mem_cons]
      exact ⟨valueText_ne_nil number fmt numbers.1 depth,
        induction numbers.2⟩

/-- A text that is short enough for the `int` in which its room is counted. -/
def Short (text : Block) : Prop := 2 * text.length + 6 < 2 ^ 31

theorem Short.of_le {text part : Block} (short : Short text)
    (within : part.length ≤ text.length) : Short part := by
  rw [Short] at short ⊢
  omega

mutual

theorem printValue_eq {value : Json} (clean : value.NulFree)
    (numbers : value.NumbersAre (PrintsNumber number)) {depth : Nat}
    (short : Short (valueText number fmt depth value)) :
    printValue number fmt depth value =
      some (valueText number fmt depth value) := by
  cases value with
  | null => rfl
  | bool value => cases value <;> rfl
  | number text => rfl
  | string text =>
      rw [Short, valueText] at short
      exact printStringPtr_eq clean (by omega)
  | array items =>
      rw [valueText] at short ⊢
      rw [printValue, printItems_eq clean numbers]
      · exact printArray_eq (itemTexts_ne_nil number fmt numbers _) short
      · intro entry member
        refine short.of_le ((length_le_arrayEntries fmt member).trans ?_)
        simp only [arrayText, List.length_cons, List.length_append]
        omega
  | object members =>
      rw [valueText] at short ⊢
      rw [printValue, printMembers_eq clean numbers]
      · exact printObject_eq short
      · intro entry member
        refine short.of_le
          ((length_le_objectEntries fmt (depth + 1) member).trans ?_)
        simp only [objectText, List.length_cons, List.length_append]
        omega

theorem printItems_eq {items : List Json} (clean : Json.NulFreeItems items)
    (numbers : Json.NumbersAreItems (PrintsNumber number) items) {depth : Nat}
    (short : ∀ entry ∈ itemTexts number fmt depth items, Short entry) :
    printItems number fmt depth items =
      some (itemTexts number fmt depth items) := by
  cases items with
  | nil => rfl
  | cons item items =>
      rw [itemTexts, List.forall_mem_cons] at short
      rw [printItems, printValue_eq clean.1 numbers.1 short.1,
        printItems_eq clean.2 numbers.2 short.2]
      rfl

theorem printMembers_eq {members : List (Block × Json)}
    (clean : Json.NulFreeMembers members)
    (numbers : Json.NumbersAreMembers (PrintsNumber number) members)
    {depth : Nat}
    (short : ∀ entry ∈ memberTexts number fmt depth members,
      Short (objectEntry fmt depth entry)) :
    printMembers number fmt depth members =
      some (memberTexts number fmt depth members) := by
  cases members with
  | nil => rfl
  | cons member members =>
      obtain ⟨string, item⟩ := member
      obtain ⟨named, first, rest⟩ := clean
      rw [memberTexts, List.forall_mem_cons] at short
      have name : Short (stringText string) := short.1.of_le (by
        simp only [objectEntry, List.length_append]
        omega)
      have value : Short (valueText number fmt depth item) :=
        short.1.of_le (by
          simp only [objectEntry, List.length_append, List.length_cons]
          omega)
      rw [printMembers, printStringPtr_eq named (by rw [Short] at name; omega),
        printValue_eq first numbers.1 value,
        printMembers_eq rest numbers.2 short.2]
      rfl

end

/-! What the texts stand for. -/

theorem blank_nil : Json.Blank [] := by simp [Json.Blank]

theorem blank_append {first second : Block} (left : Json.Blank first)
    (right : Json.Blank second) : Json.Blank (first ++ second) := by
  intro byte member
  exact (List.mem_append.mp member).elim (left byte) (right byte)

theorem blank_tabs (count : Nat) : Json.Blank (tabs count) := by
  intro byte member
  rw [List.eq_of_mem_replicate member]
  rfl

theorem blank_fmt {blank : Block} (blanks : Json.Blank blank) :
    Json.Blank (if fmt then blank else []) := by
  cases fmt with
  | false => exact blank_nil
  | true => exact blanks

theorem blank_single (byte : UInt8) (blank : Json.isBlank byte = true) :
    Json.Blank [byte] := by
  intro other member
  rw [List.mem_singleton.mp member]
  exact blank

/-- What `print_number` makes of a number is one of JSON. -/
def PrintsJson (text : Block) : Prop := Json.Number (number text)

mutual

theorem valueText_written {value : Json}
    (numbers : value.NumbersAre (PrintsJson number)) (depth : Nat) :
    Json.Value (value.mapNumbers number)
      (valueText number fmt depth value) := by
  cases value with
  | null => exact .null
  | bool value =>
      cases value with
      | false => exact .false
      | true => exact .true
  | number text => exact .number numbers
  | string text => exact .string (chars_flatMap_escape text)
  | array items =>
      exact .array (itemTexts_written numbers (depth + 1) blank_nil)
  | object members =>
      have written := memberTexts_written numbers (depth + 1)
        (blank_fmt fmt (blank_single 10 rfl))
        (blank_fmt fmt (blank_tabs
          (if (memberTexts number fmt (depth + 1) members).isEmpty then
            depth - 1 else depth)))
      simpa [valueText, objectText, Json.mapNumbers] using
        Json.Value.object written

theorem itemTexts_written {items : List Json}
    (numbers : Json.NumbersAreItems (PrintsJson number) items) (depth : Nat)
    {before : Block} (blanks : Json.Blank before) :
    Json.Elements (Json.mapNumbersItems number items)
      (before ++ arrayEntries fmt (itemTexts number fmt depth items)) := by
  match items with
  | [] => exact .nil (blank_append blanks blank_nil)
  | [item] =>
      have value := valueText_written numbers.1 depth
      simpa [itemTexts, arrayEntries, Json.mapNumbersItems] using
        Json.Elements.last blanks value blank_nil
  | item :: next :: items =>
      have value := valueText_written numbers.1 depth
      have others := itemTexts_written numbers.2 depth
        (blank_fmt fmt (blank_single 32 rfl))
      exact .cons blanks value blank_nil others

theorem memberTexts_written {members : List (Block × Json)}
    (numbers : Json.NumbersAreMembers (PrintsJson number) members)
    (depth : Nat) {before after : Block} (blanks : Json.Blank before)
    (tail : Json.Blank after) :
    Json.Members (Json.mapNumbersMembers number members)
      (before ++ (objectEntries fmt depth
        (memberTexts number fmt depth members) ++ after)) := by
  have start := blank_append blanks (blank_fmt fmt (blank_tabs depth))
  match members with
  | [] => exact .nil (blank_append blanks (blank_append blank_nil tail))
  | [(string, item)] =>
      have value := valueText_written numbers.1 depth
      have written := Json.Members.last start
        (chars_flatMap_escape string) blank_nil
        (blank_fmt fmt (blank_single 9 rfl))
        value (blank_append (blank_fmt fmt (blank_single 10 rfl)) tail)
      simpa [memberTexts, objectEntries, objectEntry, stringText,
        Json.mapNumbersMembers] using written
  | (string, item) :: next :: members =>
      have value := valueText_written numbers.1 depth
      have others := memberTexts_written numbers.2 depth
        (blank_fmt fmt (blank_single 10 rfl)) tail
      have written := Json.Members.cons start
        (chars_flatMap_escape string) blank_nil
        (blank_fmt fmt (blank_single 9 rfl))
        value blank_nil others
      simpa [memberTexts, objectEntries, objectEntry, stringText,
        Json.mapNumbersMembers] using written

end

/-! Without layout there are no line breaks. -/

theorem newline_escape (token : UInt8) : (10 : UInt8) ∉ escape token := by
  have low : ∀ code < 32, (10 : UInt8) ∉ escape (UInt8.ofNat code) := by decide
  rcases token_cases token with plain | rfl | rfl | ⟨code, small, rfl⟩
  · rw [escape_plain plain]
    rintro member
    rw [← List.mem_singleton.mp member] at plain
    exact absurd plain.1 (by decide)
  · decide
  · decide
  · exact low code small

theorem newline_stringText (text : Block) : (10 : UInt8) ∉ stringText text := by
  have inner : (10 : UInt8) ∉ text.flatMap escape := by
    intro member
    obtain ⟨token, -, within⟩ := List.mem_flatMap.mp member
    exact newline_escape token within
  simp [stringText, inner]

mutual

theorem newline_valueText {value : Json}
    (numbers : value.NumbersAre fun text => (10 : UInt8) ∉ number text)
    (depth : Nat) : (10 : UInt8) ∉ valueText number false depth value := by
  have words : ∀ word ∈ ["null", "false", "true"],
      (10 : UInt8) ∉ Block.ofString word := by decide
  cases value with
  | null => exact words "null" (by decide)
  | bool value =>
      cases value with
      | false => exact words "false" (by decide)
      | true => exact words "true" (by decide)
  | number text => exact numbers
  | string text => exact newline_stringText text
  | array items =>
      simp [valueText, arrayText, newline_itemTexts numbers (depth + 1)]
  | object members =>
      simp [valueText, objectText, newline_memberTexts numbers (depth + 1)]

theorem newline_itemTexts {items : List Json}
    (numbers : Json.NumbersAreItems (fun text => (10 : UInt8) ∉ number text)
      items) (depth : Nat) :
    (10 : UInt8) ∉ arrayEntries false (itemTexts number false depth items) := by
  match items with
  | [] => simp [itemTexts, arrayEntries]
  | [item] => exact newline_valueText numbers.1 depth
  | item :: next :: items =>
      have first := newline_valueText numbers.1 depth
      have others := newline_itemTexts numbers.2 depth
      simp only [itemTexts] at others
      simp [itemTexts, arrayEntries, first, others]

theorem newline_memberTexts {members : List (Block × Json)}
    (numbers : Json.NumbersAreMembers (fun text => (10 : UInt8) ∉ number text)
      members) (depth : Nat) :
    (10 : UInt8) ∉ objectEntries false depth
      (memberTexts number false depth members) := by
  match members with
  | [] => simp [memberTexts, objectEntries]
  | [(string, item)] =>
      have first := newline_valueText numbers.1 depth
      simp [memberTexts, objectEntries, objectEntry, newline_stringText, first]
  | (string, item) :: next :: members =>
      have first := newline_valueText numbers.1 depth
      have others := newline_memberTexts numbers.2 depth
      obtain ⟨name, value⟩ := next
      simp only [memberTexts] at others
      simp [memberTexts, objectEntries, objectEntry, newline_stringText, first,
        others]

end

theorem PrintsJson.printsNumber {text : Block}
    (prints : PrintsJson number text) : PrintsNumber number text := by
  obtain ⟨byte, more, same, -⟩ := Number.head prints
  rw [PrintsNumber, same]
  exact List.cons_ne_nil _ _

/-- Every tree of C strings is printed inside of the blocks made for it, with
or without layout, and the text stands for the tree with its numbers as they
are printed. -/
theorem printValue_decodes {value : Json} (clean : value.NulFree)
    (numbers : value.NumbersAre (PrintsJson number)) {depth : Nat}
    (short : Short (valueText number fmt depth value)) :
    ∃ text, printValue number fmt depth value = some text ∧
      Json.Decodes text (value.mapNumbers number) := by
  refine ⟨_, printValue_eq number fmt clean ?_ short, [], _, [],
    (List.append_nil _).symm, blank_nil,
    valueText_written number fmt numbers depth, blank_nil⟩
  exact numbers.mono fun text => PrintsJson.printsNumber number

end

/-- An object with a number and a line break in it. -/
def nestedTree : Json :=
  .object [([97], .array [.number [49], .string [10]])]

theorem number_one : Json.Number [49] :=
  @Json.Number.mk [] [49] [] [] (.inl rfl)
    ⟨by decide, Block.forall_of_all rfl⟩ (.inr (by decide)) (.inl rfl)
    (.inl rfl)

theorem nestedTree_decodes :
    ∃ text, printValue id true 0 nestedTree = some text ∧
      Json.Decodes text (nestedTree.mapNumbers id) := by
  refine printValue_decodes id true ?_ ?_ (by rw [Short]; decide)
  · simp [nestedTree, Json.NulFree, Json.NulFreeItems, Json.NulFreeMembers]
  · exact ⟨⟨number_one, trivial, trivial⟩, trivial⟩

example : cJSONPrint id nestedTree =
    some (Block.ofString "\x7b\n\t\"a\":\t[1, \"\\n\"]\n\x7d") := by decide

/-! What is read has no NULs in it. -/

theorem nulFree_parseString {text string : Block} {rest : Rest text}
    (done : parseString text = .ok (string, rest)) : (0 : UInt8) ∉ string := by
  unfold parseString at done
  split at done
  · cases done
  · split at done
    · split at done
      · cases done
      · split at done
        · cases done
        · split at done
          · cases done
            exact Block.notMem_takeWhile 0 _
          · cases done
    · cases done

theorem nulFree_readWords {known : List (Block × Json)}
    (clean : ∀ entry ∈ known, entry.2.NulFree) {text rest : Block}
    {value : Json} (read : readWords known text = .ok (some (value, rest))) :
    value.NulFree := by
  induction known with
  | nil => cases read
  | cons entry known induction =>
      rw [readWords] at read
      split at read
      · cases read
        exact clean entry List.mem_cons_self
      · exact induction (fun other member =>
          clean other (List.mem_cons_of_mem entry member)) read
      · cases read

theorem nulFree_words : ∀ entry ∈ words, entry.2.NulFree := by
  intro entry member
  simp only [words, List.mem_cons, List.not_mem_nil, or_false] at member
  rcases member with rfl | rfl | rfl
  all_goals trivial

mutual

theorem nulFree_parseValue (text : Block) {value : Json} {rest : Rest text}
    (done : parseValue text = .ok (value, rest)) : value.NulFree := by
  rw [parseValue] at done
  split at done
  · cases done
  · rename_i read
    cases done
    exact nulFree_readWords nulFree_words read
  · cases text with
    | nil => cases done
    | cons byte inner =>
        dsimp only at done
        split at done
        · obtain ⟨⟨string, left⟩, parsed, done⟩ := bind_eq_ok done
          cases done
          exact nulFree_parseString parsed
        · split at done
          · split at done
            · cases done
            · cases done
              trivial
          · split at done
            · obtain ⟨⟨items, left⟩, parsed, done⟩ := bind_eq_ok done
              cases done
              exact nulFree_parseArray inner parsed
            · split at done
              · obtain ⟨⟨members, left⟩, parsed, done⟩ := bind_eq_ok done
                cases done
                exact nulFree_parseObject inner parsed
              · cases done
termination_by (text.length, 0)

theorem nulFree_parseArray (text : Block) {items : List Json}
    {rest : Rest text} (done : parseArray text = .ok (items, rest)) :
    Json.NulFreeItems items := by
  rw [parseArray] at done
  split at done
  · cases done
    trivial
  · exact nulFree_parseItems text done
termination_by (text.length, 2)

theorem nulFree_parseItems (text : Block) {items : List Json}
    {rest : Rest text} (done : parseItems text = .ok (items, rest)) :
    Json.NulFreeItems items := by
  have bound := length_skip_le text
  rw [parseItems] at done
  obtain ⟨⟨item, left⟩, parsed, done⟩ := bind_eq_ok done
  have first := nulFree_parseValue (skip text) parsed
  dsimp only at done
  split at done
  · cases done
  · rename_i separator more read
    split at done
    · obtain ⟨⟨others, last⟩, behind, done⟩ := bind_eq_ok done
      cases done
      have shorter := (left.next read).shorter
      exact ⟨first, nulFree_parseItems more behind⟩
    · split at done
      · cases done
        exact ⟨first, trivial⟩
      · cases done
termination_by (text.length, 1)
decreasing_by
  · omega
  · exact Prod.Lex.left _ _ shorter

theorem nulFree_parseObject (text : Block) {members : List (Block × Json)}
    {rest : Rest text} (done : parseObject text = .ok (members, rest)) :
    Json.NulFreeMembers members := by
  rw [parseObject] at done
  split at done
  · cases done
    trivial
  · exact nulFree_parseMembers text done
termination_by (text.length, 2)

theorem nulFree_parseMembers (text : Block) {members : List (Block × Json)}
    {rest : Rest text} (done : parseMembers text = .ok (members, rest)) :
    Json.NulFreeMembers members := by
  rw [parseMembers] at done
  obtain ⟨⟨name, left⟩, named, done⟩ := bind_eq_ok done
  dsimp only at done
  split at done
  · cases done
  · rename_i separator start colon
    have inside := (left.next colon).shorter
    have bound := length_skip_le start
    split at done
    · obtain ⟨⟨item, last⟩, parsed, done⟩ := bind_eq_ok done
      have first := nulFree_parseValue (skip start) parsed
      dsimp only at done
      split at done
      · cases done
      · rename_i separator more read
        have shorter := (last.next read).shorter
        split at done
        · obtain ⟨⟨others, final⟩, behind, done⟩ := bind_eq_ok done
          cases done
          exact ⟨nulFree_parseString named, first,
            nulFree_parseMembers more behind⟩
        · split at done
          · cases done
            exact ⟨nulFree_parseString named, first, trivial⟩
          · cases done
    · cases done
termination_by (text.length, 1)
decreasing_by
  · exact Prod.Lex.left _ _ (bound.trans_lt inside)
  · exact Prod.Lex.left _ _ (shorter.trans inside)

end

theorem nulFree_cJSONParse {text : Block} {value : Json}
    (parsed : cJSONParse text = .ok value) : value.NulFree := by
  rw [cJSONParse] at parsed
  cases done : parseValue (skip text) with
  | error failure =>
      rw [done] at parsed
      cases parsed
  | ok result =>
      rw [done] at parsed
      cases parsed
      exact nulFree_parseValue (skip text) done

/-- Whatever text a tree was read from, it is printed as a text that is read as
the same tree again, with the numbers that were printed. -/
theorem cJSONParse_printValue (number : Block → Block) (fmt : Bool)
    {text : Block} {value : Json} (parsed : cJSONParse text = .ok value)
    (numbers : value.NumbersAre (PrintsJson number))
    (short : Short (valueText number fmt 0 value)) :
    ∃ printed, printValue number fmt 0 value = some printed ∧
      ∀ behind, cJSONParse (printed ++ 0 :: behind) =
        .ok (value.mapNumbers number) := by
  have clean := nulFree_cJSONParse parsed
  refine ⟨_, printValue_eq number fmt clean
    (numbers.mono fun text => PrintsJson.printsNumber number) short, ?_⟩
  intro behind
  exact cJSONParse_written blank_nil
    (valueText_written number fmt numbers 0) blank_nil
    (Json.nulFree_mapNumbers number clean) behind

theorem cJSONParse_printed_one :
    ∃ printed, printValue id false 0 (.array [.number [49]]) = some printed ∧
      ∀ behind, cJSONParse (printed ++ 0 :: behind) =
        .ok ((Json.array [.number [49]]).mapNumbers id) := by
  have spaced := Json.Elements.last blank_nil (.number number_one)
    (blank_single 32 rfl)
  refine cJSONParse_printValue id false
    (cJSONParse_written blank_nil (.array spaced) blank_nil ?_ []) ?_
    (by rw [Short]; decide)
  · exact ⟨trivial, trivial⟩
  · exact ⟨number_one, trivial⟩

end Molten.Collector.CJson
