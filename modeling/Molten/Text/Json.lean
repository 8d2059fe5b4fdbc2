import Molten.Text.Block

namespace Molten.Text

/-! JSON values, and the texts that stand for them. -/

/-- A number is kept as it is written. -/
inductive Json
  | null
  | bool (value : Bool)
  | number (text : Block)
  | string (text : Block)
  | array (items : List Json)
  | object (members : List (Block × Json))

namespace Json

def isBlank (byte : UInt8) : Bool := byte ∈ ([32, 9, 10, 13] : Block)

def Blank (text : Block) : Prop := ∀ byte ∈ text, isBlank byte = true

/-- The letters of short escapes, with the bytes they stand for. -/
def escapes : List (UInt8 × UInt8) :=
  [(34, 34), (92, 92), (47, 47), (98, 8), (102, 12), (110, 10), (114, 13),
   (116, 9)]

def hexDigit (byte : UInt8) : Option Nat :=
  if Block.isDigit byte then some (byte.toNat - 48)
  else if 65 ≤ byte ∧ byte ≤ 70 then some (byte.toNat - 55)
  else if 97 ≤ byte ∧ byte ≤ 102 then some (byte.toNat - 87)
  else none

def hexNumber (digits : Block) : Option Nat :=
  digits.foldlM (fun value digit => (hexDigit digit).map (16 * value + ·)) 0

def utf8 (code : Nat) : Block := String.utf8EncodeChar (Char.ofNat code)

/-- The inside of a string, after what it stands for. -/
inductive Chars : Block → Block → Prop
  | nil : Chars [] []
  | plain {decoded written : Block} {byte : UInt8} (printable : 32 ≤ byte)
      (quote : byte ≠ 34) (backslash : byte ≠ 92)
      (rest : Chars decoded written) :
      Chars (byte :: decoded) (byte :: written)
  | escape {decoded written : Block} {letter byte : UInt8}
      (known : (letter, byte) ∈ escapes) (rest : Chars decoded written) :
      Chars (byte :: decoded) (92 :: letter :: written)
  | unicode {decoded written digits : Block} {code : Nat}
      (four : digits.length = 4) (number : hexNumber digits = some code)
      (single : code < 0xD800 ∨ 0xE000 ≤ code)
      (rest : Chars decoded written) :
      Chars (utf8 code ++ decoded) (92 :: 117 :: (digits ++ written))
  | pair {decoded written digits others : Block} {high low : Nat}
      (four : digits.length = 4) (number : hexNumber digits = some high)
      (others_four : others.length = 4) (other : hexNumber others = some low)
      (first : 0xD800 ≤ high ∧ high < 0xDC00)
      (second : 0xDC00 ≤ low ∧ low < 0xE000)
      (rest : Chars decoded written) :
      Chars
        (utf8 (0x10000 + 0x400 * (high - 0xD800) + (low - 0xDC00)) ++ decoded)
        (92 :: 117 :: (digits ++ 92 :: 117 :: (others ++ written)))

def Digits (text : Block) : Prop :=
  text ≠ [] ∧ ∀ byte ∈ text, Block.isDigit byte = true

/-- A number, in its parts. -/
inductive Number : Block → Prop
  | mk {sign integer fraction exponent : Block}
      (signed : sign = [] ∨ sign = [45])
      (digits : Digits integer)
      (leading : integer = [48] ∨ integer.head? ≠ some 48)
      (fractional : fraction = [] ∨
        ∃ behind, fraction = 46 :: behind ∧ Digits behind)
      (exponential : exponent = [] ∨
        ∃ letter sign behind, exponent = letter :: (sign ++ behind) ∧
          (letter = 69 ∨ letter = 101) ∧
          (sign = [] ∨ sign = [43] ∨ sign = [45]) ∧ Digits behind) :
      Number (sign ++ (integer ++ (fraction ++ exponent)))

mutual

/-- A value and a text for it, with no space around it. -/
inductive Value : Json → Block → Prop
  | null : Value .null (Block.ofString "null")
  | true : Value (.bool true) (Block.ofString "true")
  | false : Value (.bool false) (Block.ofString "false")
  | number {text : Block} (written : Number text) : Value (.number text) text
  | string {decoded written : Block} (chars : Chars decoded written) :
      Value (.string decoded) (34 :: (written ++ [34]))
  | array {items : List Json} {inner : Block}
      (elements : Elements items inner) :
      Value (.array items) (91 :: (inner ++ [93]))
  | object {members : List (Block × Json)} {inner : Block}
      (fields : Members members inner) :
      Value (.object members) (123 :: (inner ++ [125]))

inductive Elements : List Json → Block → Prop
  | nil {blank : Block} (blanks : Blank blank) : Elements [] blank
  | last {item : Json} {before text after : Block} (blank_before : Blank before)
      (value : Value item text) (blank_after : Blank after) :
      Elements [item] (before ++ (text ++ after))
  | cons {item next : Json} {items : List Json}
      {before text after rest : Block} (blank_before : Blank before)
      (value : Value item text) (blank_after : Blank after)
      (others : Elements (next :: items) rest) :
      Elements (item :: next :: items)
        (before ++ (text ++ (after ++ 44 :: rest)))

inductive Members : List (Block × Json) → Block → Prop
  | nil {blank : Block} (blanks : Blank blank) : Members [] blank
  | last {name written : Block} {item : Json}
      {before between start text after : Block} (blank_before : Blank before)
      (chars : Chars name written) (blank_between : Blank between)
      (blank_start : Blank start) (value : Value item text)
      (blank_after : Blank after) :
      Members [(name, item)]
        (before ++ 34 :: (written ++ 34 :: (between ++ 58 ::
          (start ++ (text ++ after)))))
  | cons {name written : Block} {item : Json} {next : Block × Json}
      {members : List (Block × Json)}
      {before between start text after rest : Block}
      (blank_before : Blank before) (chars : Chars name written)
      (blank_between : Blank between) (blank_start : Blank start)
      (value : Value item text) (blank_after : Blank after)
      (others : Members (next :: members) rest) :
      Members ((name, item) :: next :: members)
        (before ++ 34 :: (written ++ 34 :: (between ++ 58 ::
          (start ++ (text ++ (after ++ 44 :: rest))))))

end

/-- The whole text stands for the value. -/
def Decodes (text : Block) (value : Json) : Prop :=
  ∃ before inner after, text = before ++ (inner ++ after) ∧
    Blank before ∧ Value value inner ∧ Blank after

/-! How long texts are. -/

theorem length_utf8_le (code : Nat) : (utf8 code).length ≤ 4 := by
  rw [utf8, String.length_utf8EncodeChar]
  exact Char.utf8Size_le_four _

theorem Chars.length_le {decoded written : Block}
    (chars : Chars decoded written) : decoded.length ≤ written.length := by
  induction chars with
  | nil => exact Nat.le_refl _
  | plain printable quote backslash rest induction =>
      exact Nat.succ_le_succ induction
  | escape known rest induction =>
      exact (Nat.succ_le_succ induction).trans (Nat.le_succ _)
  | @unicode decoded written digits code four number single rest induction =>
      have short := length_utf8_le code
      simp only [List.length_append, List.length_cons]
      omega
  | @pair decoded written digits others high low four number others_four other
      first second rest induction =>
      have short := length_utf8_le
        (0x10000 + 0x400 * (high - 0xD800) + (low - 0xDC00))
      simp only [List.length_append, List.length_cons]
      omega

theorem Value.length_string {decoded text : Block}
    (value : Value (.string decoded) text) :
    decoded.length + 2 ≤ text.length := by
  cases value with
  | string chars =>
      have bound := chars.length_le
      simp only [List.length_append, List.length_cons, List.length_nil]
      omega

theorem Decodes.length_array {decoded text : Block}
    (decodes : Decodes text (.array [.string decoded])) :
    decoded.length + 4 ≤ text.length := by
  obtain ⟨before, inner, after, rfl, -, value, -⟩ := decodes
  cases value with
  | array elements =>
      cases elements with
      | last blank_before value blank_after =>
          have bound := value.length_string
          simp only [List.length_append, List.length_cons, List.length_nil]
          omega

theorem Chars.of_plain {text : Block}
    (plain : ∀ byte ∈ text, 32 ≤ byte ∧ byte ≠ 34 ∧ byte ≠ 92) :
    Chars text text := by
  induction text with
  | nil => exact Chars.nil
  | cons byte text induction =>
      obtain ⟨printable, quote, backslash⟩ := plain byte List.mem_cons_self
      refine Chars.plain printable quote backslash (induction ?_)
      intro other member
      exact plain other (List.mem_cons_of_mem byte member)

/-! No text has a NUL in it. -/

theorem Blank.noNul {blank : Block} (blanks : Blank blank) :
    (0 : UInt8) ∉ blank := by
  intro member
  exact absurd (blanks 0 member) (by decide)

theorem noNul_of_digits {text : Block}
    (digits : ∀ byte ∈ text, Block.isDigit byte = true) :
    (0 : UInt8) ∉ text := by
  intro member
  exact absurd (digits 0 member) (by decide)

theorem noNul_of_foldlM {digits : Block} {value code : Nat}
    (number : digits.foldlM (fun value digit =>
      (hexDigit digit).map (16 * value + ·)) value = some code) :
    (0 : UInt8) ∉ digits := by
  induction digits generalizing value with
  | nil => simp
  | cons byte digits induction =>
      rw [List.foldlM_cons] at number
      obtain ⟨next, first, others⟩ := Option.bind_eq_some_iff.mp number
      obtain ⟨digit, known, -⟩ := Option.map_eq_some_iff.mp first
      refine List.not_mem_cons_of_ne_of_not_mem ?_ (induction others)
      rintro rfl
      cases known

theorem Chars.noNul {decoded written : Block}
    (chars : Chars decoded written) : (0 : UInt8) ∉ written := by
  induction chars with
  | nil => simp
  | plain printable quote backslash rest induction =>
      refine List.not_mem_cons_of_ne_of_not_mem ?_ induction
      rintro rfl
      exact absurd printable (by decide)
  | @escape decoded written letter byte known rest induction =>
      have letters : ∀ entry ∈ escapes, entry.1 ≠ 0 :=
        Block.forall_of_all rfl
      have first := (letters (letter, byte) known).symm
      simp [first, induction]
  | unicode four number single rest induction =>
      simp [noNul_of_foldlM number, induction]
  | pair four number others_four other first second rest induction =>
      simp [noNul_of_foldlM number, noNul_of_foldlM other, induction]

theorem Number.noNul {text : Block} (number : Number text) :
    (0 : UInt8) ∉ text := by
  obtain ⟨signed, digits, -, fractional, exponential⟩ := number
  rename_i sign integer fraction exponent
  have first : (0 : UInt8) ∉ sign := by
    rcases signed with rfl | rfl <;> decide
  have second : (0 : UInt8) ∉ fraction := by
    rcases fractional with rfl | ⟨behind, rfl, digits⟩
    · simp
    · simp [noNul_of_digits digits.2]
  have third : (0 : UInt8) ∉ exponent := by
    rcases exponential with rfl | ⟨letter, sign, behind, rfl, known, signed,
      digits⟩
    · simp
    · have signless : (0 : UInt8) ∉ sign := by
        rcases signed with rfl | rfl | rfl <;> decide
      rcases known with rfl | rfl <;>
        simp [signless, noNul_of_digits digits.2]
  simp [first, noNul_of_digits digits.2, second, third]

mutual

theorem Value.noNul {value : Json} {text : Block} (written : Value value text) :
    (0 : UInt8) ∉ text := by
  cases written with
  | null => decide
  | true => decide
  | false => decide
  | number written => exact written.noNul
  | string chars => simp [chars.noNul]
  | array elements => simp [elements.noNul]
  | object fields => simp [fields.noNul]

theorem Elements.noNul {items : List Json} {inner : Block}
    (elements : Elements items inner) : (0 : UInt8) ∉ inner := by
  cases elements with
  | nil blanks => exact blanks.noNul
  | last before value after => simp [before.noNul, value.noNul, after.noNul]
  | cons before value after others =>
      simp [before.noNul, value.noNul, after.noNul, others.noNul]

theorem Members.noNul {members : List (Block × Json)} {inner : Block}
    (fields : Members members inner) : (0 : UInt8) ∉ inner := by
  cases fields with
  | nil blanks => exact blanks.noNul
  | last before chars between start value after =>
      simp [before.noNul, chars.noNul, between.noNul, start.noNul,
        value.noNul, after.noNul]
  | cons before chars between start value after others =>
      simp [before.noNul, chars.noNul, between.noNul, start.noNul,
        value.noNul, after.noNul, others.noNul]

end

theorem Decodes.noNul {text : Block} {value : Json}
    (decodes : Decodes text value) : (0 : UInt8) ∉ text := by
  obtain ⟨before, inner, after, rfl, blanks, written, rest⟩ := decodes
  simp [blanks.noNul, written.noNul, rest.noNul]

/-! What is in a tree. -/

mutual

/-- No text in the tree has a NUL, so that all of them are C strings. -/
def NulFree : Json → Prop
  | .string text => (0 : UInt8) ∉ text
  | .array items => NulFreeItems items
  | .object members => NulFreeMembers members
  | _ => True

def NulFreeItems : List Json → Prop
  | [] => True
  | item :: items => item.NulFree ∧ NulFreeItems items

def NulFreeMembers : List (Block × Json) → Prop
  | [] => True
  | (name, item) :: members =>
      (0 : UInt8) ∉ name ∧ item.NulFree ∧ NulFreeMembers members

end

mutual

/-- All texts of numbers in the tree are of that kind. -/
def NumbersAre (kind : Block → Prop) : Json → Prop
  | .number text => kind text
  | .array items => NumbersAreItems kind items
  | .object members => NumbersAreMembers kind members
  | _ => True

def NumbersAreItems (kind : Block → Prop) : List Json → Prop
  | [] => True
  | item :: items => item.NumbersAre kind ∧ NumbersAreItems kind items

def NumbersAreMembers (kind : Block → Prop) : List (Block × Json) → Prop
  | [] => True
  | (_, item) :: members =>
      item.NumbersAre kind ∧ NumbersAreMembers kind members

end

mutual

theorem NumbersAre.mono {kind other : Block → Prop}
    (wider : ∀ text, kind text → other text) {value : Json}
    (numbers : value.NumbersAre kind) : value.NumbersAre other := by
  cases value with
  | number text => exact wider text numbers
  | array items => exact NumbersAreItems.mono wider numbers
  | object members => exact NumbersAreMembers.mono wider numbers
  | null => trivial
  | bool value => trivial
  | string text => trivial

theorem NumbersAreItems.mono {kind other : Block → Prop}
    (wider : ∀ text, kind text → other text) {items : List Json}
    (numbers : NumbersAreItems kind items) : NumbersAreItems other items := by
  cases items with
  | nil => trivial
  | cons item items =>
      exact ⟨NumbersAre.mono wider numbers.1,
        NumbersAreItems.mono wider numbers.2⟩

theorem NumbersAreMembers.mono {kind other : Block → Prop}
    (wider : ∀ text, kind text → other text) {members : List (Block × Json)}
    (numbers : NumbersAreMembers kind members) :
    NumbersAreMembers other members := by
  cases members with
  | nil => trivial
  | cons member members =>
      exact ⟨NumbersAre.mono wider numbers.1,
        NumbersAreMembers.mono wider numbers.2⟩

end

mutual

def mapNumbers (change : Block → Block) : Json → Json
  | .number text => .number (change text)
  | .array items => .array (mapNumbersItems change items)
  | .object members => .object (mapNumbersMembers change members)
  | value => value

def mapNumbersItems (change : Block → Block) : List Json → List Json
  | [] => []
  | item :: items => item.mapNumbers change :: mapNumbersItems change items

def mapNumbersMembers (change : Block → Block) :
    List (Block × Json) → List (Block × Json)
  | [] => []
  | (name, item) :: members =>
      (name, item.mapNumbers change) :: mapNumbersMembers change members

end

mutual

theorem mapNumbers_id (value : Json) : value.mapNumbers id = value := by
  cases value with
  | array items => exact congrArg Json.array (mapNumbersItems_id items)
  | object members => exact congrArg Json.object (mapNumbersMembers_id members)
  | string text => rfl
  | null => rfl
  | bool value => rfl
  | number text => rfl

theorem mapNumbersItems_id (items : List Json) :
    mapNumbersItems id items = items := by
  cases items with
  | nil => rfl
  | cons item items =>
      rw [mapNumbersItems, mapNumbers_id item, mapNumbersItems_id items]

theorem mapNumbersMembers_id (members : List (Block × Json)) :
    mapNumbersMembers id members = members := by
  match members with
  | [] => rfl
  | (name, item) :: members =>
      rw [mapNumbersMembers, mapNumbers_id item, mapNumbersMembers_id members]

end

mutual

theorem nulFree_mapNumbers (change : Block → Block) {value : Json}
    (clean : value.NulFree) : (value.mapNumbers change).NulFree := by
  cases value with
  | array items => exact nulFree_mapNumbersItems change clean
  | object members => exact nulFree_mapNumbersMembers change clean
  | string text => exact clean
  | null => trivial
  | bool value => trivial
  | number text => trivial

theorem nulFree_mapNumbersItems (change : Block → Block) {items : List Json}
    (clean : NulFreeItems items) :
    NulFreeItems (mapNumbersItems change items) := by
  cases items with
  | nil => trivial
  | cons item items =>
      exact ⟨nulFree_mapNumbers change clean.1,
        nulFree_mapNumbersItems change clean.2⟩

theorem nulFree_mapNumbersMembers (change : Block → Block)
    {members : List (Block × Json)} (clean : NulFreeMembers members) :
    NulFreeMembers (mapNumbersMembers change members) := by
  cases members with
  | nil => trivial
  | cons member members =>
      exact ⟨clean.1, nulFree_mapNumbers change clean.2.1,
        nulFree_mapNumbersMembers change clean.2.2⟩

end

end Json

end Molten.Text
