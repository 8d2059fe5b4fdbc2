import Molten.Text.Json

namespace Molten.Collector.CJson

open Molten.Text

/-! The part of cJSON that reads a response.  A text is given by the bytes from
its start to the end of its block. -/

/-- Why there is no tree: the text is malformed, or a read or a write is
outside of its block. -/
inductive Failure
  | malformed
  | outside
  deriving DecidableEq, Repr

/-- What is left of a text once something is read. -/
structure Rest (text : Block) where
  behind : Block
  shorter : behind.length < text.length

def skip (text : Block) : Block :=
  text.dropWhile fun byte => 0 < byte && byte ≤ 32

theorem length_skip_le (text : Block) : (skip text).length ≤ text.length :=
  (List.dropWhile_suffix _).length_le

/-! Words, and numbers. -/

/-- `strncmp` with a word: what is behind it, if the text starts with it. -/
def readWord : Block → Block → Except Failure (Option Block)
  | [], text => .ok (some text)
  | _ :: _, [] => .error .outside
  | letter :: word, byte :: text =>
      if letter = byte then readWord word text else .ok none

def words : List (Block × Json) :=
  [(Block.ofString "null", .null), (Block.ofString "false", .bool false),
   (Block.ofString "true", .bool true)]

def readWords : List (Block × Json) → Block →
    Except Failure (Option (Json × Block))
  | [], _ => .ok none
  | (word, value) :: words, text =>
      match readWord word text with
      | .ok (some rest) => .ok (some (value, rest))
      | .ok none => readWords words text
      | .error failure => .error failure

def dropByte (byte : UInt8) (text : Block) : Block :=
  if text.head? = some byte then text.tail else text

def integerRest (text : Block) : Block :=
  let text := dropByte 48 (dropByte 45 text)
  if text.head?.any fun byte => 49 ≤ byte && byte ≤ 57 then
    text.dropWhile Block.isDigit
  else text

def fractionRest : Block → Except Failure Block
  | [46] => .error .outside
  | 46 :: digit :: text =>
      if Block.isDigit digit then .ok (text.dropWhile Block.isDigit)
      else .ok (46 :: digit :: text)
  | text => .ok text

def exponentRest : Block → Block
  | [] => []
  | letter :: text =>
      if letter = 69 ∨ letter = 101 then
        let text :=
          if text.head? = some 43 then text.tail else dropByte 45 text
        text.dropWhile Block.isDigit
      else letter :: text

/-- `parse_number`, which keeps the text of the number. -/
def numberRest (text : Block) : Except Failure Block := do
  let text ← fractionRest (integerRest text)
  let rest := exponentRest text
  if rest.isEmpty then .error .outside else .ok rest

/-! Strings. -/

/-- The room that `parse_string` makes for a string, without its NUL.  It may
skip the NUL of the text behind a backslash. -/
def stringRoom : Block → Except Failure Nat
  | [] => .error .outside
  | [92] => .error .outside
  | 92 :: _ :: text => (stringRoom text).map (· + 1)
  | byte :: text =>
      if byte = 34 ∨ byte = 0 then .ok 0 else (stringRoom text).map (· + 1)

def parseHex : Nat → Nat → Block → Except Failure Nat
  | 0, value, _ => .ok value
  | _ + 1, _, [] => .error .outside
  | count + 1, value, byte :: text =>
      match Json.hexDigit byte with
      | some digit => parseHex count (16 * value + digit) text
      | none => .ok 0

/-- `parse_hex4`, which is 0 for anything else than four digits. -/
def parseHex4 (text : Block) : Except Failure Nat := parseHex 4 0 text

/-- What is written for `\u`, and the number of bytes behind it that are
passed. -/
def parseUnicode (text : Block) : Except Failure (Block × Nat) := do
  let uc ← parseHex4 text
  if (0xDC00 ≤ uc ∧ uc < 0xE000) ∨ uc = 0 then .ok ([], 4)
  else if 0xD800 ≤ uc ∧ uc < 0xDC00 then
    match text.drop 4 with
    | [] => .error .outside
    | [92] => .error .outside
    | 92 :: 117 :: others => do
        let low ← parseHex4 others
        if 0xDC00 ≤ low ∧ low < 0xE000 then
          .ok (Json.utf8 (0x10000 + 0x400 * (uc - 0xD800) + (low - 0xDC00)), 10)
        else .ok ([], 10)
    | _ => .ok ([], 4)
  else .ok (Json.utf8 uc, 4)

/-- The byte that a letter behind a backslash stands for. -/
def unescaped (letter : UInt8) : UInt8 :=
  (Json.escapes.lookup letter).getD letter

/-- The bytes that are written for the inside of a string, and the text from
its end on. -/
def unescape (text : Block) : Except Failure (Block × Block) :=
  match text with
  | [] => .error .outside
  | [92] => .error .outside
  | 92 :: letter :: text =>
      if letter = 117 then do
        let (written, passed) ← parseUnicode text
        let (decoded, rest) ← unescape (text.drop passed)
        .ok (written ++ decoded, rest)
      else do
        let (decoded, rest) ← unescape text
        .ok (unescaped letter :: decoded, rest)
  | byte :: text =>
      if byte = 34 ∨ byte = 0 then .ok ([], byte :: text)
      else do
        let (decoded, rest) ← unescape text
        .ok (byte :: decoded, rest)
termination_by text.length
decreasing_by
  all_goals simp only [List.length_drop, List.length_cons]
  all_goals omega

theorem bind_eq_ok {α β : Type} {first : Except Failure α}
    {next : α → Except Failure β} {result : β}
    (done : (first >>= next) = .ok result) :
    ∃ value, first = .ok value ∧ next value = .ok result := by
  cases first with
  | error failure => cases done
  | ok value => exact ⟨value, rfl, done⟩

theorem length_unescape_le {text decoded rest : Block}
    (done : unescape text = .ok (decoded, rest)) :
    rest.length ≤ text.length := by
  induction text using unescape.induct generalizing decoded rest with
  | case1 => cases unescape.eq_1 ▸ done
  | case2 => cases unescape.eq_2 ▸ done
  | case3 text induction =>
      rw [unescape, if_pos rfl] at done
      obtain ⟨⟨written, passed⟩, -, done⟩ := bind_eq_ok done
      obtain ⟨⟨decoded, rest⟩, behind, done⟩ := bind_eq_ok done
      cases done
      have bound := induction passed behind
      simp only [List.length_drop, List.length_cons] at bound ⊢
      omega
  | case4 letter text other induction =>
      rw [unescape, if_neg other] at done
      obtain ⟨⟨decoded, rest⟩, behind, done⟩ := bind_eq_ok done
      cases done
      have bound := induction behind
      simp only [List.length_cons]
      omega
  | case5 byte text single pair stop =>
      rw [unescape.eq_4 byte text single pair, if_pos stop] at done
      cases done
      exact Nat.le_refl _
  | case6 byte text single pair inside induction =>
      rw [unescape.eq_4 byte text single pair, if_neg inside] at done
      obtain ⟨⟨decoded, rest⟩, behind, done⟩ := bind_eq_ok done
      cases done
      exact (induction behind).trans (Nat.le_succ _)

theorem length_dropByte_le (byte : UInt8) (text : Block) :
    (dropByte byte text).length ≤ text.length := by
  rw [dropByte]
  split
  · exact (List.tail_suffix text).length_le
  · exact Nat.le_refl _

theorem dropByte_self (byte : UInt8) (text : Block) :
    dropByte byte (byte :: text) = text := if_pos rfl

theorem dropByte_of_ne {byte other : UInt8} (differs : other ≠ byte)
    (text : Block) : dropByte byte (other :: text) = other :: text :=
  if_neg (by simpa using differs)

theorem length_of_readWord {word text rest : Block}
    (read : readWord word text = .ok (some rest)) :
    word.length + rest.length = text.length := by
  induction word generalizing text with
  | nil =>
      cases read
      exact Nat.zero_add _
  | cons letter word induction =>
      cases text with
      | nil => cases read
      | cons byte text =>
          rw [readWord] at read
          split at read
          · have length := induction read
            simp only [List.length_cons]
            omega
          · cases read

theorem length_lt_of_readWords {known : List (Block × Json)}
    (nonempty : ∀ entry ∈ known, 0 < entry.1.length) {text rest : Block}
    {value : Json} (read : readWords known text = .ok (some (value, rest))) :
    rest.length < text.length := by
  induction known with
  | nil => cases read
  | cons entry known induction =>
      rw [readWords] at read
      split at read
      · rename_i found
        cases read
        have length := length_of_readWord found
        have positive := nonempty entry List.mem_cons_self
        omega
      · refine induction ?_ read
        intro other member
        exact nonempty other (List.mem_cons_of_mem entry member)
      · cases read

theorem shorter_of_readWords {text rest : Block} {value : Json}
    (read : readWords words text = .ok (some (value, rest))) :
    rest.length < text.length :=
  length_lt_of_readWords (by decide) read

theorem length_dropDigits_le (text : Block) :
    (text.dropWhile Block.isDigit).length ≤ text.length :=
  (List.dropWhile_suffix _).length_le

theorem length_integerRest_lt {byte : UInt8}
    (number : byte = 45 ∨ Block.isDigit byte = true) (inner : Block) :
    (integerRest (byte :: inner)).length < (byte :: inner).length := by
  have shorter : ∀ text : Block, text.length ≤ inner.length →
      (if text.head?.any fun byte => 49 ≤ byte && byte ≤ 57 then
        text.dropWhile Block.isDigit else text).length <
        (byte :: inner).length := by
    intro text bound
    refine Nat.lt_succ_of_le (le_trans ?_ bound)
    split
    · exact length_dropDigits_le text
    · exact Nat.le_refl _
  rw [integerRest]
  by_cases minus : byte = 45
  · rw [minus, dropByte_self]
    exact shorter _ (length_dropByte_le 48 inner)
  · rw [dropByte_of_ne minus]
    by_cases zero : byte = 48
    · rw [zero, dropByte_self]
      exact shorter _ (Nat.le_refl _)
    · have digit := number.resolve_left minus
      rw [dropByte_of_ne zero, if_pos, List.dropWhile_cons_of_pos digit]
      · exact Nat.lt_succ_of_le (length_dropDigits_le inner)
      · have above : 49 ≤ byte.toNat := by
          have bounds := digit
          simp only [Block.isDigit, Bool.and_eq_true, decide_eq_true_eq,
            UInt8.le_iff_toNat_le] at bounds
          have other : byte.toNat ≠ 48 := fun same =>
            zero (UInt8.toNat_inj.mp same)
          have code : (48 : UInt8).toNat = 48 := rfl
          omega
        simp only [Block.isDigit, Bool.and_eq_true, decide_eq_true_eq] at digit
        simpa [UInt8.le_iff_toNat_le, above] using digit.2

theorem length_fractionRest_le {text rest : Block}
    (read : fractionRest text = .ok rest) : rest.length ≤ text.length := by
  unfold fractionRest at read
  split at read
  · cases read
  · rename_i digit text
    have bound := length_dropDigits_le text
    split at read
    · cases read
      simp only [List.length_cons]
      omega
    · cases read
      exact Nat.le_refl _
  · cases read
    exact Nat.le_refl _

theorem length_exponentRest_le (text : Block) :
    (exponentRest text).length ≤ text.length := by
  cases text with
  | nil => exact Nat.le_refl _
  | cons letter text =>
      rw [exponentRest]
      split
      · refine (length_dropDigits_le _).trans ?_
        split
        · simp only [List.length_tail, List.length_cons]
          omega
        · exact (length_dropByte_le 45 text).trans (Nat.le_succ _)
      · exact Nat.le_refl _

theorem shorter_of_numberRest {byte : UInt8} {inner rest : Block}
    (number : byte = 45 ∨ Block.isDigit byte = true)
    (done : numberRest (byte :: inner) = .ok rest) :
    rest.length < (byte :: inner).length := by
  rw [numberRest] at done
  obtain ⟨fraction, read, done⟩ := bind_eq_ok done
  have integer := length_integerRest_lt number inner
  have behind := length_fractionRest_le read
  have exponent := length_exponentRest_le fraction
  dsimp only at done
  split at done
  · cases done
  · cases done
    omega

def Rest.trans {text part : Block} (rest : Rest part)
    (within : part.length ≤ text.length) : Rest text :=
  ⟨rest.behind, rest.shorter.trans_le within⟩

def Rest.afterByte {text more : Block} {byte : UInt8}
    (read : skip text = byte :: more) : Rest text where
  behind := more
  shorter := by
    have bound := length_skip_le text
    rw [read] at bound
    exact bound

def Rest.next {text more : Block} {byte : UInt8} (rest : Rest (skip text))
    (read : skip rest.behind = byte :: more) : Rest text :=
  (Rest.afterByte read).trans
    (rest.shorter.le.trans (length_skip_le text))

def parseString (text : Block) : Except Failure (Block × Rest text) :=
  match text with
  | [] => .error .outside
  | quote :: inner =>
      if quote = 34 then
        match stringRoom inner with
        | .error failure => .error failure
        | .ok room =>
            match done : unescape inner with
            | .error failure => .error failure
            | .ok (decoded, rest) =>
                if decoded.length ≤ room then
                  .ok (decoded.takeWhile (· != 0),
                    ⟨dropByte 34 rest, Nat.lt_succ_of_le
                      ((length_dropByte_le 34 rest).trans
                        (length_unescape_le done))⟩)
                else .error .outside
      else .error .malformed

/-! Values. -/

mutual

def parseValue (text : Block) : Except Failure (Json × Rest text) :=
  match read : readWords words text with
  | .error failure => .error failure
  | .ok (some (value, rest)) =>
      .ok (value, ⟨rest, shorter_of_readWords read⟩)
  | .ok none =>
      match text with
      | [] => .error .outside
      | byte :: inner =>
          if byte = 34 then do
            let (string, rest) ← parseString (byte :: inner)
            .ok (.string string, rest)
          else if number : byte = 45 ∨ Block.isDigit byte then
            match done : numberRest (byte :: inner) with
            | .error failure => .error failure
            | .ok rest =>
                .ok (.number ((byte :: inner).take
                    ((byte :: inner).length - rest.length)),
                  ⟨rest, shorter_of_numberRest number done⟩)
          else if byte = 91 then do
            let (items, rest) ← parseArray inner
            .ok (.array items, rest.trans (Nat.le_succ _))
          else if byte = 123 then do
            let (members, rest) ← parseObject inner
            .ok (.object members, rest.trans (Nat.le_succ _))
          else .error .malformed
termination_by (text.length, 0)

def parseArray (text : Block) : Except Failure (List Json × Rest text) :=
  match start : skip text with
  | 93 :: _ => .ok ([], .afterByte start)
  | _ => parseItems text
termination_by (text.length, 2)

/-- The loop of `parse_array`, from an item on. -/
def parseItems (text : Block) : Except Failure (List Json × Rest text) := do
  let (item, rest) ← parseValue (skip text)
  match read : skip rest.behind with
  | [] => .error .outside
  | separator :: more =>
      if separator = 44 then do
        let (items, last) ← parseItems more
        .ok (item :: items, last.trans (rest.next read).shorter.le)
      else if separator = 93 then .ok ([item], rest.next read)
      else .error .malformed
termination_by (text.length, 1)
decreasing_by
  · have bound := length_skip_le text
    omega
  · exact Prod.Lex.left _ _ (rest.next read).shorter

def parseObject (text : Block) :
    Except Failure (List (Block × Json) × Rest text) :=
  match start : skip text with
  | 125 :: _ => .ok ([], .afterByte start)
  | _ => parseMembers text
termination_by (text.length, 2)

/-- The loop of `parse_object`, from a name on. -/
def parseMembers (text : Block) :
    Except Failure (List (Block × Json) × Rest text) := do
  let (name, rest) ← parseString (skip text)
  match colon : skip rest.behind with
  | [] => .error .outside
  | separator :: start =>
      if separator = 58 then do
        let (item, last) ← parseValue (skip start)
        match read : skip last.behind with
        | [] => .error .outside
        | separator :: more =>
            if separator = 44 then do
              let (members, final) ← parseMembers more
              .ok ((name, item) :: members,
                (final.trans (last.next read).shorter.le).trans
                  (rest.next colon).shorter.le)
            else if separator = 125 then
              .ok ([(name, item)],
                (last.next read).trans (rest.next colon).shorter.le)
            else .error .malformed
      else .error .malformed
termination_by (text.length, 1)
decreasing_by
  · exact Prod.Lex.left _ _
      ((length_skip_le start).trans_lt (rest.next colon).shorter)
  · exact Prod.Lex.left _ _
      ((last.next read).shorter.trans (rest.next colon).shorter)

end

def cJSONParse (text : Block) : Except Failure Json :=
  (parseValue (skip text)).map (·.1)

/-! Nodes. -/

/-- The list from `child` on, with the `string` of each node. -/
def children : Json → List (Option Block × Json)
  | .array items => items.map fun item => (none, item)
  | .object members => members.map fun member => (some member.1, member.2)
  | _ => []

/-- `valueint`, with what `(int)` makes of the text of a number. -/
def valueint (toInt : Block → Int) : Json → Int
  | .number text => toInt text
  | .bool true => 1
  | _ => 0

def valuestring : Json → Option Block
  | .string text => some text
  | _ => none

def tolower (byte : UInt8) : UInt8 :=
  if 65 ≤ byte ∧ byte ≤ 90 then byte + 32 else byte

/-- `cJSON_strcasecmp` is 0.  The items of an array have no `string`. -/
def sameName (string : Option Block) (name : Block) : Bool :=
  string.any fun string => string.map tolower == name.map tolower

def field (object : Json) (name : Block) : Option Json :=
  ((children object).find? fun child => sameName child.1 name).map (·.2)

/-- A `cJSON *`.  A node that was deleted is not read again. -/
inductive Pointer
  | null
  | node (value : Json)
  | freed

namespace Pointer

def deref : Pointer → Option Json
  | node value => some value
  | _ => none

def ofOption : Option Json → Pointer
  | some value => node value
  | none => null

end Pointer

@[simp] theorem Pointer.deref_node (value : Json) :
    (node value).deref = some value := rfl

@[simp] theorem Pointer.deref_null : null.deref = none := rfl

@[simp] theorem Pointer.deref_ofOption (value : Option Json) :
    (ofOption value).deref = value := by
  cases value with
  | none => rfl
  | some value => rfl

def parsed (text : Block) : Option Pointer :=
  match cJSONParse text with
  | .ok value => some (.node value)
  | .error .malformed => some .null
  | .error .outside => none

def cJSONGetArraySize (array : Pointer) : Option Nat :=
  array.deref.map fun array => (children array).length

def cJSONGetArrayItem (array : Pointer) (item : Nat) : Option Pointer :=
  array.deref.map fun array =>
    .ofOption ((children array)[item]?.map (·.2))

def cJSONGetObjectItem (object : Pointer) (name : Block) : Option Pointer :=
  object.deref.map fun object => .ofOption (field object name)

/-- What a pointer to a node is once `cJSON_Delete` has the tree of it. -/
def Pointer.afterDelete : Pointer → Pointer
  | node _ => freed
  | pointer => pointer

@[simp] theorem Pointer.deref_afterDelete (pointer : Pointer) :
    pointer.afterDelete.deref = none := by
  cases pointer with
  | null => rfl
  | node value => rfl
  | freed => rfl

theorem deref_parsed {text : Block} {root : Json} :
    (parsed text).bind Pointer.deref = some root ↔
      cJSONParse text = .ok root := by
  rw [parsed]
  cases cJSONParse text with
  | ok value => simp
  | error failure =>
      cases failure with
      | malformed => simp
      | outside => simp

end Molten.Collector.CJson
