import Molten.Collector.CJsonPrint
import Molten.Text.Decimal

namespace Molten.Collector.CJson

open Molten.Text

/-! The part of cJSON that prints into one buffer that grows.  `branch` tells
which way `print_number` goes for the number that a text stands for. -/

/-- The branches of `print_number`: a zero, a number that is its `valueint`, and
any other, with what `%.0f`, `%e` or `%f` makes of it. -/
inductive NumberBranch
  | zero
  | int (valueint : Int)
  | double (text : Block)
  deriving DecidableEq, Repr

namespace NumberBranch

def text : NumberBranch → Block
  | .zero => Block.ofString "0"
  | .int valueint => Format.integer valueint
  | .double text => text

/-- What it asks for before. -/
def needed : NumberBranch → Nat
  | .zero => 2
  | .int _ => 21
  | .double _ => 64

/-- An `int`, or a number of JSON that is not too long. -/
def Prints : NumberBranch → Prop
  | .zero => True
  | .int valueint => -2 ^ 31 ≤ valueint ∧ valueint < 2 ^ 31
  | .double text => Json.Number text ∧ text.length < 64

end NumberBranch

/-- What the calls of `cJSON_malloc` answer: blocks with anything in them, or
`NULL`. -/
structure Blocks where
  answer : Nat → Nat → Option Block
  length : ∀ {call size block}, answer call size = some block →
    block.length = size

/-- `printbuffer`, and the sizes for which `cJSON_malloc` was asked.  The length
is that of the buffer, which is missing when there was no room for it. -/
structure PrintBuffer where
  buffer : Option Block
  offset : Nat
  asked : List Nat

/-- `x|=x>>shift` -/
def smear (shift x : Nat) : Nat := x ||| x >>> shift

def pow2gt (x : Nat) : Nat :=
  smear 16 (smear 8 (smear 4 (smear 2 (smear 1 (x - 1))))) + 1

section

variable (blocks : Blocks)

/-- `ensure`, which answers where the offset is in the buffer that is left, if
one is. -/
def ensure (needed : Nat) (p : PrintBuffer) : Option PrintBuffer :=
  match p.buffer with
  | none => some p
  | some buffer =>
      let needed := needed + p.offset
      if 2 ^ 31 ≤ needed then none
      else if needed ≤ buffer.length then some p
      else
        let newsize := pow2gt needed
        if 2 ^ 31 ≤ newsize then none
        else
          let p := { p with asked := p.asked ++ [newsize] }
          match blocks.answer (p.asked.length - 1) newsize with
          | none => some { p with buffer := none }
          | some newbuffer => do
              let newbuffer ← Block.store 0 buffer newbuffer
              some { p with buffer := some newbuffer }

def update (p : PrintBuffer) : Option PrintBuffer :=
  match p.buffer with
  | none => some { p with offset := 0 }
  | some buffer => do
      let str ← Block.cString (buffer.drop p.offset)
      some { p with offset := p.offset + str.length }

/-- Bytes that are written behind an `ensure`, and how far the offset goes with
them.  Without a buffer nothing is written any more. -/
def emit (needed : Nat) (bytes : Block) (advance : Nat) (p : PrintBuffer) :
    Option PrintBuffer := do
  let p ← ensure blocks needed p
  match p.buffer with
  | none => some p
  | some buffer =>
      let buffer ← Block.store p.offset bytes buffer
      some { p with buffer := some buffer, offset := p.offset + advance }

def bufferString (text : Block) (p : PrintBuffer) : Option PrintBuffer :=
  if text.any needsEscape then
    emit blocks ((text.map tokenRoom).sum + 3)
      (34 :: (text.flatMap escape ++ [34, 0])) 0 p
  else emit blocks (text.length + 3) (34 :: (text ++ [34, 0])) 0 p

variable (branch : Block → NumberBranch) (fmt : Bool)

def layout (bytes : Block) : Block := if fmt then bytes else []

mutual

def bufferValue (depth : Nat) (value : Json) (p : PrintBuffer) :
    Option PrintBuffer :=
  match value with
  | .null => emit blocks 5 (Block.ofString "null" ++ [0]) 0 p
  | .bool false => emit blocks 6 (Block.ofString "false" ++ [0]) 0 p
  | .bool true => emit blocks 5 (Block.ofString "true" ++ [0]) 0 p
  | .number text =>
      emit blocks (branch text).needed ((branch text).text ++ [0]) 0 p
  | .string text => bufferString blocks text p
  | .array [] => emit blocks 3 (Block.ofString "[]" ++ [0]) 0 p
  | .array (item :: items) => do
      let p ← emit blocks 1 [91] 1 p
      let p ← bufferItems (depth + 1) (item :: items) p
      emit blocks 2 [93, 0] 0 p
  | .object [] =>
      emit blocks (if fmt then depth + 4 else 3)
        (123 :: (layout fmt (10 :: tabs (depth - 1)) ++ [125, 0])) 0 p
  | .object (member :: members) => do
      let len := if fmt then 2 else 1
      let p ← emit blocks (len + 1) (123 :: (layout fmt [10] ++ [0])) len p
      let p ← bufferMembers (depth + 1) (member :: members) p
      emit blocks (if fmt then depth + 2 else 2)
        (layout fmt (tabs depth) ++ [125, 0]) 0 p

def bufferItems (depth : Nat) (items : List Json) (p : PrintBuffer) :
    Option PrintBuffer :=
  match items with
  | [] => some p
  | item :: items => do
      let p ← bufferValue depth item p
      let p ← update p
      let len := if fmt then 2 else 1
      let p ← (if items.isEmpty then some p
        else emit blocks (len + 1) (44 :: (layout fmt [32] ++ [0])) len p)
      bufferItems depth items p

def bufferMembers (depth : Nat) (members : List (Block × Json))
    (p : PrintBuffer) : Option PrintBuffer :=
  match members with
  | [] => some p
  | (string, item) :: members => do
      let p ← (if fmt then emit blocks depth (tabs depth) depth p else some p)
      let p ← bufferString blocks string p
      let p ← update p
      let len := if fmt then 2 else 1
      let p ← emit blocks len (58 :: layout fmt [9]) len p
      let p ← bufferValue depth item p
      let p ← update p
      let len := (if fmt then 1 else 0) + (if members.isEmpty then 0 else 1)
      let p ← emit blocks (len + 1)
        ((if members.isEmpty then [] else [44]) ++ (layout fmt [10] ++ [0]))
        len p
      bufferMembers depth members p

end

/-- `cJSON_PrintBuffered`: the string that it answers, if it is not `NULL`, and
what it asked for. -/
def cJSONPrintBuffered (prebuffer : Nat) (value : Json) :
    Option (Option Block × List Nat) := do
  let p : PrintBuffer :=
    { buffer := blocks.answer 0 prebuffer, offset := 0, asked := [prebuffer] }
  let p ← bufferValue blocks branch fmt 0 value p
  match p.buffer with
  | none => some (none, p.asked)
  | some buffer =>
      let text ← Block.cString buffer
      some (some text, p.asked)

/-! The buffer. -/

theorem le_smear (shift x : Nat) : x ≤ smear shift x := Nat.left_le_or

theorem smear_lt {x n : Nat} (shift : Nat) (small : x < 2 ^ n) :
    smear shift x < 2 ^ n :=
  Nat.or_lt_two_pow small ((Nat.shiftRight_le x shift).trans_lt small)

theorem le_pow2gt (x : Nat) : x ≤ pow2gt x := by
  have grown : x - 1 ≤ pow2gt x - 1 :=
    calc x - 1
      _ ≤ smear 1 (x - 1) := le_smear _ _
      _ ≤ smear 2 _ := le_smear _ _
      _ ≤ smear 4 _ := le_smear _ _
      _ ≤ smear 8 _ := le_smear _ _
      _ ≤ smear 16 _ := le_smear _ _
  have positive : 0 < pow2gt x := Nat.succ_pos _
  omega

theorem pow2gt_le {x n : Nat} (positive : 0 < x) (bound : x ≤ 2 ^ n) :
    pow2gt x ≤ 2 ^ n := by
  have small : x - 1 < 2 ^ n := by omega
  exact smear_lt 16 (smear_lt 8 (smear_lt 4 (smear_lt 2 (smear_lt 1 small))))

/-- The last block that was asked for was refused. -/
def Refused (asked : List Nat) : Prop :=
  ∃ earlier size, asked = earlier ++ [size] ∧
    blocks.answer earlier.length size = none

/-- There was no room for the buffer. -/
def Failed (p : PrintBuffer) : Prop :=
  p.buffer = none ∧ Refused blocks p.asked

/-- The offset is behind a text. -/
def Behind (before : Block) (p : PrintBuffer) : Prop :=
  Failed blocks p ∨ ∃ buffer, p.buffer = some buffer ∧ before <+: buffer ∧
    p.offset = before.length

/-- Behind a text stands another one that ends in a NUL, and the offset is
somewhere in it. -/
def Printed (before text : Block) (p : PrintBuffer) : Prop :=
  Failed blocks p ∨ ∃ buffer, p.buffer = some buffer ∧
    before ++ (text ++ [0]) <+: buffer ∧ before.length ≤ p.offset ∧
      p.offset ≤ before.length + text.length

variable {blocks} {before text : Block} {p : PrintBuffer}

theorem ensure_behind {needed : Nat} (behind : Behind blocks before p)
    (small : before.length + needed ≤ 2 ^ 30) :
    ∃ p', ensure blocks needed p = some p' ∧ (Failed blocks p' ∨
      ∃ buffer, p'.buffer = some buffer ∧ before <+: buffer ∧
        p'.offset = before.length ∧
          before.length + needed ≤ buffer.length) := by
  rcases behind with failed | ⟨buffer, some_buffer, written, offset⟩
  · refine ⟨p, ?_, .inl failed⟩
    rw [ensure, failed.1]
  · rw [ensure, some_buffer, offset]
    dsimp only
    rw [if_neg (by omega)]
    split
    · exact ⟨p, rfl, .inr ⟨buffer, some_buffer, written, offset, by omega⟩⟩
    · have enough := le_pow2gt (needed + before.length)
      have bound : pow2gt (needed + before.length) ≤ 2 ^ 30 :=
        pow2gt_le (by omega) (by omega)
      rw [if_neg (by omega)]
      rw [List.length_append, List.length_singleton, Nat.add_sub_cancel]
      cases answer : blocks.answer p.asked.length
          (pow2gt (needed + before.length)) with
      | none => exact ⟨_, rfl, .inl ⟨rfl, _, _, rfl, answer⟩⟩
      | some newbuffer =>
          have length := blocks.length answer
          have fits : 0 + buffer.length ≤ newbuffer.length := by omega
          have stored := Block.store_eq_some fits
          refine ⟨{ p with
            buffer := some (newbuffer.take 0 ++
              (buffer ++ newbuffer.drop (0 + buffer.length)))
            asked := p.asked ++ [pow2gt (needed + before.length)] }, ?_,
            .inr ⟨_, rfl, ?_, offset, ?_⟩⟩
          · dsimp only
            rw [stored, offset]
            rfl
          · exact written.trans (List.prefix_append buffer _)
          · rw [Block.length_store stored]
            omega

theorem emit_spec {needed : Nat} (bytes : Block) (advance : Nat)
    (behind : Behind blocks before p) (within : bytes.length ≤ needed)
    (small : before.length + needed ≤ 2 ^ 30) :
    ∃ p', emit blocks needed bytes advance p = some p' ∧
      (Failed blocks p' ∨ ∃ buffer, p'.buffer = some buffer ∧
        before ++ bytes <+: buffer ∧ p'.offset = before.length + advance) := by
  obtain ⟨p', ensured, either⟩ := ensure_behind behind small
  rw [emit, ensured]
  rcases either with failed | ⟨buffer, some_buffer, written, offset, length⟩
  · refine ⟨p', ?_, .inl failed⟩
    simp [failed.1]
  · have fits : before.length + bytes.length ≤ buffer.length := by omega
    refine ⟨{ p' with
      buffer := some (buffer.take before.length ++
        (bytes ++ buffer.drop (before.length + bytes.length)))
      offset := before.length + advance }, ?_, .inr ⟨_, rfl, ?_, rfl⟩⟩
    · simp only [bind, Option.bind_some, some_buffer, offset,
        Block.store_eq_some fits]
    · rw [← List.prefix_iff_eq_take.mp written, ← List.append_assoc]
      exact List.prefix_append _ _

theorem emit_behind {needed advance : Nat} {bytes : Block}
    (text more : Block) (behind : Behind blocks before p)
    (same : bytes = text ++ more) (length : advance = text.length)
    (within : bytes.length ≤ needed)
    (small : before.length + needed ≤ 2 ^ 30) :
    ∃ p', emit blocks needed bytes advance p = some p' ∧
      Behind blocks (before ++ text) p' := by
  obtain ⟨p', emitted, either⟩ := emit_spec bytes advance behind within small
  refine ⟨p', emitted, either.imp_right ?_⟩
  rintro ⟨buffer, some_buffer, written, offset⟩
  refine ⟨buffer, some_buffer, ?_, ?_⟩
  · rw [same, ← List.append_assoc] at written
    exact (List.prefix_append _ _).trans written
  · rw [offset, length, List.length_append]

theorem emit_printed {needed : Nat} {bytes text : Block}
    (behind : Behind blocks before p) (same : bytes = text ++ [0])
    (within : bytes.length ≤ needed)
    (small : before.length + needed ≤ 2 ^ 30) :
    ∃ p', emit blocks needed bytes 0 p = some p' ∧
      Printed blocks before text p' := by
  obtain ⟨p', emitted, either⟩ := emit_spec bytes 0 behind within small
  refine ⟨p', emitted, either.imp_right ?_⟩
  rintro ⟨buffer, some_buffer, written, offset⟩
  rw [same] at written
  exact ⟨buffer, some_buffer, written, by omega, by omega⟩

theorem Printed.extend {first : Block}
    (printed : Printed blocks (before ++ first) text p) :
    Printed blocks before (first ++ text) p := by
  refine printed.imp_right ?_
  rintro ⟨buffer, some_buffer, written, above, below⟩
  rw [List.length_append] at above below
  refine ⟨buffer, some_buffer, ?_, by omega, ?_⟩
  · rwa [List.append_assoc, ← List.append_assoc first] at written
  · rw [List.length_append]
    omega

theorem update_printed (printed : Printed blocks before text p)
    (noNul : (0 : UInt8) ∉ text) :
    ∃ p', update p = some p' ∧ Behind blocks (before ++ text) p' := by
  rcases printed with failed | ⟨buffer, some_buffer, written, above, below⟩
  · refine ⟨{ p with offset := 0 }, ?_, .inl ⟨failed.1, failed.2⟩⟩
    rw [update, failed.1]
  · obtain ⟨skipped, offset⟩ := Nat.exists_eq_add_of_le above
    have string : Block.cString (buffer.drop p.offset) =
        some (text.drop skipped) := by
      refine Block.cString_eq_some_iff.mpr
        ⟨fun member => noNul (List.mem_of_mem_drop member), ?_⟩
      obtain ⟨rest, rfl⟩ := written
      have within : skipped ≤ (text ++ [0]).length := by
        rw [List.length_append]
        omega
      rw [offset, List.append_assoc, List.drop_length_add_append,
        List.drop_append_of_le_length within,
        List.drop_append_of_le_length (by omega)]
      exact List.prefix_append _ _
    refine ⟨{ p with offset := p.offset + (text.drop skipped).length }, ?_,
      .inr ⟨buffer, some_buffer, ?_, ?_⟩⟩
    · rw [update, some_buffer]
      dsimp only
      rw [string]
      rfl
    · rw [← List.append_assoc] at written
      exact (List.prefix_append _ _).trans written
    · dsimp only
      rw [offset, List.length_drop, List.length_append]
      omega

theorem bufferString_spec {string : Block} (noNul : (0 : UInt8) ∉ string)
    (behind : Behind blocks before p)
    (small : before.length + (stringText string).length + 1 ≤ 2 ^ 30) :
    ∃ p', bufferString blocks string p = some p' ∧
      Printed blocks before (stringText string) p' := by
  have length := length_stringText string
  have escaped := length_flatMap_escape string
  have written : 34 :: (string.flatMap escape ++ [34, 0]) =
      stringText string ++ [0] := by
    simp [stringText]
  have within : (34 :: (string.flatMap escape ++ [34, 0])).length =
      (string.map tokenRoom).sum + 3 := by
    simp [← escaped]
  rw [bufferString]
  split
  · exact emit_printed behind written (by omega) (by omega)
  · rename_i plain
    have same := flatMap_escape_of_plain noNul (Bool.eq_false_iff.mpr plain)
    rw [same] at written within escaped
    exact emit_printed behind written (by omega) (by omega)

/-! Trees. -/

variable {branch : Block → NumberBranch} {fmt : Bool}

/-- What `print_number` makes of the number that a text stands for. -/
def printNumber (branch : Block → NumberBranch) (text : Block) : Block :=
  (branch text).text

/-- It is a number of JSON, and what is asked for is enough for it. -/
theorem NumberBranch.Prints.within {way : NumberBranch} (prints : way.Prints) :
    Json.Number way.text ∧ way.text.length < way.needed ∧ way.needed ≤ 64 := by
  cases way with
  | zero => exact ⟨Format.number_integer 0, by decide, Nat.le_add_left 2 62⟩
  | int valueint =>
      obtain ⟨above, below⟩ := prints
      have short := @Format.length_integer_le valueint (by omega)
      exact ⟨Format.number_integer valueint, Nat.lt_of_le_of_lt short (by
        show 17 < 21
        decide), Nat.le_add_left 21 43⟩
  | double text => exact ⟨prints.1, prints.2, Nat.le_refl 64⟩

/-- All numbers of a value are printed well. -/
abbrev PrintsNumbers (branch : Block → NumberBranch) (text : Block) : Prop :=
  (branch text).Prints

theorem noNul_valueText {value : Json}
    (numbers : value.NumbersAre (PrintsNumbers branch)) (depth : Nat) :
    (0 : UInt8) ∉ valueText (printNumber branch) fmt depth value :=
  (valueText_written (printNumber branch) fmt
    (numbers.mono fun _ prints => prints.within.1) depth).noNul

theorem noNul_stringText (string : Block) :
    (0 : UInt8) ∉ stringText string := by
  have chars := (chars_flatMap_escape string).noNul
  simp [stringText, chars]

theorem emit_tabs {depth : Nat} (behind : Behind blocks before p)
    (small : before.length + (layout fmt (tabs depth)).length ≤ 2 ^ 30) :
    ∃ p', (if fmt then emit blocks depth (tabs depth) depth p else some p) =
        some p' ∧ Behind blocks (before ++ layout fmt (tabs depth)) p' := by
  cases fmt with
  | false => exact ⟨p, rfl, by simpa [layout] using behind⟩
  | true =>
      have length : (tabs depth).length = depth := List.length_replicate
      have room : before.length + depth ≤ 2 ^ 30 := by
        rw [← length]
        exact small
      exact emit_behind (tabs depth) [] behind (List.append_nil _).symm
        length.symm length.le room

theorem memberTexts_split (depth : Nat) (string : Block) (item : Json)
    (members : List (Block × Json)) :
    objectEntries fmt depth
        (memberTexts (printNumber branch) fmt depth
          ((string, item) :: members)) =
      layout fmt (tabs depth) ++ (stringText string ++
        (58 :: layout fmt [9] ++
          (valueText (printNumber branch) fmt depth item ++
            ((if members.isEmpty then [] else [44]) ++ layout fmt [10] ++
              objectEntries fmt depth
                (memberTexts (printNumber branch) fmt depth members))))) := by
  cases members with
  | nil => simp [memberTexts, objectEntries, objectEntry, layout]
  | cons next members =>
      simp [memberTexts, objectEntries, objectEntry, layout]

mutual

theorem bufferValue_spec {value : Json} (clean : value.NulFree)
    (numbers : value.NumbersAre (PrintsNumbers branch)) (depth : Nat)
    {before : Block} {p : PrintBuffer} (behind : Behind blocks before p)
    (small : before.length +
      (valueText (printNumber branch) fmt depth value).length + 64 ≤ 2 ^ 30) :
    ∃ p', bufferValue blocks branch fmt depth value p = some p' ∧
      Printed blocks before
        (valueText (printNumber branch) fmt depth value) p' := by
  match value with
  | .null => exact emit_printed behind rfl (Nat.le_refl 5) (by omega)
  | .bool false => exact emit_printed behind rfl (Nat.le_refl 6) (by omega)
  | .bool true => exact emit_printed behind rfl (Nat.le_refl 5) (by omega)
  | .number text =>
      obtain ⟨json, within, enough⟩ := numbers.within
      refine emit_printed behind rfl ?_ (by omega)
      rw [List.length_append, List.length_singleton]
      exact within
  | .string text =>
      rw [valueText] at small
      exact bufferString_spec clean behind (by omega)
  | .array [] => exact emit_printed behind rfl (Nat.le_refl 3) (by omega)
  | .array (item :: items) =>
      simp only [valueText, arrayText, List.length_cons,
        List.length_append] at small
      obtain ⟨opened, first, behind⟩ := @emit_behind blocks before p 1 1 [91]
        [91] [] behind rfl rfl (Nat.le_refl 1) (by omega)
      obtain ⟨filled, second, behind⟩ :=
        bufferItems_spec clean numbers (depth + 1) behind
          (by simp only [List.length_append, List.length_singleton]; omega)
      obtain ⟨closed, third, printed⟩ := @emit_printed blocks _ filled 2
        [93, 0] [93] behind rfl (Nat.le_refl 2)
        (by simp only [List.length_append, List.length_singleton]; omega)
      refine ⟨closed, ?_, ?_⟩
      · rw [bufferValue, first]
        dsimp only [bind, Option.bind]
        rw [second]
        exact third
      · rw [List.append_assoc] at printed
        have whole := printed.extend
        rwa [List.append_assoc] at whole
  | .object [] =>
      have written : (123 :: (layout fmt (10 :: tabs (depth - 1)) ++
          [125, 0]) : Block) =
          valueText (printNumber branch) fmt depth (.object []) ++ [0] := by
        cases fmt <;> simp [valueText, memberTexts, objectText, objectEntries,
          layout]
      have length :
          (valueText (printNumber branch) fmt depth (.object [])).length + 1 ≤
          if fmt then depth + 4 else 3 := by
        cases fmt with
        | false => exact Nat.le_refl 3
        | true =>
            simp [valueText, memberTexts, objectText, objectEntries, tabs]
      have above : (if fmt then depth + 4 else 3) ≤
          (valueText (printNumber branch) fmt depth
            (.object [])).length + 2 := by
        cases fmt with
        | false => exact Nat.le_succ 3
        | true =>
            simp [valueText, memberTexts, objectText, objectEntries, tabs]
            omega
      refine emit_printed behind written ?_ (by omega)
      rw [written, List.length_append, List.length_singleton]
      exact length
  | .object ((string, item) :: members) =>
      have whole : valueText (printNumber branch) fmt depth
          (.object ((string, item) :: members)) =
          (123 :: layout fmt [10]) ++ (objectEntries fmt (depth + 1)
            (memberTexts (printNumber branch) fmt (depth + 1)
              ((string, item) :: members)) ++
              (layout fmt (tabs depth) ++ [125])) := rfl
      have len : (if fmt then 2 else 1) = (123 :: layout fmt [10]).length := by
        cases fmt <;> rfl
      have room : (layout fmt (tabs depth) ++ [125, 0]).length =
          if fmt then depth + 2 else 2 := by
        cases fmt <;> simp [layout, tabs]
      rw [whole, List.length_append, List.length_append, ← len] at small
      rw [List.length_append] at room small
      have two : ([125, 0] : Block).length = 2 := rfl
      have one : ([125] : Block).length = 1 := rfl
      obtain ⟨opened, first, behind⟩ :=
        @emit_behind blocks before p ((if fmt then 2 else 1) + 1) _
          (123 :: (layout fmt [10] ++ [0])) (123 :: layout fmt [10]) [0]
          behind rfl len (by rw [len]; simp) (by omega)
      obtain ⟨filled, second, behind⟩ :=
        bufferMembers_spec clean numbers (depth + 1) behind
          (by rw [List.length_append, ← len]; omega)
      obtain ⟨closed, third, printed⟩ := @emit_printed blocks _ filled
        (if fmt then depth + 2 else 2) _ (layout fmt (tabs depth) ++ [125])
        behind (List.append_assoc _ [125] [0]).symm
        (by rw [List.length_append]; exact room.le)
        (by rw [List.length_append, List.length_append, ← len]; omega)
      refine ⟨closed, ?_, ?_⟩
      · rw [bufferValue]
        dsimp only [bind, Option.bind]
        rw [first]
        dsimp only
        rw [second]
        exact third
      · rw [whole, ← List.append_assoc]
        rw [List.append_assoc] at printed
        exact printed.extend

theorem bufferItems_spec {items : List Json}
    (clean : Json.NulFreeItems items)
    (numbers : Json.NumbersAreItems (PrintsNumbers branch) items)
    (depth : Nat) {before : Block} {p : PrintBuffer}
    (behind : Behind blocks before p)
    (small : before.length +
      (arrayEntries fmt
        (itemTexts (printNumber branch) fmt depth items)).length + 64 ≤
          2 ^ 30) :
    ∃ p', bufferItems blocks branch fmt depth items p = some p' ∧
      Behind blocks
        (before ++ arrayEntries fmt
          (itemTexts (printNumber branch) fmt depth items)) p' := by
  match items with
  | [] => exact ⟨p, rfl, by simpa [itemTexts, arrayEntries] using behind⟩
  | [item] =>
      simp only [itemTexts, arrayEntries] at small ⊢
      obtain ⟨printed, first, text⟩ :=
        bufferValue_spec clean.1 numbers.1 depth behind small
      obtain ⟨updated, second, behind⟩ := update_printed text
        (noNul_valueText numbers.1 depth)
      refine ⟨updated, ?_, behind⟩
      rw [bufferItems, first]
      dsimp only [bind, Option.bind]
      rw [second]
      rfl
  | item :: next :: items =>
      have len : (if fmt then 2 else 1) = (44 :: layout fmt [32]).length := by
        cases fmt <;> rfl
      have whole : arrayEntries fmt
          (itemTexts (printNumber branch) fmt depth (item :: next :: items)) =
          valueText (printNumber branch) fmt depth item ++
            (44 :: layout fmt [32] ++ arrayEntries fmt
              (itemTexts (printNumber branch) fmt depth (next :: items))) :=
        rfl
      rw [whole, List.length_append, List.length_append, ← len] at small
      obtain ⟨printed, first, text⟩ :=
        bufferValue_spec clean.1 numbers.1 depth behind (by omega)
      obtain ⟨updated, second, behind⟩ := update_printed text
        (noNul_valueText numbers.1 depth)
      obtain ⟨parted, third, behind⟩ :=
        @emit_behind blocks _ updated ((if fmt then 2 else 1) + 1) _
          (44 :: (layout fmt [32] ++ [0])) (44 :: layout fmt [32]) [0] behind
          rfl len (by rw [len]; simp)
          (by rw [List.length_append]; omega)
      obtain ⟨filled, fourth, behind⟩ :=
        bufferItems_spec clean.2 numbers.2 depth behind
          (by rw [List.length_append, List.length_append, ← len]; omega)
      refine ⟨filled, ?_, ?_⟩
      · rw [bufferItems, first]
        dsimp only [bind, Option.bind]
        rw [second]
        dsimp only [List.isEmpty_cons]
        rw [if_neg Bool.false_ne_true, third]
        exact fourth
      · rwa [whole, ← List.append_assoc, ← List.append_assoc]

theorem bufferMembers_spec {members : List (Block × Json)}
    (clean : Json.NulFreeMembers members)
    (numbers : Json.NumbersAreMembers (PrintsNumbers branch) members)
    (depth : Nat) {before : Block} {p : PrintBuffer}
    (behind : Behind blocks before p)
    (small : before.length +
      (objectEntries fmt depth
        (memberTexts (printNumber branch) fmt depth members)).length + 64 ≤
          2 ^ 30) :
    ∃ p', bufferMembers blocks branch fmt depth members p = some p' ∧
      Behind blocks
        (before ++ objectEntries fmt depth
          (memberTexts (printNumber branch) fmt depth members)) p' := by
  match members with
  | [] => exact ⟨p, rfl, by simpa [memberTexts, objectEntries] using behind⟩
  | (string, item) :: members =>
      have colon : (if fmt then 2 else 1) = (58 :: layout fmt [9]).length := by
        cases fmt <;> rfl
      have comma : (if fmt then 1 else 0) + (if members.isEmpty then 0 else 1) =
          ((if members.isEmpty then [] else [44]) ++
            layout fmt [10] : Block).length := by
        cases fmt <;> cases members <;> rfl
      have ended : ((if members.isEmpty then [] else [44]) ++
          (layout fmt [10] ++ [0]) : Block) =
          (if members.isEmpty then [] else [44]) ++ layout fmt [10] ++ [0] :=
        (List.append_assoc _ _ _).symm
      rw [memberTexts_split] at small ⊢
      simp only [List.length_append, ← colon] at small
      rw [List.length_append] at comma
      obtain ⟨indented, first, behind⟩ := @emit_tabs blocks before p fmt depth
        behind (by omega)
      obtain ⟨named, second, text⟩ := bufferString_spec clean.1 behind
        (by simp only [List.length_append]; omega)
      obtain ⟨moved, third, behind⟩ :=
        update_printed text (noNul_stringText _)
      obtain ⟨opened, fourth, behind⟩ :=
        @emit_behind blocks _ moved (if fmt then 2 else 1) _
          (58 :: layout fmt [9]) (58 :: layout fmt [9]) [] behind
          (List.append_nil _).symm colon colon.symm.le
          (by simp only [List.length_append]; omega)
      obtain ⟨printed, fifth, text⟩ :=
        bufferValue_spec clean.2.1 numbers.1 depth behind
          (by simp only [List.length_append, ← colon]; omega)
      obtain ⟨updated, sixth, behind⟩ := update_printed text
        (noNul_valueText numbers.1 depth)
      obtain ⟨parted, seventh, behind⟩ :=
        @emit_behind blocks _ updated
          ((if fmt then 1 else 0) + (if members.isEmpty then 0 else 1) + 1)
          ((if fmt then 1 else 0) + (if members.isEmpty then 0 else 1)) _
          ((if members.isEmpty then [] else [44]) ++ layout fmt [10]) [0]
          behind ended (by rw [List.length_append]; exact comma)
          (by rw [ended, List.length_append, List.length_append, ← comma]; rfl)
          (by simp only [List.length_append, ← colon]; omega)
      obtain ⟨filled, eighth, behind⟩ :=
        bufferMembers_spec clean.2.2 numbers.2 depth behind
          (by simp only [List.length_append, ← colon]; omega)
      refine ⟨filled, ?_, ?_⟩
      · rw [bufferMembers]
        dsimp only [bind, Option.bind]
        rw [first]
        dsimp only
        rw [second]
        dsimp only
        rw [third]
        dsimp only
        rw [fourth]
        dsimp only
        rw [fifth]
        dsimp only
        rw [sixth]
        dsimp only
        rw [seventh]
        exact eighth
      · simpa only [List.append_assoc] using behind

end

/-- Whatever size the buffer starts with and whatever `cJSON_malloc` answers,
nothing is written outside of the buffer, and the text in it is the one that is
printed without it, unless a block that was asked for was refused. -/
theorem cJSONPrintBuffered_agrees {value : Json} (clean : value.NulFree)
    (numbers : value.NumbersAre (PrintsNumbers branch))
    (small : (valueText (printNumber branch) fmt 0 value).length + 64 ≤ 2 ^ 30)
    (prebuffer : Nat) :
    ∃ text asked,
      cJSONPrintBuffered blocks branch fmt prebuffer value =
          some (text, asked) ∧
        (text = printValue (printNumber branch) fmt 0 value ∧ text.isSome ∨
          text = none ∧ Refused blocks asked) := by
  have plain := printValue_eq (printNumber branch) fmt clean
    (numbers.mono fun text prints =>
      PrintsJson.printsNumber (printNumber branch) prints.within.1)
    (show Short (valueText (printNumber branch) fmt 0 value) by
      rw [Short]
      omega)
  have behind : Behind blocks []
      ⟨blocks.answer 0 prebuffer, 0, [prebuffer]⟩ := by
    cases answer : blocks.answer 0 prebuffer with
    | none => exact .inl ⟨rfl, [], prebuffer, rfl, answer⟩
    | some buffer => exact .inr ⟨buffer, rfl, List.nil_prefix, rfl⟩
  obtain ⟨p, done, printed⟩ := bufferValue_spec clean numbers 0 behind
    (by rw [List.length_nil, Nat.zero_add]; exact small)
  rw [cJSONPrintBuffered, plain]
  dsimp only [bind, Option.bind]
  rw [done]
  rcases printed with failed | ⟨buffer, some_buffer, written, -⟩
  · refine ⟨none, p.asked, ?_, .inr ⟨rfl, failed.2⟩⟩
    dsimp only
    rw [failed.1]
  · have string : Block.cString buffer =
        some (valueText (printNumber branch) fmt 0 value) :=
      Block.cString_eq_some_iff.mpr
        ⟨noNul_valueText numbers 0, written⟩
    refine ⟨some (valueText (printNumber branch) fmt 0 value), p.asked, ?_,
      .inl ⟨rfl, rfl⟩⟩
    dsimp only
    rw [some_buffer]
    dsimp only
    rw [string]

end

/-- Blocks of up to 16 bytes are there, all zero, but no larger ones. -/
def smallBlocks : Blocks where
  answer _ size := if size ≤ 16 then some (List.replicate size 0) else none
  length := by
    intro call size block answer
    obtain ⟨-, answer⟩ := Option.ite_none_right_eq_some.mp answer
    cases answer
    exact List.length_replicate

/-- The buffer grows from one byte to 16, and then is refused. -/
theorem nestedTree_buffered :
    ∃ text asked,
      cJSONPrintBuffered smallBlocks (fun _ => .int 1) true 1 nestedTree =
          some (text, asked) ∧
        (text = printValue (printNumber fun _ => .int 1) true 0 nestedTree ∧
            text.isSome ∨
          text = none ∧ Refused smallBlocks asked) := by
  refine cJSONPrintBuffered_agrees ?_ ?_ (by decide) 1
  · simp [nestedTree, Json.NulFree, Json.NulFreeItems, Json.NulFreeMembers]
  · exact ⟨⟨⟨by decide, by decide⟩, trivial, trivial⟩, trivial⟩

end Molten.Collector.CJson
