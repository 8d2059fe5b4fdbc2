import Molten.Php.Zval
import Molten.Text.Decimal

namespace Molten.Php

open Molten.Text

/-! What `json_encode` makes of PHP values. -/

/-- The characters of Unicode, each in its bytes. -/
def Utf8 (text : Block) : Prop :=
  ∃ chars : List Char, text = chars.flatMap String.utf8EncodeChar

theorem utf8_of_ascii {text : Block} (ascii : ∀ byte ∈ text, byte < 128) :
    Utf8 text := by
  have single : ∀ n < 128,
      String.utf8EncodeChar (Char.ofNat n) = [UInt8.ofNat n] := by decide
  refine ⟨text.map fun byte => Char.ofNat byte.toNat, ?_⟩
  induction text with
  | nil => rfl
  | cons byte text induction =>
      obtain ⟨low, rest⟩ := List.forall_mem_cons.mp ascii
      rw [List.map_cons, List.flatMap_cons,
        single _ (UInt8.lt_iff_toNat_lt.mp low), UInt8.ofNat_toNat,
        ← induction rest]
      rfl

theorem utf8_ofString {text : String}
    (ascii : (Block.ofString text).all (fun byte => byte < 128) = true) :
    Utf8 (Block.ofString text) :=
  utf8_of_ascii (Block.forall_of_all ascii)

def Key.bytes : Key → Block
  | .index number => Format.decimal number
  | .name text => Block.ofString text

def Key.Utf8 : Key → Prop
  | .index _ => True
  | .name text => Php.Utf8 (Block.ofString text)

/-- The keys count on from a number, so that the array is a list. -/
def HashTable.isList (start : Nat) : HashTable → Bool
  | [] => true
  | (.index number, _) :: table => number == start && isList (start + 1) table
  | (.name _, _) :: _ => false

namespace Zval

/-- There is no object and no resource in the value, and arrays are nested to
a depth at most. -/
def Plain : Nat → Zval → Prop
  | _, .object _ => False
  | _, .resource _ => False
  | 0, .array _ => False
  | depth + 1, .array entries => ∀ entry ∈ entries, Plain depth entry.2
  | _, _ => True

mutual

/-- The strings and the names in the value are UTF-8. -/
def Utf8 : Zval → Prop
  | .string text => Php.Utf8 (Block.ofString text)
  | .array entries => Utf8Entries entries
  | _ => True

def Utf8Entries : List (Key × Zval) → Prop
  | [] => True
  | (key, value) :: entries => key.Utf8 ∧ value.Utf8 ∧ Utf8Entries entries

end

section Plain

variable {depth : Nat}

theorem plain_bool (value : Bool) : (Zval.bool value).Plain depth := by
  cases depth <;> trivial

theorem plain_long (value : Int) : (Zval.long value).Plain depth := by
  cases depth <;> trivial

theorem plain_double (value : Int) : (Zval.double value).Plain depth := by
  cases depth <;> trivial

theorem plain_string (text : String) : (Zval.string text).Plain depth := by
  cases depth <;> trivial

theorem Plain.mono {value : Zval} (plain : value.Plain depth) {more : Nat}
    (deeper : depth ≤ more) : value.Plain more := by
  induction depth generalizing value more with
  | zero => cases value <;> cases more <;> trivial
  | succ depth induction =>
      obtain ⟨more, rfl⟩ := Nat.exists_eq_add_of_le' deeper
      cases value with
      | array entries =>
          exact fun entry member =>
            induction (plain entry member) (Nat.le_add_left depth more)
      | object handle => cases plain
      | resource handle => cases plain
      | null => trivial
      | bool value => trivial
      | long value => trivial
      | double value => trivial
      | string text => trivial

end Plain

section

variable (double : Int → Block)

mutual

/-- The JSON value of a plain value.  `double` tells the text of a float. -/
def toJson : Zval → Json
  | .bool value => .bool value
  | .long value => .number (Format.integer value)
  | .double value => .number (double value)
  | .string text => .string (Block.ofString text)
  | .array entries =>
      if HashTable.isList 0 entries then .array (toItems entries)
      else .object (toMembers entries)
  | _ => .null

def toItems : List (Key × Zval) → List Json
  | [] => []
  | (_, value) :: entries => value.toJson :: toItems entries

def toMembers : List (Key × Zval) → List (Block × Json)
  | [] => []
  | (key, value) :: entries => (key.bytes, value.toJson) :: toMembers entries

end

end

end Zval

def jsonDepth : Nat := 512

/-- `json_encode`, without any options.  It may fail on strings that are not
UTF-8 and on arrays that are nested too deep.  Else the text stands for the
value, and has no line breaks. -/
structure JsonEncode where
  double : Int → Block
  encode : Zval → Option Block
  encodes : ∀ {value : Zval}, value.Plain jsonDepth → value.Utf8 →
    ∃ text, encode value = some text ∧
      Json.Decodes text (value.toJson double) ∧ (10 : UInt8) ∉ text

namespace HashTable

variable {table : HashTable} {key : Key} {value : Zval} {depth : Nat}

def Plain (depth : Nat) (table : HashTable) : Prop :=
  ∀ entry ∈ table, entry.2.Plain depth

theorem plain_array :
    (Zval.array table).Plain (depth + 1) ↔ table.Plain depth := Iff.rfl

theorem plain_nil : Plain depth [] := fun _ => False.elim ∘ List.not_mem_nil

theorem plain_empty : (Zval.array []).Plain (depth + 1) :=
  plain_array.mpr plain_nil

theorem utf8_array : (Zval.array table).Utf8 ↔
    ∀ entry ∈ table, entry.1.Utf8 ∧ entry.2.Utf8 := by
  change Zval.Utf8Entries table ↔ _
  induction table with
  | nil => exact iff_of_true trivial fun _ => False.elim ∘ List.not_mem_nil
  | cons entry table induction =>
      rw [List.forall_mem_cons, ← induction, and_assoc]
      rfl

theorem mem_update {entry : Key × Zval}
    (member : entry ∈ table.update key value) :
    entry ∈ table ∨ entry = (key, value) := by
  induction table with
  | nil => exact .inr (List.mem_singleton.mp member)
  | cons first table induction =>
      obtain ⟨other, old⟩ := first
      rw [HashTable.update] at member
      split at member
      · rcases List.mem_cons.mp member with same | rest
        · exact .inr same
        · exact .inl (List.mem_cons_of_mem _ rest)
      · rcases List.mem_cons.mp member with rfl | rest
        · exact .inl List.mem_cons_self
        · exact (induction rest).imp_left (List.mem_cons_of_mem _)

theorem mem_of_find (found : table.find key = some value) :
    (key, value) ∈ table := by
  induction table with
  | nil => cases found
  | cons first table induction =>
      obtain ⟨other, old⟩ := first
      rw [HashTable.find] at found
      split at found
      · rename_i same
        cases found
        exact same ▸ List.mem_cons_self
      · exact List.mem_cons_of_mem _ (induction found)

theorem Plain.update (plain : table.Plain depth) (key : Key)
    (added : value.Plain depth) : (table.update key value).Plain depth := by
  intro entry member
  rcases mem_update member with old | rfl
  · exact plain entry old
  · exact added

theorem Plain.addAssoc (plain : table.Plain depth) (name : String)
    (added : value.Plain depth) : (table.addAssoc name value).Plain depth :=
  plain.update (.name name) added

theorem Plain.push (plain : table.Plain depth) (added : value.Plain depth) :
    (table.push value).Plain depth := by
  intro entry member
  rcases List.mem_append.mp member with old | new
  · exact plain entry old
  · rw [List.mem_singleton.mp new]
    exact added

theorem Plain.find (plain : table.Plain depth)
    (found : table.find key = some value) : value.Plain depth :=
  plain _ (mem_of_find found)

theorem Plain.within (plain : table.Plain (depth + 1)) (name : String)
    {change : HashTable → HashTable}
    (keeps : ∀ entries : HashTable, entries.Plain depth →
      (change entries).Plain depth) :
    (table.within name change).Plain (depth + 1) := by
  rw [HashTable.within]
  split
  · rename_i entries found
    exact plain.addAssoc name
      (plain_array.mpr (keeps entries (plain_array.mp (plain.find found))))
  · exact plain

/-! Arrays that are lists. -/

theorem utf8_list {start : Nat} (list : table.isList start = true) :
    (Zval.array table).Utf8 ↔ ∀ value ∈ table.values, value.Utf8 := by
  rw [utf8_array, values, List.forall_mem_map]
  refine forall₂_congr fun entry member => and_iff_right ?_
  induction table generalizing start with
  | nil => cases member
  | cons first table induction =>
      obtain ⟨key, value⟩ := first
      cases key with
      | name text => cases list
      | index number =>
          rcases List.mem_cons.mp member with rfl | inside
          · trivial
          · rw [isList, Bool.and_eq_true] at list
            exact induction list.2 inside

theorem isList_push {start : Nat} (list : table.isList start = true) :
    isList start (table ++ [(Key.index (start + table.length), value)]) =
      true := by
  induction table generalizing start with
  | nil => simp [isList]
  | cons entry table induction =>
      obtain ⟨other, old⟩ := entry
      cases other with
      | name text => cases list
      | index number =>
          rw [isList, Bool.and_eq_true] at list
          have rest := induction list.2
          rw [List.cons_append, isList, list.1, List.length_cons,
            ← Nat.add_assoc, Nat.add_right_comm]
          exact rest

theorem nextIndex_of_isList {start : Nat} (list : table.isList start = true)
    (nonempty : table ≠ []) : table.nextIndex = start + table.length := by
  induction table generalizing start with
  | nil => exact (nonempty rfl).elim
  | cons entry table induction =>
      obtain ⟨other, old⟩ := entry
      cases other with
      | name text => cases list
      | index number =>
          rw [isList, Bool.and_eq_true, beq_iff_eq] at list
          obtain ⟨rfl, rest⟩ := list
          rw [nextIndex, List.length_cons]
          cases table with
          | nil => rfl
          | cons next table =>
              rw [induction rest (List.cons_ne_nil _ _)]
              omega

theorem isList_push_zero (list : table.isList 0 = true) :
    (table.push value).isList 0 = true := by
  have next : table.nextIndex = 0 + table.length := by
    cases table with
    | nil => rfl
    | cons entry table =>
        exact nextIndex_of_isList list (List.cons_ne_nil _ _)
  rw [push, next]
  exact isList_push list

theorem toItems_eq (double : Int → Block) (table : HashTable) :
    Zval.toItems double table = table.values.map (Zval.toJson double) := by
  induction table with
  | nil => rfl
  | cons entry table induction =>
      change Zval.toJson double entry.2 :: Zval.toItems double table = _
      rw [induction]
      rfl

theorem toJson_list (double : Int → Block) (list : table.isList 0 = true) :
    (Zval.array table).toJson double =
      .array (table.values.map (Zval.toJson double)) := by
  rw [Zval.toJson, if_pos list, toItems_eq]

end HashTable

end Molten.Php
