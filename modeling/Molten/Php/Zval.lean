import Mathlib.Data.List.Basic

namespace Molten.Php

/-! PHP values.  An array is the list of its entries in insertion order, and no
entry is ever deleted here. -/

inductive Key
  | index (number : Nat)
  | name (text : String)
  deriving DecidableEq, Repr

def Key.isIn (names : List String) : Key → Bool
  | .index _ => false
  | .name text => decide (text ∈ names)

inductive Zval
  | null
  | bool (value : Bool)
  | long (value : Int)
  | double (value : Int)
  | string (text : String)
  | array (entries : List (Key × Zval))
  | object (handle : Nat)
  | resource (handle : Nat)

abbrev HashTable := List (Key × Zval)

namespace HashTable

def find (key : Key) : HashTable → Option Zval
  | [] => none
  | (other, value) :: table =>
      if other = key then some value else find key table

def update (key : Key) (value : Zval) : HashTable → HashTable
  | [] => [(key, value)]
  | (other, old) :: table =>
      if other = key then (key, value) :: table
      else (other, old) :: update key value table

def nextIndex : HashTable → Nat
  | [] => 0
  | (.index number, _) :: table => max (number + 1) (nextIndex table)
  | (.name _, _) :: table => nextIndex table

/-- `add_assoc_zval` -/
def addAssoc (table : HashTable) (name : String) (value : Zval) : HashTable :=
  table.update (.name name) value

/-- `add_next_index_zval` -/
def push (table : HashTable) (value : Zval) : HashTable :=
  table ++ [(.index table.nextIndex, value)]

def values (table : HashTable) : List Zval := table.map Prod.snd

/-- Change the array under a name, if there is one. -/
def within (table : HashTable) (name : String)
    (change : HashTable → HashTable) : HashTable :=
  match table.find (.name name) with
  | some (.array entries) => table.addAssoc name (.array (change entries))
  | _ => table

def inner (table : HashTable) (name : String) : HashTable :=
  match table.find (.name name) with
  | some (.array entries) => entries
  | _ => []

def HasArray (table : HashTable) (name : String) : Prop :=
  ∃ entries, table.find (.name name) = some (.array entries)

def without (names : List String) (table : HashTable) : HashTable :=
  table.filter fun entry => !entry.1.isIn names

end HashTable

/-- `convert_to_array` -/
def Zval.toArray : Zval → HashTable
  | .array entries => entries
  | value => [(.index 0, value)]

mutual
/-- `php_array_merge_recursive` -/
def HashTable.mergeRecursive (dest : HashTable) :
    List (Key × Zval) → HashTable
  | [] => dest
  | entry :: src => (dest.mergeEntry entry).mergeRecursive src

def HashTable.mergeEntry (dest : HashTable) : Key × Zval → HashTable
  | (.index _, value) => dest.push value
  | (.name text, value) =>
      match dest.find (.name text) with
      | none => dest ++ [(.name text, value)]
      | some old =>
          dest.update (.name text) (.array (old.toArray.mergeValue value))

def HashTable.mergeValue (dest : HashTable) : Zval → HashTable
  | .array entries => dest.mergeRecursive entries
  | value => dest.push value
end

namespace HashTable

variable {name other : String} {value : Zval} {table : HashTable}

@[simp] theorem find_addAssoc_self :
    (table.addAssoc name value).find (.name name) = some value := by
  unfold addAssoc
  induction table with
  | nil => simp [update, find]
  | cons entry table ih =>
      obtain ⟨key, old⟩ := entry
      by_cases heq : key = .name name
      · simp [update, find, heq]
      · simp [update, find, heq, ih]

theorem find_addAssoc_of_ne (hne : other ≠ name) :
    (table.addAssoc name value).find (.name other) =
      table.find (.name other) := by
  have hkey : Key.name name ≠ Key.name other := fun h =>
    hne (Key.name.inj h).symm
  unfold addAssoc
  induction table with
  | nil => simp [update, find, hkey]
  | cons entry table ih =>
      obtain ⟨key, old⟩ := entry
      by_cases heq : key = .name name
      · subst heq
        simp [update, find, hkey]
      · simp [update, find, heq, ih]

@[simp] theorem values_push :
    (table.push value).values = table.values ++ [value] := by
  simp [push, values]

theorem inner_addAssoc_of_ne (hne : other ≠ name) :
    (table.addAssoc name value).inner other = table.inner other := by
  rw [inner, find_addAssoc_of_ne hne, inner]

@[simp] theorem inner_addAssoc_self (entries : HashTable) :
    (table.addAssoc name (.array entries)).inner name = entries := by
  rw [inner, find_addAssoc_self]

theorem HasArray.inner_within (h : table.HasArray name)
    (change : HashTable → HashTable) :
    (table.within name change).inner name = change (table.inner name) := by
  obtain ⟨entries, h⟩ := h
  simp [within, inner, h]

theorem inner_within_of_ne (hne : other ≠ name)
    (change : HashTable → HashTable) :
    (table.within name change).inner other = table.inner other := by
  unfold within
  split
  · exact inner_addAssoc_of_ne hne
  · rfl

theorem find_within_of_ne (hne : other ≠ name)
    (change : HashTable → HashTable) :
    (table.within name change).find (.name other) =
      table.find (.name other) := by
  unfold within
  split
  · exact find_addAssoc_of_ne hne
  · rfl

theorem hasArray_addAssoc (hne : other ≠ name) :
    (table.addAssoc name value).HasArray other ↔ table.HasArray other := by
  rw [HasArray, find_addAssoc_of_ne hne, HasArray]

theorem hasArray_within (change : HashTable → HashTable) :
    (table.within name change).HasArray other ↔ table.HasArray other := by
  by_cases heq : other = name
  · subst heq
    unfold within
    split
    · rename_i entries h
      exact ⟨fun _ => ⟨entries, h⟩, fun _ => ⟨_, find_addAssoc_self⟩⟩
    · exact Iff.rfl
  · rw [HasArray, find_within_of_ne heq, HasArray]

/-! Leaving names out. -/

theorem find_without {names : List String} (hname : name ∉ names) :
    (table.without names).find (.name name) = table.find (.name name) := by
  induction table with
  | nil => rfl
  | cons entry table ih =>
      obtain ⟨key, old⟩ := entry
      cases hin : key.isIn names with
      | true =>
          have hne : key ≠ .name name := by
            rintro rfl
            simp [Key.isIn, hname] at hin
          rw [without, List.filter_cons_of_neg (by simp [hin]), find,
            if_neg hne]
          exact ih
      | false =>
          rw [without, List.filter_cons_of_pos (by simp [hin]), find, find]
          exact congrArg (fun found => if key = .name name then some old
            else found) ih

theorem without_addAssoc (names : List String) :
    (table.addAssoc name value).without names =
      if name ∈ names then table.without names
      else (table.without names).addAssoc name value := by
  unfold addAssoc
  induction table with
  | nil => by_cases hname : name ∈ names <;>
      simp [update, without, Key.isIn, hname]
  | cons entry table ih =>
      obtain ⟨key, old⟩ := entry
      by_cases heq : key = .name name
      · subst heq
        by_cases hname : name ∈ names <;>
          simp [update, without, Key.isIn, hname]
      · have hupdate : update (.name name) value ((key, old) :: table) =
            (key, old) :: update (.name name) value table := by
          rw [update, if_neg heq]
        rw [hupdate]
        cases hin : key.isIn names with
        | true =>
            rw [without, without, List.filter_cons_of_neg (by simp [hin]),
              List.filter_cons_of_neg (by simp [hin])]
            exact ih
        | false =>
            rw [without, without, List.filter_cons_of_pos (by simp [hin]),
              List.filter_cons_of_pos (by simp [hin]), ← without, ih]
            split
            · rfl
            · rw [update, if_neg heq]
              rfl

theorem without_within {names : List String} (hname : name ∉ names)
    (change : HashTable → HashTable) :
    (table.within name change).without names =
      (table.without names).within name change := by
  unfold within
  rw [find_without hname]
  split
  · rw [without_addAssoc, if_neg hname]
  · rfl

/-! Merging. -/

theorem values_mergeRecursive {dest src : HashTable}
    (h : ∀ entry ∈ src, ∃ number, entry.1 = .index number) :
    (dest.mergeRecursive src).values = dest.values ++ src.values := by
  induction src generalizing dest with
  | nil => simp [mergeRecursive, values]
  | cons entry src ih =>
      rw [List.forall_mem_cons] at h
      obtain ⟨⟨number, hkey⟩, hsrc⟩ := h
      obtain ⟨key, value⟩ := entry
      obtain rfl : key = .index number := hkey
      rw [mergeRecursive, ih hsrc, mergeEntry, values_push, List.append_assoc]
      rfl

end HashTable

end Molten.Php
