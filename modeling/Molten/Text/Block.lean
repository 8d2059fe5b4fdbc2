import Mathlib.Algebra.Group.Nat.Defs
import Mathlib.Data.List.TakeWhile

namespace Molten.Text

/-! Blocks of bytes, and the C strings in them.  `none` is an access outside of
a block. -/

abbrev Block := List UInt8

namespace Block

def ofString (text : String) : Block :=
  text.toList.map fun c => UInt8.ofNat c.toNat

def cString (block : Block) : Option Block :=
  if 0 ∈ block then some (block.takeWhile (· != 0)) else none

/-- The bytes up to the first NUL, and `count` at most. -/
def readUpTo (source : Block) (count : Nat) : Option Block :=
  if 0 ∈ source.take count ∨ count ≤ source.length then
    some ((source.take count).takeWhile (· != 0))
  else none

def isDigit (byte : UInt8) : Bool := 48 ≤ byte && byte ≤ 57

def store (start : Nat) (bytes block : Block) : Option Block :=
  if start + bytes.length ≤ block.length then
    some (block.take start ++ (bytes ++ block.drop (start + bytes.length)))
  else none

def load (start count : Nat) (block : Block) : Option Block :=
  if start + count ≤ block.length then some ((block.drop start).take count)
  else none

def strncpy (dest source : Block) (count : Nat) : Option Block := do
  let text ← readUpTo source count
  store 0 (text ++ List.replicate (count - text.length) 0) dest

def strncat (dest source : Block) (count : Nat) : Option Block := do
  let text ← cString dest
  let added ← readUpTo source count
  store text.length (added ++ [0]) dest

def strcat (dest source : Block) : Option Block := do
  let text ← cString dest
  let added ← cString source
  store text.length (added ++ [0]) dest

/-- What holds of all entries of a list by computation. -/
theorem forall_of_all {α : Type} {holds : α → Prop} [DecidablePred holds]
    {entries : List α}
    (all : (entries.all fun entry => decide (holds entry)) = true) :
    ∀ entry ∈ entries, holds entry := fun entry member =>
  of_decide_eq_true (List.all_eq_true.mp all entry member)

/-! Texts up to the first of some byte. -/

theorem takeWhile_absent {stop : UInt8} {text : Block} (absent : stop ∉ text) :
    text.takeWhile (· != stop) = text := by
  apply List.takeWhile_eq_self_iff.mpr
  intro byte member
  exact bne_iff_ne.mpr fun same => absent (same ▸ member)

theorem takeWhile_append_stop {stop : UInt8} {text : Block}
    (absent : stop ∉ text) (rest : Block) :
    (text ++ stop :: rest).takeWhile (· != stop) = text := by
  rw [List.takeWhile_append, if_pos (by rw [takeWhile_absent absent])]
  simp

theorem notMem_takeWhile (stop : UInt8) (text : Block) :
    stop ∉ text.takeWhile (· != stop) := by
  intro member
  simpa using List.mem_takeWhile_imp member

theorem takeWhile_cons_ne {stop byte : UInt8} (differs : byte ≠ stop)
    (rest : Block) :
    (byte :: rest).takeWhile (· != stop) =
      byte :: rest.takeWhile (· != stop) :=
  List.takeWhile_cons_of_pos (bne_iff_ne.mpr differs)

theorem eq_takeWhile_append {stop : UInt8} {text : Block}
    (present : stop ∈ text) :
    ∃ rest, text = text.takeWhile (· != stop) ++ stop :: rest := by
  induction text with
  | nil => cases present
  | cons byte text induction =>
      by_cases same : byte = stop
      · exact ⟨text, by simp [same]⟩
      · have behind : stop ∈ text := by simpa [Ne.symm same] using present
        obtain ⟨rest, split⟩ := induction behind
        refine ⟨rest, ?_⟩
        rw [takeWhile_cons_ne same, List.cons_append, ← split]

theorem takeWhile_append_of_mem {stop : UInt8} {text : Block}
    (present : stop ∈ text) (rest : Block) :
    (text ++ rest).takeWhile (· != stop) = text.takeWhile (· != stop) := by
  obtain ⟨behind, split⟩ := eq_takeWhile_append present
  have absent := notMem_takeWhile stop text
  rw [split, List.append_assoc, List.cons_append,
    takeWhile_append_stop absent, takeWhile_append_stop absent]

theorem takeWhile_append_congr {stop : UInt8} (text : Block)
    {rest other : Block}
    (same : rest.takeWhile (· != stop) = other.takeWhile (· != stop)) :
    (text ++ rest).takeWhile (· != stop) =
      (text ++ other).takeWhile (· != stop) := by
  rw [List.takeWhile_append, List.takeWhile_append, same]

/-! Loads. -/

theorem load_behind (before : Block) {bytes : Block} {count : Nat}
    (length : bytes.length = count) (rest : Block) :
    load before.length count (before ++ (bytes ++ rest)) = some bytes := by
  subst length
  have within : before.length + bytes.length ≤
      (before ++ (bytes ++ rest)).length := by
    rw [List.length_append, List.length_append]
    omega
  rw [load, if_pos within, List.drop_left, List.take_left]

theorem load_self {bytes : Block} {count : Nat}
    (length : bytes.length = count) : load 0 count bytes = some bytes := by
  simpa using load_behind [] length []

theorem length_flatten_of_forall {size : Nat} {elements : List Block}
    (lengths : ∀ element ∈ elements, element.length = size) :
    elements.flatten.length = size * elements.length := by
  induction elements with
  | nil => rfl
  | cons element elements induction =>
      rw [List.forall_mem_cons] at lengths
      rw [List.flatten_cons, List.length_append, lengths.1,
        induction lengths.2, List.length_cons, Nat.mul_succ, Nat.add_comm]

/-- An element of an array is found at the multiple of the size. -/
theorem load_element {size : Nat} {elements : List Block} {block : Block}
    (lengths : ∀ element ∈ elements, element.length = size)
    (spelled : elements.flatten <+: block) {i : Nat} {element : Block}
    (found : elements[i]? = some element) :
    load (size * i) size block = some element := by
  obtain ⟨within, rfl⟩ := List.getElem?_eq_some_iff.mp found
  obtain ⟨rest, rfl⟩ := spelled
  have before : (elements.take i).flatten.length = size * i := by
    rw [length_flatten_of_forall fun element member =>
      lengths element (List.mem_of_mem_take member), List.length_take,
      Nat.min_eq_left within.le]
  have split : elements.flatten = (elements.take i).flatten ++
      (elements[i] ++ (elements.drop (i + 1)).flatten) := by
    rw [← List.flatten_cons, List.getElem_cons_drop, ← List.flatten_append,
      List.take_append_drop]
  rw [split, ← before, List.append_assoc, List.append_assoc]
  exact load_behind _ (lengths _ (List.getElem_mem within)) _

/-! C strings. -/

theorem takeWhile_append_zero_prefix {block : Block} (nul : 0 ∈ block) :
    block.takeWhile (· != 0) ++ [0] <+: block := by
  obtain ⟨rest, split⟩ := eq_takeWhile_append nul
  refine ⟨rest, ?_⟩
  rw [List.append_assoc, List.singleton_append, ← split]

theorem cString_eq_some_iff {block text : Block} :
    cString block = some text ↔
      (0 : UInt8) ∉ text ∧ text ++ [0] <+: block := by
  constructor
  · intro read
    rw [cString] at read
    split at read
    · cases read
      exact ⟨notMem_takeWhile 0 block, takeWhile_append_zero_prefix ‹_›⟩
    · cases read
  · intro spelled
    obtain ⟨noNul, rest, rfl⟩ := spelled
    rw [cString, if_pos (by simp), List.append_assoc, List.singleton_append,
      takeWhile_append_stop noNul]

theorem readUpTo_noNul {source : Block} {count : Nat}
    (noNul : (0 : UInt8) ∉ source) (within : count ≤ source.length) :
    readUpTo source count = some (source.take count) := by
  rw [readUpTo, if_pos (Or.inr within), takeWhile_absent]
  exact fun member => noNul (List.mem_of_mem_take member)

/-- A text that goes on behind what is read of it. -/
theorem readUpTo_append {text : Block} (noNul : (0 : UInt8) ∉ text)
    {count : Nat} (within : count ≤ text.length) (rest : Block) :
    readUpTo (text ++ rest) count = some (text.take count) := by
  have absent : (0 : UInt8) ∉ text.take count := fun member =>
    noNul (List.mem_of_mem_take member)
  have bound : count ≤ (text ++ rest).length := by
    rw [List.length_append]
    exact Nat.le_add_right_of_le within
  rw [readUpTo, if_pos (Or.inr bound), List.take_append_of_le_length within,
    takeWhile_absent absent]

theorem readUpTo_nul {text : Block} (noNul : (0 : UInt8) ∉ text) {count : Nat}
    (behind : text.length < count) (rest : Block) :
    readUpTo (text ++ 0 :: rest) count = some text := by
  obtain ⟨more, rfl⟩ := Nat.exists_eq_add_of_lt behind
  have taken : (text ++ 0 :: rest).take (text.length + more + 1) =
      text ++ 0 :: rest.take more := by
    rw [Nat.add_assoc, List.take_length_add_append, List.take_succ_cons]
  rw [readUpTo, taken, if_pos (Or.inl (by simp)), takeWhile_append_stop noNul]

theorem readUpTo_literal {text : Block} (noNul : (0 : UInt8) ∉ text)
    {count : Nat} (behind : text.length ≤ count) :
    readUpTo (text ++ [0]) count = some text := by
  rcases Nat.lt_or_eq_of_le behind with behind | rfl
  · exact readUpTo_nul noNul behind []
  · rw [readUpTo_append noNul le_rfl, List.take_length]

theorem store_eq_some {start : Nat} {bytes block : Block}
    (within : start + bytes.length ≤ block.length) :
    store start bytes block =
      some (block.take start ++ (bytes ++ block.drop (start + bytes.length))) :=
  if_pos within

theorem length_store {start : Nat} {bytes block after : Block}
    (stored : store start bytes block = some after) :
    after.length = block.length := by
  rw [store] at stored
  split at stored
  · cases stored
    simp only [List.length_append, List.length_take, List.length_drop]
    omega
  · cases stored

/-- What is stored over the NUL of a text is appended to it. -/
theorem store_behind {dest text added : Block}
    (read : cString dest = some text) (noNul : (0 : UInt8) ∉ added)
    (within : text.length + added.length < dest.length) :
    ∃ after, store text.length (added ++ [0]) dest = some after ∧
      cString after = some (text ++ added) ∧ after.length = dest.length := by
  obtain ⟨text_noNul, rest, rfl⟩ := cString_eq_some_iff.mp read
  have fits : text.length + (added ++ [0]).length ≤
      (text ++ [0] ++ rest).length := by
    rw [@List.length_append _ added]
    exact within
  refine ⟨_, store_eq_some fits, ?_, length_store (store_eq_some fits)⟩
  refine cString_eq_some_iff.mpr ⟨by simp [text_noNul, noNul], ?_⟩
  rw [List.append_assoc text [0], List.take_left, ← List.append_assoc text,
    ← List.append_assoc text]
  exact List.prefix_append _ _

theorem strncpy_eq_some {dest source text : Block} {count : Nat}
    (taken : readUpTo source count = some text) (noNul : (0 : UInt8) ∉ text)
    (short : text.length < count) (within : count ≤ dest.length) :
    ∃ after, strncpy dest source count = some after ∧
      cString after = some text ∧ after.length = dest.length := by
  have fits : 0 + (text ++ List.replicate (count - text.length) 0).length ≤
      dest.length := by
    rw [List.length_append, List.length_replicate]
    omega
  rw [strncpy, taken]
  refine ⟨_, store_eq_some fits, ?_, length_store (store_eq_some fits)⟩
  apply cString_eq_some_iff.mpr
  refine ⟨noNul, ?_⟩
  rw [List.take_zero, List.nil_append, List.append_assoc,
    List.prefix_append_right_inj, ← Nat.succ_pred_eq_of_pos (Nat.sub_pos_of_lt short),
    List.replicate_succ, List.cons_append]
  exact ⟨_, rfl⟩

theorem strncat_eq_some {dest text source added : Block} {count : Nat}
    (read : cString dest = some text)
    (taken : readUpTo source count = some added)
    (noNul : (0 : UInt8) ∉ added)
    (within : text.length + added.length < dest.length) :
    ∃ after, strncat dest source count = some after ∧
      cString after = some (text ++ added) ∧ after.length = dest.length := by
  rw [strncat, read, taken]
  exact store_behind read noNul within

theorem strcat_eq_some {dest text source added : Block}
    (read : cString dest = some text) (taken : cString source = some added)
    (within : text.length + added.length < dest.length) :
    ∃ after, strcat dest source = some after ∧
      cString after = some (text ++ added) ∧ after.length = dest.length := by
  rw [strcat, read, taken]
  exact store_behind read (cString_eq_some_iff.mp taken).1 within

theorem strcat_eq_none {dest text source added : Block}
    (read : cString dest = some text) (taken : cString source = some added)
    (outside : dest.length ≤ text.length + added.length) :
    strcat dest source = none := by
  rw [strcat, read, taken]
  apply if_neg
  rw [List.length_append, List.length_singleton]
  omega

end Block

end Molten.Text
