import Mathlib.Data.List.Chain
import Molten.Intercept.Services

namespace Molten.Intercept.AddServers

open Molten.Php
open Molten.Span
open Molten.Text

/-! `memcached_add_servers_record`, with the slots that deleted elements leave
in an array of PHP 7. -/

/-- `arData` up to `nNumUsed`, with `none` for a slot that is `IS_UNDEF`. -/
abbrev Slots (α : Type) := List (Option α)

/-- What is passed as a server. -/
inductive Entry
  | array (slots : Slots Zval)
  | other

/-- What is passed as the servers. -/
inductive Servers
  | array (slots : Slots Entry)
  | other

/-- `zend_hash.c` up to PHP 7.2, or since PHP 7.3. -/
inductive Release
  | upTo72
  | since73
  deriving DecidableEq, Repr

def htInvalidIdx : Nat := 2 ^ 32 - 1

section Cursor

variable {α : Type}

def buckets (slots : Slots α) : List (Nat × α) :=
  slots.zipIdx.filterMap fun slot => slot.1.map fun value => (slot.2, value)

/-- The first slot from `start` on that is not `IS_UNDEF`. -/
def firstLive (slots : Slots α) (start : Nat) : Option Nat :=
  ((buckets slots).find? fun bucket => start ≤ bucket.1).map Prod.fst

/-- Where a cursor stands behind the last element. -/
def endPosition (release : Release) (slots : Slots α) : Nat :=
  match release with
  | .upTo72 => htInvalidIdx
  | .since73 => slots.length

/-- `zend_hash_internal_pointer_reset_ex` -/
def internalPointerReset (release : Release) (slots : Slots α) : Nat :=
  (firstLive slots 0).getD (endPosition release slots)

/-- `zend_hash_get_current_data_ex`: the slot, or `none` for `NULL`.  Up to
PHP 7.2 the position is taken as it is, be it of another array. -/
def getCurrentData (release : Release) (slots : Slots α) (pos : Nat) :
    Option Nat :=
  match release with
  | .upTo72 => if pos = htInvalidIdx then none else some pos
  | .since73 => firstLive slots pos

/-- `zend_hash_move_forward_ex`: the new position, or `none` for `FAILURE`. -/
def moveForward (release : Release) (slots : Slots α) (pos : Nat) :
    Option Nat :=
  (getCurrentData release slots pos).map fun idx =>
    (firstLive slots (idx + 1)).getD (endPosition release slots)

end Cursor

variable (release : Release) (memcached : Memcached)

/-- `zval_get_string` and `zval_get_long` of what stands in two slots, where
`IS_UNDEF` converts as `NULL` does.  `none` is a slot outside of the array. -/
def slotsSa (slots : Slots Zval) (host port : Nat) : Option Ba := do
  let host ← slots[host]?
  let port ← slots[port]?
  return memcachedSa (memcached.getString (host.getD .null))
    (memcached.getLong (port.getD .null))

/-- The body of the loop for an array, with the position it leaves. -/
def entrySa (pos : Nat) (slots : Slots Zval) : Option (List Ba × Nat) :=
  let entrySize := (buckets slots).length
  let pos := if 1 < entrySize then internalPointerReset release slots else pos
  match getCurrentData release slots pos with
  | none => some ([], pos)
  | some host =>
      match moveForward release slots pos with
      | none => some ([], pos)
      | some pos =>
          match getCurrentData release slots pos with
          | none => some ([], pos)
          | some port =>
              (slotsSa memcached slots host port).map fun sa => ([sa], pos)

def entriesSa : Nat → List Entry → Option (List Ba)
  | _, [] => some []
  | pos, .other :: entries => entriesSa pos entries
  | pos, .array slots :: entries => do
      let (sa, pos) ← entrySa release memcached pos slots
      let rest ← entriesSa pos entries
      return sa ++ rest

/-- The annotations of the branch for PHP 7, from what `pos` holds first. -/
def addServersSa (pos : Nat) : Servers → Option (List Ba)
  | .array slots => entriesSa release memcached pos (slots.filterMap id)
  | .other => some []

def memcachedAddServersRecord7 (pos : Nat) (servers : Servers)
    (pit : Interceptor) (frame : Frame) : Option HashTable := do
  let sa ← addServersSa release memcached pos servers
  memcachedRecord (fun _ => sa) pit memcached frame

/-! The branch for PHP 5, where an array is a linked list and the cursor stands
on what is left of it. -/

def getCurrentData5 {α : Type} (cursor : List α) : Option α := cursor.head?

def moveForward5 {α : Type} (cursor : List α) : Option (List α) :=
  match cursor with
  | [] => none
  | _ :: rest => some rest

def entrySa5 (elements : List Zval) : List Ba :=
  if 1 < elements.length then
    match getCurrentData5 elements with
    | none => []
    | some host =>
        match moveForward5 elements with
        | none => []
        | some cursor =>
            match getCurrentData5 cursor with
            | none => []
            | some port =>
                [memcachedSa (memcached.getString host)
                  (memcached.getLong port)]
  else []

def entriesSa5 : List Entry → List Ba
  | [] => []
  | .other :: entries => entriesSa5 entries
  | .array slots :: entries =>
      entrySa5 memcached (slots.filterMap id) ++ entriesSa5 entries

def addServersSa5 : Servers → List Ba
  | .array slots => entriesSa5 memcached (slots.filterMap id)
  | .other => []

/-! What the annotations are to be. -/

/-- One for an array of at least two elements. -/
def Entry.sa : Entry → List Ba
  | .array slots =>
      match slots.filterMap id with
      | host :: port :: _ =>
          [memcachedSa (memcached.getString host) (memcached.getLong port)]
      | _ => []
  | .other => []

def Servers.entries : Servers → List Entry
  | .array slots => slots.filterMap id
  | .other => []

def Servers.sa (servers : Servers) : List Ba :=
  servers.entries.flatMap fun entry => entry.sa memcached

def Entry.slots? : Entry → Option (Slots Zval)
  | .array slots => some slots
  | .other => none

def lives (slots : Slots Zval) : List Nat := (buckets slots).map Prod.fst

/-- When the array has only one element, it is not behind the position. -/
def Reaches (pos : Nat) (slots : Slots Zval) : Prop :=
  ∀ only, lives slots = [only] → only ≤ pos

/-- Where an array leaves the cursor on its second element, the next one is not
read from there. -/
def Follows (before after : Slots Zval) : Prop :=
  ∀ first second rest, lives before = first :: second :: rest →
    Reaches second after

/-- No array is read from where the cursor is left by the one before, or from
what it holds first. -/
def Straight (pos : Nat) (arrays : List (Slots Zval)) : Prop :=
  (∀ slots ∈ arrays.head?, Reaches pos slots) ∧ arrays.IsChain Follows

/-! The elements of an array with their slots. -/

section Buckets

variable {α : Type} {slots : Slots α} {i j : Nat} {value next : α}
  {rest : List (Nat × α)}

theorem mem_buckets :
    (i, value) ∈ buckets slots ↔ slots[i]? = some (some value) := by
  rw [buckets, List.mem_filterMap]
  constructor
  · intro found
    obtain ⟨⟨slot, number⟩, member, kept⟩ := found
    obtain ⟨other, rfl, same⟩ := Option.map_eq_some_iff.mp kept
    cases same
    exact List.mem_zipIdx_iff_getElem?.mp member
  · intro stands
    exact ⟨(some value, i), List.mem_zipIdx_iff_getElem?.mpr stands, rfl⟩

theorem pairwise_buckets (slots : Slots α) :
    (buckets slots).Pairwise fun bucket later => bucket.1 < later.1 := by
  have numbers : slots.zipIdx.Pairwise fun slot later => slot.2 < later.2 := by
    apply List.Pairwise.of_map Prod.snd (fun _ _ lt => lt)
    rw [List.zipIdx_map_snd]
    exact List.pairwise_lt_range'
  apply numbers.filterMap
  intro slot later lt bucket kept next kept'
  obtain ⟨_, _, rfl⟩ := Option.map_eq_some_iff.mp kept
  obtain ⟨_, _, rfl⟩ := Option.map_eq_some_iff.mp kept'
  exact lt

theorem values_buckets (slots : Slots α) :
    (buckets slots).map Prod.snd = slots.filterMap id := by
  nth_rewrite 2 [← List.zipIdx_map_fst 0 slots]
  rw [buckets, List.map_filterMap, List.filterMap_map]
  congr 1
  funext slot
  rw [Option.map_map]
  exact Option.map_id' ..

theorem lt_length_of_mem (member : (i, value) ∈ buckets slots) :
    i < slots.length :=
  (List.getElem?_eq_some_iff.mp (mem_buckets.mp member)).1

theorem firstLive_of_le (spelled : buckets slots = (i, value) :: rest)
    {start : Nat} (le : start ≤ i) : firstLive slots start = some i := by
  rw [firstLive, spelled, List.find?_cons, decide_eq_true le]
  rfl

theorem firstLive_behind
    (spelled : buckets slots = (i, value) :: (j, next) :: rest) :
    firstLive slots (i + 1) = some j := by
  have sorted := pairwise_buckets slots
  rw [spelled, List.pairwise_cons] at sorted
  have later : i + 1 ≤ j := sorted.1 (j, next) (.head _)
  rw [firstLive, spelled, List.find?_cons,
    decide_eq_false (Nat.not_succ_le_self i), List.find?_cons,
    decide_eq_true later]
  rfl

theorem firstLive_of_mem (member : (i, value) ∈ buckets slots) :
    firstLive slots i = some i := by
  have sorted := pairwise_buckets slots
  rw [firstLive]
  generalize buckets slots = found at member sorted
  induction found with
  | nil => cases member
  | cons bucket found induction =>
      rw [List.pairwise_cons] at sorted
      rw [List.find?_cons]
      rcases List.mem_cons.mp member with rfl | behind
      · rw [decide_eq_true (Nat.le_refl i)]
        rfl
      · rw [decide_eq_false (Nat.not_le_of_lt (sorted.1 _ behind))]
        exact induction behind sorted.2

theorem getCurrentData_of_mem (release : Release)
    (member : (i, value) ∈ buckets slots)
    (bound : slots.length ≤ htInvalidIdx) :
    getCurrentData release slots i = some i := by
  cases release with
  | upTo72 =>
      have valid := (lt_length_of_mem member).trans_le bound
      exact if_neg valid.ne
  | since73 => exact firstLive_of_mem member

theorem getCurrentData_end (slots : Slots α) :
    getCurrentData .upTo72 slots htInvalidIdx = none := by
  rw [getCurrentData, if_pos rfl]

theorem firstLive_eq_none {start : Nat}
    (before : ∀ bucket ∈ buckets slots, bucket.1 < start) :
    firstLive slots start = none := by
  rw [firstLive, Option.map_eq_none_iff, List.find?_eq_none]
  intro bucket member le
  exact Nat.not_lt_of_le (of_decide_eq_true le) (before bucket member)

end Buckets

/-! The entries of each shape. -/

section Entries

variable {release : Release} (memcached : Memcached) {slots : Slots Zval}
  {pos : Nat}

theorem entrySa_long {i j : Nat} {host port : Zval} {rest : List (Nat × Zval)}
    (spelled : buckets slots = (i, host) :: (j, port) :: rest)
    (bound : slots.length ≤ htInvalidIdx) :
    entrySa release memcached pos slots =
      some ((Entry.array slots).sa memcached, j) := by
  have hostStands : (i, host) ∈ buckets slots := by simp [spelled]
  have portStands : (j, port) ∈ buckets slots := by simp [spelled]
  have start : internalPointerReset release slots = i := by
    rw [internalPointerReset, firstLive_of_le spelled (Nat.zero_le i)]
    rfl
  have first := getCurrentData_of_mem release hostStands bound
  have forward : moveForward release slots i = some j := by
    rw [moveForward, first, Option.map_some, firstLive_behind spelled]
    rfl
  have second := getCurrentData_of_mem release portStands bound
  have values := values_buckets slots
  rw [spelled] at values
  have long : 1 < (buckets slots).length := by
    rw [spelled]
    exact Nat.succ_lt_succ (Nat.succ_pos _)
  rw [entrySa]
  simp only [if_pos long, start, first, forward, second]
  rw [slotsSa, mem_buckets.mp hostStands, mem_buckets.mp portStands,
    Entry.sa, ← values]
  rfl

theorem sa_short (short : (buckets slots).length ≤ 1) :
    (Entry.array slots).sa memcached = [] := by
  have values := congrArg List.length (values_buckets slots)
  rw [List.length_map] at values
  rw [Entry.sa]
  split
  · rename_i found
    rw [found, List.length_cons, List.length_cons] at values
    omega
  · rfl

theorem firstLive_behind_only {i : Nat} {value : Zval}
    (spelled : buckets slots = [(i, value)]) {start : Nat} (lt : i < start) :
    firstLive slots start = none := by
  apply firstLive_eq_none
  rw [spelled]
  intro bucket member
  rw [List.mem_singleton.mp member]
  exact lt

/-- Since PHP 7.3 a cursor that finds an element finds none behind it. -/
theorem entrySa_short_since73 (short : (buckets slots).length ≤ 1) :
    ∃ left, entrySa .since73 memcached pos slots = some ([], left) := by
  rw [entrySa]
  simp only [if_neg (Nat.not_lt_of_le short)]
  cases found : getCurrentData .since73 slots pos with
  | none => exact ⟨pos, rfl⟩
  | some host =>
      have nothing : firstLive slots slots.length = none := by
        apply firstLive_eq_none
        intro bucket member
        exact lt_length_of_mem member
      have behind : firstLive slots (host + 1) = none := by
        obtain ⟨bucket, stands, rfl⟩ := Option.map_eq_some_iff.mp found
        have member := List.mem_of_find?_eq_some stands
        have only : buckets slots = [bucket] := by
          match spelled : buckets slots with
          | [] => rw [spelled] at member; cases member
          | [other] =>
              rw [spelled] at member
              rw [List.mem_singleton.mp member]
          | _ :: _ :: _ =>
              rw [spelled, List.length_cons, List.length_cons] at short
              omega
        exact firstLive_behind_only only (Nat.lt_succ_self _)
      have forward : moveForward .since73 slots pos = some slots.length := by
        rw [moveForward, found, Option.map_some, behind]
        rfl
      have second : getCurrentData .since73 slots slots.length = none :=
        nothing
      simp only [forward, second]
      exact ⟨_, rfl⟩

/-- Up to PHP 7.2 the cursor is at the end behind a short array, as long as it
does not stand before its only element. -/
theorem entrySa_short_upTo72 (short : (buckets slots).length ≤ 1)
    (reaches : Reaches pos slots) :
    entrySa .upTo72 memcached pos slots = some ([], htInvalidIdx) := by
  have behind : firstLive slots (pos + 1) = none := by
    match spelled : buckets slots with
    | [] =>
        apply firstLive_eq_none
        rw [spelled]
        nofun
    | [(only, value)] =>
        have single : lives slots = [only] := congrArg (List.map _) spelled
        exact firstLive_behind_only spelled
          (Nat.lt_succ_of_le (reaches only single))
    | _ :: _ :: _ =>
        rw [spelled, List.length_cons, List.length_cons] at short
        omega
  rw [entrySa]
  simp only [if_neg (Nat.not_lt_of_le short)]
  by_cases ended : pos = htInvalidIdx
  · subst ended
    simp only [getCurrentData_end]
  · have first : getCurrentData .upTo72 slots pos = some pos := if_neg ended
    have forward : moveForward .upTo72 slots pos = some htInvalidIdx := by
      rw [moveForward, first, Option.map_some, behind]
      rfl
    simp only [first, forward, getCurrentData_end]

/-- From before the only element, the slot there is taken for the host. -/
theorem entrySa_overrun {only : Nat} {value : Zval}
    (spelled : buckets slots = [(only, value)]) (before : pos < only)
    (bound : slots.length ≤ htInvalidIdx) :
    ∃ sa, entrySa .upTo72 memcached pos slots = some ([sa], only) := by
  have stands : (only, value) ∈ buckets slots := by simp [spelled]
  have inside := lt_length_of_mem stands
  have valid : pos ≠ htInvalidIdx := by omega
  have first : getCurrentData .upTo72 slots pos = some pos := if_neg valid
  have forward : moveForward .upTo72 slots pos = some only := by
    rw [moveForward, first, Option.map_some, firstLive_of_le spelled before]
    rfl
  have second := getCurrentData_of_mem .upTo72 stands bound
  have short : ¬ 1 < (buckets slots).length := by
    rw [spelled]
    exact Nat.lt_irrefl 1
  rw [entrySa]
  simp only [if_neg short, first, forward, second]
  rw [slotsSa, List.getElem?_eq_getElem (before.trans inside),
    List.getElem?_eq_getElem inside]
  exact ⟨_, rfl⟩

theorem entries_shape (slots : Slots Zval) :
    (buckets slots).length ≤ 1 ∨
      ∃ i host j port rest, buckets slots = (i, host) :: (j, port) :: rest := by
  match buckets slots with
  | [] => exact .inl (Nat.zero_le 1)
  | [_] => exact .inl le_rfl
  | (i, host) :: (j, port) :: rest => exact .inr ⟨i, host, j, port, rest, rfl⟩

theorem reaches_or_before (short : (buckets slots).length ≤ 1) (pos : Nat) :
    Reaches pos slots ∨
      ∃ only value, buckets slots = [(only, value)] ∧ pos < only := by
  match spelled : buckets slots with
  | [] =>
      left
      intro only single
      rw [lives, spelled] at single
      cases single
  | [(only, value)] =>
      rcases Nat.lt_or_ge pos only with before | reached
      · exact .inr ⟨only, value, rfl, before⟩
      · left
        intro other single
        rw [lives, spelled] at single
        cases single
        exact reached
  | _ :: _ :: _ =>
      rw [spelled, List.length_cons, List.length_cons] at short
      omega

theorem entrySa_length_le (release : Release) (pos : Nat)
    (bound : slots.length ≤ htInvalidIdx) :
    ∃ sa left, entrySa release memcached pos slots = some (sa, left) ∧
      ((Entry.array slots).sa memcached).length ≤ sa.length := by
  rcases entries_shape slots with short | ⟨i, host, j, port, rest, spelled⟩
  · rw [sa_short memcached short]
    cases release with
    | upTo72 =>
        rcases reaches_or_before short pos with
          reaches | ⟨only, value, spelled, before⟩
        · exact ⟨_, _, entrySa_short_upTo72 memcached short reaches, le_rfl⟩
        · obtain ⟨sa, overrun⟩ := entrySa_overrun memcached spelled before bound
          exact ⟨_, _, overrun, Nat.zero_le _⟩
    | since73 =>
        obtain ⟨left, passed⟩ := entrySa_short_since73 memcached short
        exact ⟨_, _, passed, le_rfl⟩
  · exact ⟨_, _, entrySa_long memcached spelled bound, le_rfl⟩

end Entries

/-! All the entries. -/

/-- The arrays have as many slots as `zend_hash.c` allows, or fewer. -/
def Bounded (entries : List Entry) : Prop :=
  ∀ slots ∈ entries.filterMap Entry.slots?, slots.length ≤ htInvalidIdx

section Loop

variable (memcached : Memcached) {entries : List Entry}

theorem bounded_cons {slots : Slots Zval} :
    Bounded (.array slots :: entries) ↔
      slots.length ≤ htInvalidIdx ∧ Bounded entries :=
  List.forall_mem_cons

theorem entriesSa_cons {release : Release} {pos left : Nat}
    {slots : Slots Zval} {sa : List Ba}
    (passed : entrySa release memcached pos slots = some (sa, left)) :
    entriesSa release memcached pos (.array slots :: entries) =
      (entriesSa release memcached left entries).map (sa ++ ·) := by
  rw [entriesSa, passed, Option.map_eq_bind]
  rfl

/-- There are never fewer annotations than there are to be. -/
theorem entriesSa_length_le (release : Release) (bounded : Bounded entries)
    (pos : Nat) :
    ∃ sa, entriesSa release memcached pos entries = some sa ∧
      (entries.flatMap fun entry => entry.sa memcached).length ≤ sa.length := by
  induction entries generalizing pos with
  | nil => exact ⟨[], rfl, le_rfl⟩
  | cons entry entries induction =>
      cases entry with
      | other => exact induction bounded pos
      | array slots =>
          obtain ⟨bound, bounded⟩ := bounded_cons.mp bounded
          obtain ⟨sa, left, passed, length⟩ :=
            entrySa_length_le memcached release pos bound
          obtain ⟨behind, rest, more⟩ := induction bounded left
          refine ⟨sa ++ behind, ?_, ?_⟩
          · rw [entriesSa_cons memcached passed, rest]
            rfl
          · rw [List.flatMap_cons, List.length_append, List.length_append]
            exact Nat.add_le_add length more

theorem entriesSa_since73 (bounded : Bounded entries) (pos : Nat) :
    entriesSa .since73 memcached pos entries =
      some (entries.flatMap fun entry => entry.sa memcached) := by
  induction entries generalizing pos with
  | nil => rfl
  | cons entry entries induction =>
      cases entry with
      | other => exact induction bounded pos
      | array slots =>
          obtain ⟨bound, bounded⟩ := bounded_cons.mp bounded
          have passed : ∃ left, entrySa .since73 memcached pos slots =
              some ((Entry.array slots).sa memcached, left) := by
            rcases entries_shape slots with
              short | ⟨i, host, j, port, rest, spelled⟩
            · rw [sa_short memcached short]
              exact entrySa_short_since73 memcached short
            · exact ⟨j, entrySa_long memcached spelled bound⟩
          obtain ⟨left, passed⟩ := passed
          rw [entriesSa_cons memcached passed, induction bounded]
          rfl

/-- Behind a short array every other one is reached, and behind a long one those
that its second element is not before. -/
theorem straight_short {slots : Slots Zval} {arrays : List (Slots Zval)}
    (short : (buckets slots).length ≤ 1)
    (bounded : ∀ slots ∈ arrays, slots.length ≤ htInvalidIdx) :
    Straight htInvalidIdx arrays ↔ (slots :: arrays).IsChain Follows := by
  have follows : ∀ next, Follows slots next := by
    intro next first second rest long
    have length := congrArg List.length long
    rw [lives, List.length_map, List.length_cons, List.length_cons] at length
    omega
  have reaches : ∀ next ∈ arrays.head?, Reaches htInvalidIdx next := by
    intro next head only single
    have member : only ∈ lives next := single ▸ List.mem_singleton_self only
    obtain ⟨bucket, stands, rfl⟩ := List.mem_map.mp member
    exact (lt_length_of_mem stands).le.trans
      (bounded next (List.mem_of_mem_head? head))
  rw [Straight, List.isChain_cons]
  exact and_congr_left fun _ =>
    iff_of_true reaches fun next _ => follows next

theorem straight_long {slots : Slots Zval} {arrays : List (Slots Zval)}
    {i j : Nat} {host port : Zval} {rest : List (Nat × Zval)}
    (spelled : buckets slots = (i, host) :: (j, port) :: rest) :
    Straight j arrays ↔ (slots :: arrays).IsChain Follows := by
  have follows : ∀ next, Follows slots next ↔ Reaches j next := by
    intro next
    rw [Follows, lives, spelled]
    constructor
    · intro every
      exact every i j (rest.map Prod.fst) rfl
    · intro reaches first second rest same
      cases same
      exact reaches
  rw [Straight, List.isChain_cons]
  simp only [follows]

/-- An entry whose own annotations are exact leaves the others to the rest. -/
theorem entriesSa_cons_exact_iff {release : Release} {pos left : Nat}
    {slots : Slots Zval}
    (passed : entrySa release memcached pos slots =
      some ((Entry.array slots).sa memcached, left)) :
    entriesSa release memcached pos (.array slots :: entries) =
        some ((Entry.array slots :: entries).flatMap
          fun entry => entry.sa memcached) ↔
      entriesSa release memcached left entries =
        some (entries.flatMap fun entry => entry.sa memcached) := by
  rw [entriesSa_cons memcached passed, List.flatMap_cons,
    Option.map_eq_some_iff]
  simp

/-- An annotation too many at one entry is not made up for by the others. -/
theorem entriesSa_overrun_ne (bounded : Bounded entries) {pos only : Nat}
    {slots : Slots Zval} {value : Zval}
    (spelled : buckets slots = [(only, value)]) (before : pos < only)
    (bound : slots.length ≤ htInvalidIdx) :
    entriesSa .upTo72 memcached pos (.array slots :: entries) ≠
      some ((Entry.array slots :: entries).flatMap
        fun entry => entry.sa memcached) := by
  have short : (buckets slots).length ≤ 1 := by
    rw [spelled]
    exact le_rfl
  obtain ⟨sa, overrun⟩ := entrySa_overrun memcached spelled before bound
  obtain ⟨behind, rest, more⟩ :=
    entriesSa_length_le memcached .upTo72 bounded only
  intro equal
  rw [entriesSa_cons memcached overrun, rest, Option.map_some,
    List.flatMap_cons, sa_short memcached short] at equal
  have length := congrArg List.length (Option.some.inj equal)
  rw [List.nil_append, List.length_append, List.length_singleton] at length
  omega

theorem entriesSa_upTo72 (bounded : Bounded entries) (pos : Nat) :
    entriesSa .upTo72 memcached pos entries =
        some (entries.flatMap fun entry => entry.sa memcached) ↔
      Straight pos (entries.filterMap Entry.slots?) := by
  induction entries generalizing pos with
  | nil => exact iff_of_true rfl ⟨nofun, .nil⟩
  | cons entry entries induction =>
      cases entry with
      | other => exact induction bounded pos
      | array slots =>
          obtain ⟨bound, bounded⟩ := bounded_cons.mp bounded
          have head : Straight pos (slots :: entries.filterMap Entry.slots?) ↔
              Reaches pos slots ∧
                (slots :: entries.filterMap Entry.slots?).IsChain Follows := by
            simp [Straight]
          show _ ↔ Straight pos (slots :: entries.filterMap Entry.slots?)
          rw [head]
          rcases entries_shape slots with
            short | ⟨i, host, j, port, rest, spelled⟩
          · rcases reaches_or_before short pos with
              reaches | ⟨only, value, spelled, before⟩
            · have passed := entrySa_short_upTo72 memcached short reaches
              rw [← sa_short memcached short] at passed
              rw [entriesSa_cons_exact_iff memcached passed,
                induction bounded, straight_short short bounded]
              exact (and_iff_right reaches).symm
            · refine iff_of_false
                (entriesSa_overrun_ne memcached bounded spelled before bound) ?_
              intro straight
              have single : lives slots = [only] :=
                congrArg (List.map _) spelled
              exact Nat.not_lt_of_le (straight.1 only single) before
          · rw [entriesSa_cons_exact_iff memcached
                (entrySa_long memcached spelled bound),
              induction bounded, straight_long spelled]
            refine (and_iff_right ?_).symm
            intro only single
            rw [lives, spelled] at single
            cases single

end Loop

/-! The branch for PHP 5. -/

theorem entrySa5_eq (memcached : Memcached) (slots : Slots Zval) :
    entrySa5 memcached (slots.filterMap id) =
      (Entry.array slots).sa memcached := by
  rw [Entry.sa]
  match slots.filterMap id with
  | [] => rfl
  | [_] => rfl
  | host :: port :: rest =>
      apply if_pos
      exact Nat.succ_lt_succ (Nat.succ_pos _)

theorem addServersSa5_eq (memcached : Memcached) (servers : Servers) :
    addServersSa5 memcached servers = servers.sa memcached := by
  have entries : ∀ entries, entriesSa5 memcached entries =
      entries.flatMap fun entry => entry.sa memcached := by
    intro entries
    induction entries with
    | nil => rfl
    | cons entry entries induction =>
        cases entry with
        | other => exact induction
        | array slots =>
            rw [entriesSa5, entrySa5_eq, induction, List.flatMap_cons]
  cases servers with
  | other => rfl
  | array slots => exact entries _

/-! A call of `Memcached::addServers`. -/

/-- What is passed is no reference, and neither are the servers in it. -/
structure AddServersCall where
  release : Release
  memcached : Memcached
  pos : Nat
  servers : Servers
  pos_le : pos ≤ htInvalidIdx
  bounded : Bounded servers.entries

namespace AddServersCall

def sa (call : AddServersCall) : Option (List Ba) :=
  addServersSa call.release call.memcached call.pos call.servers

/-- There is one annotation for each array of two elements or more, in order,
as in the branch for PHP 5. -/
structure Exact (call : AddServersCall) : Prop where
  each : call.sa = some (call.servers.sa call.memcached)
  php5 : call.sa = some (addServersSa5 call.memcached call.servers)

end AddServersCall

/-- The annotations are exact since PHP 7.3, and before just when no array is
read from where the cursor happens to be. -/
theorem addServers_exact_iff (call : AddServersCall) :
    call.Exact ↔ call.release = .since73 ∨
      Straight call.pos (call.servers.entries.filterMap Entry.slots?) := by
  have exact_iff : call.Exact ↔
      call.sa = some (call.servers.sa call.memcached) := by
    constructor
    · intro exact_
      exact exact_.each
    · intro each
      exact ⟨each, by rw [each, addServersSa5_eq]⟩
  have entries : call.sa = entriesSa call.release call.memcached call.pos
      call.servers.entries := by
    rw [AddServersCall.sa]
    cases call.servers with
    | other => rfl
    | array slots => rfl
  rw [exact_iff, entries, Servers.sa]
  cases release : call.release with
  | since73 =>
      exact iff_of_true (entriesSa_since73 _ call.bounded call.pos) (.inl rfl)
  | upTo72 =>
      rw [entriesSa_upTo72 _ call.bounded]
      simp

/-- `zval_get_string`, but for floats that are no integers, and objects. -/
def zvalGetString : Zval → String
  | .bool true => "1"
  | .long value => toString value
  | .double value => toString value
  | .string text => text
  | .array _ => "Array"
  | .resource handle => "Resource id #" ++ toString handle
  | _ => ""

/-- `zval_get_long`, as far as the number is in its range. -/
def zvalGetLong : Zval → Int
  | .bool true => 1
  | .long value => value
  | .double value => value
  | .string text => atoi text
  | .array entries => if entries.isEmpty then 0 else 1
  | .object _ => 1
  | .resource handle => handle
  | _ => 0

/-- `[['a', 11211], $server]`, where the first element of `$server` was
unset and so was the second, and the third one is left. -/
def unsetServer : AddServersCall where
  release := .upTo72
  memcached := ⟨none, zvalGetString, zvalGetLong⟩
  pos := 0
  servers := .array [some (.array [some (.string "a"), some (.long 11211)]),
    some (.array [none, none, some (.long 11212)])]
  pos_le := Nat.zero_le _
  bounded := by
    intro slots member
    rcases List.mem_cons.mp member with rfl | member
    · decide
    · rw [List.mem_singleton.mp member]
      decide

theorem not_exact_unsetServer : ¬ unsetServer.Exact := by
  intro exact_
  have length := congrArg (Option.map List.length) exact_.each
  exact absurd length (by decide)

/-! Arrays in which nothing was deleted. -/

def Entry.ofZval : Zval → Entry
  | .array entries => .array (entries.map fun entry => some entry.2)
  | _ => .other

def Servers.ofZval : Zval → Servers
  | .array entries =>
      .array (entries.map fun entry => some (Entry.ofZval entry.2))
  | _ => .other

theorem straight_of_forall {arrays : List (Slots Zval)}
    (reached : ∀ slots ∈ arrays, ∀ pos, Reaches pos slots) (pos : Nat) :
    Straight pos arrays := by
  refine ⟨fun slots head => reached slots (List.mem_of_mem_head? head) pos, ?_⟩
  induction arrays with
  | nil => exact .nil
  | cons slots arrays induction =>
      rw [List.forall_mem_cons] at reached
      refine List.isChain_cons.mpr ⟨?_, induction reached.2⟩
      intro next head first second rest long
      exact reached.2 next (List.mem_of_mem_head? head) second

theorem reaches_map_some (elements : List Zval) (pos : Nat) :
    Reaches pos (elements.map some) := by
  intro only single
  cases elements with
  | nil => cases single
  | cons element elements =>
      have stands : (0, element) ∈ buckets ((element :: elements).map some) :=
        mem_buckets.mpr rfl
      have member : 0 ∈ lives ((element :: elements).map some) :=
        List.mem_map_of_mem stands
      rw [single, List.mem_singleton] at member
      rw [← member]
      exact Nat.zero_le pos

theorem sa_ofZval (memcached : Memcached) (value : Zval) :
    (Entry.ofZval value).sa memcached = memcached.serverSa value := by
  cases value with
  | array entries =>
      match entries with
      | [] => rfl
      | [_] => rfl
      | (_, host) :: (_, port) :: rest => rfl
  | _ => rfl

theorem entries_ofZval (entries : HashTable) :
    (Servers.ofZval (.array entries)).entries =
      entries.map fun entry => Entry.ofZval entry.2 := by
  rw [Servers.ofZval, Servers.entries, List.filterMap_map]
  show entries.filterMap (some ∘ fun entry => Entry.ofZval entry.2) = _
  rw [List.filterMap_eq_map]

theorem straight_ofZval (entries : HashTable) (pos : Nat) :
    Straight pos ((entries.map fun entry => Entry.ofZval entry.2).filterMap
      Entry.slots?) := by
  apply straight_of_forall
  intro slots member
  obtain ⟨_, within, found⟩ := List.mem_filterMap.mp member
  obtain ⟨⟨key, value⟩, -, rfl⟩ := List.mem_map.mp within
  cases value with
  | array elements =>
      cases found
      have full := reaches_map_some (elements.map Prod.snd)
      rw [List.map_map] at full
      exact full
  | _ => cases found

/-- Without deleted elements the annotations are those of `memcachedAddServers`,
whatever the position holds. -/
theorem memcachedAddServersRecord7_ofZval {value : Zval} {frame : Frame}
    (first : frame.args.head? = some value)
    (bounded : Bounded (Servers.ofZval value).entries) (release : Release)
    (memcached : Memcached) (pos : Nat) (pit : Interceptor) :
    memcachedAddServersRecord7 release memcached pos (Servers.ofZval value) pit
        frame =
      memcachedAddServersRecord pit memcached frame := by
  have sa : addServersSa release memcached pos (Servers.ofZval value) =
      some (memcachedAddServers memcached frame) := by
    rw [memcachedAddServers, first]
    cases value with
    | array entries =>
        rw [entries_ofZval] at bounded
        have loop : addServersSa release memcached pos
            (Servers.ofZval (.array entries)) =
            entriesSa release memcached pos
              (entries.map fun entry => Entry.ofZval entry.2) := by
          rw [← entries_ofZval]
          rfl
        have spelled : (entries.map fun entry =>
            Entry.ofZval entry.2).flatMap (fun entry => entry.sa memcached) =
            entries.flatMap fun entry => memcached.serverSa entry.2 := by
          rw [List.flatMap_map]
          simp only [sa_ofZval]
        rw [loop]
        dsimp only
        rw [← spelled]
        cases release with
        | upTo72 =>
            exact (entriesSa_upTo72 memcached bounded pos).mpr
              (straight_ofZval entries pos)
        | since73 => exact entriesSa_since73 memcached bounded pos
    | _ => rfl
  rw [memcachedAddServersRecord7, sa]
  rfl

end Molten.Intercept.AddServers
