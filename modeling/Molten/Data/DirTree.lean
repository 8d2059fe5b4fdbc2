import Mathlib.Data.List.TakeDrop
import Molten.Text.Path

namespace Molten.Data

open Molten.Text

/-! Directories, what the names in them stand for, and the working directory.
Nothing is removed, and nothing is denied.  A link to a directory is one more
entry that leads to it. -/

inductive Node
  | dir (number : Nat)
  | file
  deriving DecidableEq, Repr

/-- The root is 0, and the numbers from `size` on are not in use. -/
structure DirTree where
  size : Nat
  entry : Nat → Path → Option Node
  cwd : Nat
  root_lt : 0 < size
  cwd_lt : cwd < size
  within : ∀ {d name e}, entry d name = some (.dir e) → e < size
  unused : ∀ {d} name, size ≤ d → entry d name = none
  here : ∀ {d}, d < size → entry d Path.dot = some (.dir d)
  up : ∀ {d}, d < size → ∃ e, entry d Path.dotDot = some (.dir e)
  root_up : entry 0 Path.dotDot = some (.dir 0)

/-- The entries of a new directory. -/
def freshEntry (parent number : Nat) (name : Path) : Option Node :=
  if name = Path.dot then some (.dir number)
  else if name = Path.dotDot then some (.dir parent)
  else none

namespace DirTree

def root : DirTree where
  size := 1
  entry d name := if d = 0 then freshEntry 0 0 name else none
  cwd := 0
  root_lt := Nat.one_pos
  cwd_lt := Nat.one_pos
  within := by
    intro d name e h
    simp only [freshEntry] at h
    grind
  unused := fun _ h => if_neg (Nat.ne_of_gt h)
  here := fun h => by
    obtain rfl := Nat.lt_one_iff.mp h
    rfl
  up := fun h => by
    obtain rfl := Nat.lt_one_iff.mp h
    exact ⟨0, rfl⟩
  root_up := rfl

/-- What the names lead to, one behind the other, from a directory. -/
def walk (t : DirTree) : Nat → List Path → Option Node
  | d, [] => some (.dir d)
  | d, name :: names =>
      match t.entry d name with
      | some (.dir e) => t.walk e names
      | some .file => if names = [] then some .file else none
      | none => none

def start (t : DirTree) (path : Path) : Nat :=
  if path.head? = some '/' then 0 else t.cwd

/-- A path that ends in a slash stands for a directory only. -/
def find (t : DirTree) (path : Path) : Option Node :=
  match t.walk (t.start path) path.components with
  | some (.dir d) => if path = [] then none else some (.dir d)
  | some .file => if path.EndsInSlash then none else some .file
  | none => none

def addEntry (t : DirTree) (d : Nat) (name : Path) (d' : Nat) (name' : Path) :
    Option Node :=
  if d' = t.size then freshEntry d t.size name'
  else if d' = d ∧ name' = name then some (.dir t.size)
  else t.entry d' name'

variable {t : DirTree} {d : Nat} {name : Path}

theorem ne_size {d' : Nat} {name' : Path} {node : Node}
    (h : t.entry d' name' = some node) : d' ≠ t.size := by
  rintro rfl
  rw [t.unused name' le_rfl] at h
  cases h

theorem addEntry_of_entry (hname : t.entry d name = none) {d' : Nat}
    {name' : Path} {node : Node} (h : t.entry d' name' = some node) :
    t.addEntry d name d' name' = some node := by
  have hother : ¬(d' = d ∧ name' = name) := by
    rintro ⟨rfl, rfl⟩
    rw [hname] at h
    cases h
  rw [addEntry, if_neg (ne_size h), if_neg hother, h]

theorem addEntry_cases {d' : Nat} {name' : Path} {node : Node}
    (h : t.addEntry d name d' name' = some node) :
    t.entry d' name' = some node ∨
      (d' = d ∧ name' = name ∧ node = .dir t.size) ∨
      (d' = t.size ∧ name' = Path.dot ∧ node = .dir t.size) ∨
      (d' = t.size ∧ name' = Path.dotDot ∧ node = .dir d) := by
  simp only [addEntry, freshEntry] at h
  grind

/-- A new directory behind a name that stands for nothing. -/
def add (t : DirTree) (d : Nat) (name : Path) (hd : d < t.size)
    (hname : t.entry d name = none) : DirTree where
  size := t.size + 1
  entry := t.addEntry d name
  cwd := t.cwd
  root_lt := Nat.succ_pos _
  cwd_lt := Nat.lt_succ_of_lt t.cwd_lt
  within := by
    intro d' name' e h
    obtain h | ⟨-, -, h⟩ | ⟨-, -, h⟩ | ⟨-, -, h⟩ := addEntry_cases h
    · exact Nat.lt_succ_of_lt (t.within h)
    · cases h
      exact Nat.lt_succ_self _
    · cases h
      exact Nat.lt_succ_self _
    · cases h
      exact Nat.lt_succ_of_lt hd
  unused := by
    intro d' name' h
    have hother : ¬(d' = d ∧ name' = name) := by
      rintro ⟨rfl, -⟩
      omega
    rw [addEntry, if_neg (by omega), if_neg hother, t.unused name' (by omega)]
  here := by
    intro d' h
    obtain h | rfl := Nat.lt_succ_iff_lt_or_eq.mp h
    · exact addEntry_of_entry hname (t.here h)
    · rw [addEntry, if_pos rfl]
      rfl
  up := by
    intro d' h
    obtain h | rfl := Nat.lt_succ_iff_lt_or_eq.mp h
    · obtain ⟨e, h⟩ := t.up h
      exact ⟨e, addEntry_of_entry hname h⟩
    · rw [addEntry, if_pos rfl]
      exact ⟨d, rfl⟩
  root_up := addEntry_of_entry hname t.root_up

def makeAt (t : DirTree) : Nat → List Path → Option DirTree
  | _, [] => none
  | d, [name] =>
      if h : d < t.size ∧ t.entry d name = none then
        some (t.add d name h.1 h.2)
      else none
  | d, name :: names =>
      match t.entry d name with
      | some (.dir e) => t.makeAt e names
      | _ => none

/-- `mkdir`: the directory before the last name has to be there, and nothing
behind that name. -/
def mkdir (t : DirTree) (path : Path) : Option DirTree :=
  t.makeAt (t.start path) path.components

/-- What stands for the last name of a path is behind `name` in `d`. -/
def EndsAt (t : DirTree) (path : Path) (d : Nat) (name : Path) : Prop :=
  ∃ before, path.components = before ++ [name] ∧
    t.walk (t.start path) before = some (.dir d)

/-! What the names lead to. -/

variable {t' : DirTree} {names before : List Path} {e : Nat} {node : Node}

@[simp] theorem walk_nil : t.walk d [] = some (.dir d) := rfl

theorem walk_cons (h : t.entry d name = some (.dir e)) (names : List Path) :
    t.walk d (name :: names) = t.walk e names := by
  rw [walk, h]

@[simp] theorem walk_name : t.walk d [name] = t.entry d name := by
  rw [walk]
  cases t.entry d name with
  | none => rfl
  | some node =>
      cases node with
      | dir e => rfl
      | file => rfl

theorem exists_of_walk_cons (h : t.walk d (name :: names) = some (.dir e)) :
    ∃ f, t.entry d name = some (.dir f) ∧
      t.walk f names = some (.dir e) := by
  rw [walk] at h
  split at h
  · exact ⟨_, ‹_›, h⟩
  · split at h <;> cases h
  · cases h

theorem walk_append (h : t.walk d before = some (.dir e))
    (names : List Path) : t.walk d (before ++ names) = t.walk e names := by
  induction before generalizing d with
  | nil =>
      cases h
      rfl
  | cons name before ih =>
      obtain ⟨f, hf, hbefore⟩ := exists_of_walk_cons h
      rw [List.cons_append, walk_cons hf, ih hbefore]

theorem exists_of_walk_concat (h : t.walk d (before ++ [name]) = some node) :
    ∃ e, t.walk d before = some (.dir e) ∧ t.entry e name = some node := by
  induction before generalizing d with
  | nil => exact ⟨d, rfl, by rwa [List.nil_append, walk_name] at h⟩
  | cons first before ih =>
      rw [List.cons_append, walk] at h
      split at h
      · rename_i f hf
        rw [walk_cons hf]
        exact ih h
      · rw [if_neg (by simp)] at h
        cases h
      · cases h

theorem walk_lt (hd : d < t.size) (h : t.walk d names = some (.dir e)) :
    e < t.size := by
  induction names generalizing d with
  | nil =>
      cases h
      exact hd
  | cons name names ih =>
      obtain ⟨f, hf, hnames⟩ := exists_of_walk_cons h
      exact ih (t.within hf) hnames

theorem start_lt (t : DirTree) (path : Path) : t.start path < t.size := by
  rw [start]
  split
  · exact t.root_lt
  · exact t.cwd_lt

theorem find_eq_dir_iff {path : Path} :
    t.find path = some (.dir d) ↔
      path ≠ [] ∧ t.walk (t.start path) path.components = some (.dir d) := by
  rw [find]
  split <;> grind

theorem find_eq_walk {path : Path} (hne : path ≠ [])
    (hfile : t.walk (t.start path) path.components ≠ some .file) :
    t.find path = t.walk (t.start path) path.components := by
  rw [find]
  split
  · rename_i h
    rw [if_neg hne, h]
  · rename_i h
    exact absurd h hfile
  · rename_i h
    exact h.symm

theorem start_slash (t : DirTree) (before name : Path) :
    t.start (before ++ '/' :: name) = t.start (before ++ ['/']) := by
  cases before with
  | nil => rfl
  | cons c before => rfl

/-- The directory part leads to where the last name is looked for. -/
theorem find_directoryPart {path : Path} (hne : path ≠ [])
    (h : ¬path.EndsInSlash) :
    ∃ before name, path.components = before ++ [name] ∧
      ∀ (t : DirTree) (d : Nat), t.find path.directoryPart = some (.dir d) ↔
        t.walk (t.start path) before = some (.dir d) := by
  obtain ⟨name, hname, hslash, rfl | ⟨start, rfl⟩⟩ :=
    Path.exists_last_name hne h
  · refine ⟨[], path, Path.components_name hslash hname, fun t d => ?_⟩
    have hstart : t.start path = t.cwd := by
      refine if_neg fun hhead => ?_
      exact hslash (List.mem_of_head? hhead)
    rw [Path.directoryPart_name hslash, find_eq_dir_iff, hstart, walk_nil]
    change _ ∧ t.walk t.cwd [Path.dot] = some (.dir d) ↔ _
    rw [walk_name, t.here t.cwd_lt]
    exact and_iff_right (by decide)
  · refine ⟨start.components, name, ?_, fun t d => ?_⟩
    · rw [Path.components_slash, Path.components_name hslash hname]
    · rw [Path.directoryPart_slash start hslash, find_eq_dir_iff,
        Path.components_closed, ← t.start_slash start name]
      exact and_iff_right (by simp)

/-! A tree that has become another one. -/

structure Extends (t t' : DirTree) : Prop where
  entry : ∀ {d name node}, t.entry d name = some node →
    t'.entry d name = some node
  size : t.size ≤ t'.size
  cwd : t'.cwd = t.cwd

theorem Extends.refl (t : DirTree) : Extends t t := ⟨id, le_rfl, rfl⟩

theorem Extends.trans {t'' : DirTree} (h : Extends t t')
    (h' : Extends t' t'') : Extends t t'' :=
  ⟨fun hentry => h'.entry (h.entry hentry), h.size.trans h'.size,
    h'.cwd.trans h.cwd⟩

theorem Extends.walk (h : Extends t t') (hwalk : t.walk d names = some node) :
    t'.walk d names = some node := by
  induction names generalizing d with
  | nil => exact hwalk
  | cons name names ih =>
      rw [DirTree.walk] at hwalk
      split at hwalk
      · rename_i e he
        rw [walk_cons (h.entry he)]
        exact ih hwalk
      · rename_i hfile
        rw [DirTree.walk, h.entry hfile]
        exact hwalk
      · cases hwalk

theorem Extends.start (h : Extends t t') (path : Path) :
    t'.start path = t.start path := by
  rw [DirTree.start, DirTree.start, h.cwd]

theorem Extends.find_dir (h : Extends t t') {path : Path}
    (hfind : t.find path = some (.dir d)) : t'.find path = some (.dir d) := by
  rw [find_eq_dir_iff] at hfind ⊢
  rw [h.start]
  exact ⟨hfind.1, h.walk hfind.2⟩

theorem Extends.endsAt (h : Extends t t') {path : Path}
    (hends : t.EndsAt path d name) : t'.EndsAt path d name := by
  obtain ⟨before, hsplit, hwalk⟩ := hends
  refine ⟨before, hsplit, ?_⟩
  rw [h.start]
  exact h.walk hwalk

theorem extends_add (hd : d < t.size) (hname : t.entry d name = none) :
    Extends t (t.add d name hd hname) :=
  ⟨addEntry_of_entry hname, Nat.le_succ _, rfl⟩

theorem entry_add_self (hd : d < t.size) (hname : t.entry d name = none) :
    (t.add d name hd hname).entry d name = some (.dir t.size) := by
  change t.addEntry d name d name = _
  rw [addEntry, if_neg (Nat.ne_of_lt hd), if_pos ⟨rfl, rfl⟩]

/-! What `mkdir` makes. -/

theorem makeAt_cons (h : t.entry d name = some (.dir e)) (hne : names ≠ []) :
    t.makeAt d (name :: names) = t.makeAt e names := by
  cases names with
  | nil => exact absurd rfl hne
  | cons second names => rw [makeAt, h]; exact fun heq => nomatch heq

theorem makeAt_concat (hwalk : t.walk d before = some (.dir e))
    (he : e < t.size) (hname : t.entry e name = none) :
    t.makeAt d (before ++ [name]) = some (t.add e name he hname) := by
  induction before generalizing d with
  | nil =>
      cases hwalk
      exact dif_pos ⟨he, hname⟩
  | cons first before ih =>
      obtain ⟨f, hf, hbefore⟩ := exists_of_walk_cons hwalk
      rw [List.cons_append, makeAt_cons hf (by simp)]
      exact ih hbefore

theorem exists_of_makeAt (h : t.makeAt d names = some t') :
    ∃ before name e, ∃ (he : e < t.size) (hname : t.entry e name = none),
      names = before ++ [name] ∧ t.walk d before = some (.dir e) ∧
        t' = t.add e name he hname := by
  fun_induction makeAt t d names with
  | case1 => cases h
  | case2 d name hfree =>
      cases h
      exact ⟨[], name, d, hfree.1, hfree.2, rfl, rfl, rfl⟩
  | case3 => cases h
  | case4 d name names hne e he ih =>
      obtain ⟨before, last, f, hf, hlast, rfl, hwalk, hmade⟩ := ih h
      exact ⟨name :: before, last, f, hf, hlast, rfl,
        (walk_cons he before).trans hwalk, hmade⟩
  | case5 => cases h

theorem makeAt_of_walk (h : t.walk d names = some node) :
    t.makeAt d names = none := by
  cases hmade : t.makeAt d names with
  | none => rfl
  | some t' =>
      obtain ⟨before, name, e, -, hname, rfl, hwalk, -⟩ :=
        exists_of_makeAt hmade
      rw [walk_append hwalk, walk_name, hname] at h
      cases h

theorem exists_of_mkdir {path : Path} (h : t.mkdir path = some t') :
    ∃ d name, ∃ (hd : d < t.size) (hname : t.entry d name = none),
      t.EndsAt path d name ∧ t' = t.add d name hd hname := by
  obtain ⟨before, name, d, hd, hname, hsplit, hwalk, hmade⟩ :=
    exists_of_makeAt h
  exact ⟨d, name, hd, hname, ⟨before, hsplit, hwalk⟩, hmade⟩

theorem mkdir_of_find {path : Path} (h : t.find path = some node) :
    t.mkdir path = none := by
  rw [find] at h
  split at h
  · exact makeAt_of_walk ‹_›
  · exact makeAt_of_walk ‹_›
  · cases h

/-! The names of a path, made one behind the other where they are missing. -/

def ensure (t : DirTree) (d : Nat) (names : List Path) : DirTree :=
  (t.makeAt d names).getD t

def grown (t : DirTree) (d : Nat) (names : List Path) : Nat → DirTree
  | 0 => t
  | k + 1 => (t.grown d names k).ensure d (names.take (k + 1))

/-- No name stands for a file once those before it are there. -/
def IsClear (t : DirTree) (d : Nat) (names : List Path) : Prop :=
  ∀ k ≤ names.length, (t.grown d names k).walk d (names.take k) ≠ some .file

instance (t : DirTree) (d : Nat) (names : List Path) :
    Decidable (t.IsClear d names) :=
  inferInstanceAs (Decidable (∀ k ≤ names.length, _))

theorem extends_ensure (t : DirTree) (d : Nat) (names : List Path) :
    Extends t (t.ensure d names) := by
  rw [ensure]
  cases hmade : t.makeAt d names with
  | none => exact .refl t
  | some t' =>
      obtain ⟨-, -, -, hd, hname, -, -, rfl⟩ := exists_of_makeAt hmade
      exact extends_add hd hname

theorem extends_grown (t : DirTree) (d : Nat) (names : List Path) {j k : Nat}
    (hjk : j ≤ k) : Extends (t.grown d names j) (t.grown d names k) := by
  induction hjk with
  | refl => exact .refl _
  | step _ ih => exact ih.trans (extends_ensure ..)

theorem ensure_of_walk (h : t.walk d names = some node) :
    t.ensure d names = t := by
  rw [ensure, makeAt_of_walk h, Option.getD_none]

theorem ensure_concat (hwalk : t.walk d before = some (.dir e))
    (he : e < t.size) (hname : t.entry e name = none) :
    t.ensure d (before ++ [name]) = t.add e name he hname := by
  rw [ensure, makeAt_concat hwalk he hname, Option.getD_some]

/-- The next name is made, or it stands for something and nothing is made. -/
theorem grown_succ {k : Nat} (hk : k < names.length) (hd : d < t.size)
    (hwalk : (t.grown d names k).walk d (names.take k) = some (.dir e)) :
    ((t.grown d names k).entry e names[k] = none ∧
      (t.grown d names (k + 1)).walk d (names.take (k + 1)) =
        some (.dir (t.grown d names k).size)) ∨
    ∃ node, (t.grown d names k).entry e names[k] = some node ∧
      t.grown d names (k + 1) = t.grown d names k ∧
      (t.grown d names k).walk d (names.take (k + 1)) = some node := by
  have he : e < (t.grown d names k).size := by
    have hsize := (t.extends_grown d names (Nat.zero_le k)).size
    exact walk_lt (Nat.lt_of_lt_of_le hd hsize) hwalk
  have htake : names.take (k + 1) = names.take k ++ [names[k]] :=
    (List.take_append_getElem hk).symm
  rw [grown, htake]
  cases hname : (t.grown d names k).entry e names[k] with
  | none =>
      left
      rw [ensure_concat hwalk he hname]
      refine ⟨rfl, ?_⟩
      rw [walk_append ((extends_add he hname).walk hwalk), walk_name,
        entry_add_self]
  | some node =>
      right
      have hnode : (t.grown d names k).walk d (names.take k ++ [names[k]]) =
          some node := by
        rw [walk_append hwalk, walk_name, hname]
      exact ⟨node, rfl, ensure_of_walk hnode, hnode⟩

theorem IsClear.exists_dir (h : t.IsClear d names) (hd : d < t.size) {k : Nat}
    (hk : k ≤ names.length) :
    ∃ e, (t.grown d names k).walk d (names.take k) = some (.dir e) := by
  induction k with
  | zero => exact ⟨d, rfl⟩
  | succ k ih =>
      obtain ⟨e, hwalk⟩ := ih (Nat.le_of_succ_le hk)
      obtain ⟨-, hmade⟩ | ⟨node, -, hsame, hnode⟩ := grown_succ hk hd hwalk
      · exact ⟨_, hmade⟩
      · rw [← hsame] at hnode
        cases node with
        | dir f => exact ⟨f, hnode⟩
        | file => exact absurd hnode (h (k + 1) hk)

theorem IsClear.walk_of_le (h : t.IsClear d names) (hd : d < t.size)
    {j k : Nat} (hjk : j ≤ k) (hj : j ≤ names.length) :
    ∃ e, (t.grown d names k).walk d (names.take j) = some (.dir e) := by
  obtain ⟨e, hwalk⟩ := h.exists_dir hd hj
  exact ⟨e, (t.extends_grown d names hjk).walk hwalk⟩

theorem IsClear.walk_ne_file (h : t.IsClear d names) (hd : d < t.size)
    {j k : Nat} (hj : j ≤ names.length) :
    (t.grown d names k).walk d (names.take j) ≠ some .file := by
  intro hfile
  obtain hjk | hkj := Nat.le_total j k
  · obtain ⟨e, hwalk⟩ := h.walk_of_le hd hjk hj
    rw [hwalk] at hfile
    cases hfile
  · exact h j hj ((t.extends_grown d names hkj).walk hfile)

theorem grown_induction {P : DirTree → Prop} (h : P t)
    (hadd : ∀ (s : DirTree) (d : Nat) (name : Path) (hd : d < s.size)
      (hname : s.entry d name = none), P s → P (s.add d name hd hname))
    (d : Nat) (names : List Path) (k : Nat) : P (t.grown d names k) := by
  induction k with
  | zero => exact h
  | succ k ih =>
      rw [grown, ensure]
      cases hmade : (t.grown d names k).makeAt d (names.take (k + 1)) with
      | none => exact ih
      | some t' =>
          obtain ⟨-, name, e, he, hname, -, -, rfl⟩ := exists_of_makeAt hmade
          exact hadd _ e name he hname ih

/-- Only `..` leads out of the directories that were made. -/
theorem entry_grown_of_size_le (t : DirTree) (d : Nat) (names : List Path)
    (k : Nat) (hsize : t.size ≤ e)
    (h : (t.grown d names k).entry e name = some node) :
    name = Path.dotDot ∨ ∃ f, t.size ≤ f ∧ node = .dir f := by
  have hgrown : t.size ≤ (t.grown d names k).size ∧
      ∀ e name node, t.size ≤ e →
        (t.grown d names k).entry e name = some node →
        name = Path.dotDot ∨ ∃ f, t.size ≤ f ∧ node = .dir f := by
    refine grown_induction (P := fun s => t.size ≤ s.size ∧
      ∀ e name node, t.size ≤ e → s.entry e name = some node →
        name = Path.dotDot ∨ ∃ f, t.size ≤ f ∧ node = .dir f) ?_ ?_ d names k
    · refine ⟨le_rfl, fun e name node hsize hentry => ?_⟩
      rw [t.unused name hsize] at hentry
      cases hentry
    · rintro s d last hd hlast ⟨hle, hnew⟩
      refine ⟨Nat.le_succ_of_le hle, fun e name node hsize hentry => ?_⟩
      obtain hold | ⟨-, -, rfl⟩ | ⟨-, -, rfl⟩ | ⟨-, rfl, -⟩ :=
        addEntry_cases hentry
      · exact hnew e name node hsize hold
      · exact .inr ⟨_, hle, rfl⟩
      · exact .inr ⟨_, hle, rfl⟩
      · exact .inl rfl
  exact hgrown.2 e name node hsize h

/-- There are no files, and no name but `.` and `..` leads back. -/
def Plain (t : DirTree) : Prop :=
  ∀ d name node, t.entry d name = some node →
    ∃ e, node = .dir e ∧ (name = Path.dot ∨ name = Path.dotDot ∨ d < e)

theorem plain_root : root.Plain := by
  intro d name node h
  simp only [root, freshEntry] at h
  grind

theorem Plain.grown (h : t.Plain) (d : Nat) (names : List Path) (k : Nat) :
    (t.grown d names k).Plain := by
  refine grown_induction h ?_ d names k
  intro s d last hd hlast hplain d' name node hentry
  obtain hold | ⟨rfl, -, rfl⟩ | ⟨-, rfl, rfl⟩ | ⟨-, rfl, rfl⟩ :=
    addEntry_cases hentry
  · exact hplain d' name node hold
  · exact ⟨_, rfl, .inr (.inr hd)⟩
  · exact ⟨_, rfl, .inl rfl⟩
  · exact ⟨_, rfl, .inr (.inl rfl)⟩

theorem Plain.walk_ne_file (h : t.Plain) : t.walk d names ≠ some .file := by
  induction names generalizing d with
  | nil => exact fun hfile => nomatch hfile
  | cons name names ih =>
      rw [walk]
      cases hentry : t.entry d name with
      | none => exact fun hfile => nomatch hfile
      | some node =>
          obtain ⟨e, rfl, -⟩ := h d name node hentry
          exact ih

theorem Plain.isClear (h : t.Plain) (d : Nat) (names : List Path) :
    t.IsClear d names :=
  fun k _ => (h.grown d names k).walk_ne_file

/-- Without a `..` it is enough to look at the names that are there. -/
theorem isClear_of_walk (hd : d < t.size) (hup : Path.dotDot ∉ names)
    (h : ∀ k ≤ names.length, t.walk d (names.take k) ≠ some .file) :
    t.IsClear d names := by
  have hdir : ∀ k ≤ names.length, ∃ e,
      (t.grown d names k).walk d (names.take k) = some (.dir e) ∧
        (t.grown d names k = t ∨ t.size ≤ e) := by
    intro k hk
    induction k with
    | zero => exact ⟨d, rfl, .inl rfl⟩
    | succ k ih =>
        obtain ⟨e, hwalk, hfresh⟩ := ih (Nat.le_of_succ_le hk)
        obtain ⟨-, hmade⟩ | ⟨node, hentry, hsame, hnode⟩ :=
          grown_succ hk hd hwalk
        · exact ⟨_, hmade,
            .inr (t.extends_grown d names (Nat.zero_le k)).size⟩
        · rw [hsame, hnode]
          obtain hsame | hfresh := hfresh
          · rw [hsame] at hnode ⊢
            cases node with
            | dir f => exact ⟨f, rfl, .inl rfl⟩
            | file => exact absurd hnode (h (k + 1) hk)
          · obtain hdots | ⟨f, hf, rfl⟩ :=
              entry_grown_of_size_le t d names k hfresh hentry
            · exact absurd (hdots ▸ List.getElem_mem hk) hup
            · exact ⟨f, rfl, .inr hf⟩
  intro k hk hfile
  obtain ⟨e, hwalk, -⟩ := hdir k hk
  rw [hwalk] at hfile
  cases hfile

end DirTree

end Molten.Data
