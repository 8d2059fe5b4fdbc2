import Mathlib.Data.List.Nodup

namespace Molten.Data

/-! Names of files, the inode numbers they stand for, and the contents behind
these.  A number is used again once no name and no descriptor has it. -/

structure FileSystem (Name : Type*) where
  files : List (Name × Nat)
  contents : Nat → List UInt8
  nodup_names : (files.map Prod.fst).Nodup
  nodup_inodes : (files.map Prod.snd).Nodup

/-- How the system picks the number of a new file. -/
structure Allocator where
  pick : List Nat → Nat
  pick_notMem : ∀ used, pick used ∉ used

def nextNumber : List Nat → Nat
  | [] => 0
  | number :: used => number + 1 + nextNumber used

theorem lt_nextNumber {used : List Nat} {number : Nat} (h : number ∈ used) :
    number < nextNumber used := by
  induction h with
  | head used => exact Nat.lt_add_right _ (Nat.lt_succ_self number)
  | tail _ _ ih => exact Nat.lt_add_left _ ih

def Allocator.next : Allocator where
  pick := nextNumber
  pick_notMem _ h := Nat.lt_irrefl _ (lt_nextNumber h)

namespace FileSystem

variable {Name : Type*} [DecidableEq Name]

def empty : FileSystem Name where
  files := []
  contents := fun _ => []
  nodup_names := List.nodup_nil
  nodup_inodes := List.nodup_nil

def inodes (fs : FileSystem Name) : List Nat := fs.files.map Prod.snd

def inode (fs : FileSystem Name) (name : Name) : Option Nat :=
  (fs.files.find? fun file => file.1 = name).map Prod.snd

def unlink (name : Name) (fs : FileSystem Name) : FileSystem Name where
  files := fs.files.filter fun file => file.1 ≠ name
  contents := fs.contents
  nodup_names := fs.nodup_names.sublist (List.filter_sublist.map _)
  nodup_inodes := fs.nodup_inodes.sublist (List.filter_sublist.map _)

theorem inodes_unlink_subset (name : Name) (fs : FileSystem Name) :
    (fs.unlink name).inodes ⊆ fs.inodes :=
  (List.filter_sublist.map Prod.snd).subset

def link (name : Name) (inode : Nat) (fs : FileSystem Name)
    (h : inode ∉ fs.inodes) : FileSystem Name where
  files := (name, inode) :: (fs.unlink name).files
  contents := fs.contents
  nodup_names := by
    refine List.nodup_cons.mpr ⟨?_, (fs.unlink name).nodup_names⟩
    simp [unlink]
  nodup_inodes := List.nodup_cons.mpr
    ⟨fun hmem => h (inodes_unlink_subset name fs hmem),
      (fs.unlink name).nodup_inodes⟩

def setContents (inode : Nat) (bytes : List UInt8) (fs : FileSystem Name) :
    FileSystem Name :=
  { fs with
    contents := fun i => if i = inode then bytes else fs.contents i }

def append (inode : Nat) (bytes : List UInt8) (fs : FileSystem Name) :
    FileSystem Name :=
  fs.setContents inode (fs.contents inode ++ bytes)

omit [DecidableEq Name] in
theorem pick_notMem_inodes (allocator : Allocator)
    (held : List Nat) (fs : FileSystem Name) :
    allocator.pick (fs.inodes ++ held) ∉ fs.inodes := fun h =>
  allocator.pick_notMem _ (List.mem_append_left held h)

/-- A new file in the place of what the name stood for.  The numbers of `held`
are those of open descriptors. -/
def create (allocator : Allocator) (held : List Nat) (name : Name)
    (bytes : List UInt8) (fs : FileSystem Name) : FileSystem Name :=
  let inode := allocator.pick (fs.inodes ++ held)
  (fs.link name inode
    (pick_notMem_inodes allocator held fs)).setContents inode bytes

theorem mem_files_of_inode {fs : FileSystem Name} {name : Name} {inode : Nat}
    (h : fs.inode name = some inode) : (name, inode) ∈ fs.files := by
  obtain ⟨file, hfile, rfl⟩ := Option.map_eq_some_iff.mp h
  have hname : file.1 = name := by simpa using List.find?_some hfile
  obtain rfl := hname
  exact List.mem_of_find?_eq_some hfile

theorem inode_unique {fs : FileSystem Name} {first second : Name} {inode : Nat}
    (hfirst : fs.inode first = some inode)
    (hsecond : fs.inode second = some inode) : first = second := by
  have hfiles := List.inj_on_of_nodup_map fs.nodup_inodes
    (mem_files_of_inode hfirst) (mem_files_of_inode hsecond) rfl
  exact congrArg Prod.fst hfiles

theorem inode_link (name : Name) (inode : Nat) (fs : FileSystem Name)
    (h : inode ∉ fs.inodes) : (fs.link name inode h).inode name = some inode := by
  simp [FileSystem.inode, link]

theorem inode_create (allocator : Allocator) (held : List Nat) (name : Name)
    (bytes : List UInt8) (fs : FileSystem Name) :
    (fs.create allocator held name bytes).inode name =
      some (allocator.pick (fs.inodes ++ held)) :=
  inode_link name _ fs (pick_notMem_inodes allocator held fs)

theorem mem_inodes_of_inode {fs : FileSystem Name} {name : Name} {inode : Nat}
    (h : fs.inode name = some inode) : inode ∈ fs.inodes :=
  List.mem_map_of_mem (mem_files_of_inode h)

theorem inode_link_of_ne {name other : Name} (differs : other ≠ name)
    (inode : Nat) (fs : FileSystem Name) (h : inode ∉ fs.inodes) :
    (fs.link name inode h).inode other = fs.inode other := by
  simp only [FileSystem.inode, link, unlink, List.find?_cons, differs.symm,
    decide_false, List.find?_filter]
  congr 2
  funext file
  by_cases same : file.1 = other
  · simp [same, differs]
  · simp [same]

/-! What is read under a name. -/

def read (fs : FileSystem Name) (name : Name) : Option (List UInt8) :=
  (fs.inode name).map fs.contents

theorem read_create (allocator : Allocator) (held : List Nat) (name : Name)
    (bytes : List UInt8) (fs : FileSystem Name) :
    (fs.create allocator held name bytes).read name = some bytes := by
  rw [read, inode_create, Option.map_some]
  simp [create, setContents]

theorem read_create_of_ne (allocator : Allocator) (held : List Nat)
    {name other : Name} (differs : other ≠ name) (bytes : List UInt8)
    (fs : FileSystem Name) :
    (fs.create allocator held name bytes).read other = fs.read other := by
  have same : (fs.create allocator held name bytes).inode other =
      fs.inode other :=
    inode_link_of_ne differs _ fs (pick_notMem_inodes allocator held fs)
  rw [read, read, same]
  refine Option.map_congr fun inode known => ?_
  have older : inode ≠ allocator.pick (fs.inodes ++ held) := fun picked =>
    pick_notMem_inodes allocator held fs
      (picked ▸ mem_inodes_of_inode known)
  exact if_neg older

theorem read_append {fs : FileSystem Name} {name : Name} {inode : Nat}
    (known : fs.inode name = some inode) (bytes : List UInt8) :
    (fs.append inode bytes).read name =
      some ((fs.read name).getD [] ++ bytes) := by
  have same : (fs.append inode bytes).inode name = some inode := known
  rw [read, read, same, known, Option.map_some, Option.map_some,
    Option.getD_some]
  exact congrArg some (if_pos rfl)

theorem read_append_of_ne {fs : FileSystem Name} {name other : Name}
    {inode : Nat} (known : fs.inode name = some inode)
    (differs : other ≠ name) (bytes : List UInt8) :
    (fs.append inode bytes).read other = fs.read other := by
  have same : (fs.append inode bytes).inode other = fs.inode other := rfl
  rw [read, read, same]
  refine Option.map_congr fun found present => if_neg ?_
  rintro rfl
  exact differs (inode_unique present known)

theorem notMem_inodes_unlink {fs : FileSystem Name} {name : Name} {inode : Nat}
    (h : fs.inode name = some inode) : inode ∉ (fs.unlink name).inodes := by
  intro hmem
  obtain ⟨file, hfile, rfl⟩ := List.mem_map.mp hmem
  obtain ⟨hold, hne⟩ := List.mem_filter.mp hfile
  have hsame := List.inj_on_of_nodup_map fs.nodup_inodes hold
    (mem_files_of_inode h) rfl
  exact of_decide_eq_true hne (congrArg Prod.fst hsame)

def rename (source target : Name) (fs : FileSystem Name) : FileSystem Name :=
  match h : fs.inode source with
  | none => fs
  | some inode => (fs.unlink source).link target inode (notMem_inodes_unlink h)

/-! What names that are free let happen. -/

theorem notMem_names {fs : FileSystem Name} {name : Name}
    (free : fs.inode name = none) : ∀ file ∈ fs.files, file.1 ≠ name := by
  intro file member
  have absent := Option.map_eq_none_iff.mp free
  simpa using List.find?_eq_none.mp absent file member

theorem files_unlink_of_free {fs : FileSystem Name} {name : Name}
    (free : fs.inode name = none) : (fs.unlink name).files = fs.files := by
  refine List.filter_eq_self.mpr fun file member => ?_
  exact decide_eq_true (notMem_names free file member)

theorem inodes_link_of_free {fs : FileSystem Name} {name : Name} {inode : Nat}
    (free : fs.inode name = none) (new : inode ∉ fs.inodes) :
    (fs.link name inode new).inodes = inode :: fs.inodes := by
  change inode :: (fs.unlink name).files.map Prod.snd = _
  rw [files_unlink_of_free free]
  rfl

theorem inodes_create_of_free {fs : FileSystem Name} {name : Name}
    (free : fs.inode name = none) (allocator : Allocator) (held : List Nat)
    (bytes : List UInt8) :
    (fs.create allocator held name bytes).inodes =
      allocator.pick (fs.inodes ++ held) :: fs.inodes :=
  inodes_link_of_free free (pick_notMem_inodes allocator held fs)

theorem perm_unlink {fs : FileSystem Name} {name : Name} {inode : Nat}
    (known : fs.inode name = some inode) :
    fs.inodes.Perm (inode :: (fs.unlink name).inodes) := by
  have split := List.filter_append_perm (fun file => decide (file.1 = name))
    fs.files
  have single : fs.files.filter (fun file => decide (file.1 = name)) =
      [(name, inode)] := by
    have member := mem_files_of_inode known
    have nodup := (List.Nodup.of_map _ fs.nodup_names).filter
      fun file => decide (file.1 = name)
    refine List.perm_singleton.mp ((List.perm_ext_iff_of_nodup nodup
      (List.nodup_singleton _)).mpr fun file => ?_)
    rw [List.mem_filter, List.mem_singleton, decide_eq_true_eq]
    constructor
    · rintro ⟨within, rfl⟩
      exact List.inj_on_of_nodup_map fs.nodup_names within member rfl
    · rintro rfl
      exact ⟨member, rfl⟩
  rw [single] at split
  have others : (fs.files.filter fun file => !decide (file.1 = name)) =
      (fs.unlink name).files := by
    simp [unlink]
  rw [others] at split
  exact (split.map Prod.snd).symm

theorem inode_unlink_of_free {fs : FileSystem Name} {name : Name}
    (free : fs.inode name = none) (other : Name) :
    (fs.unlink other).inode name = none := by
  refine Option.map_eq_none_iff.mpr (List.find?_eq_none.mpr ?_)
  intro file member
  simpa using notMem_names free file (List.mem_filter.mp member).1

theorem contents_rename (source target : Name) (fs : FileSystem Name) :
    (fs.rename source target).contents = fs.contents := by
  unfold rename
  split <;> rfl

/-- A file that gets a free name keeps its number, as all others do. -/
theorem perm_rename {fs : FileSystem Name} {target : Name}
    (free : fs.inode target = none) (source : Name) :
    (fs.rename source target).inodes.Perm fs.inodes := by
  unfold rename
  split
  · exact List.Perm.refl _
  · rename_i inode known
    rw [inodes_link_of_free (inode_unlink_of_free free source)]
    exact (perm_unlink known).symm

end FileSystem

end Molten.Data
