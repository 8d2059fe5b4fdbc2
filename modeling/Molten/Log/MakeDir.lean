import Molten.Control.Interleaving
import Molten.Control.Machine
import Molten.Data.DirTree

namespace Molten.Log.MakeDir

open Molten.Control Molten.Data Molten.Text

/-! The directory of the log, made by one process, and by many at once that
each ask for a name before they make it. -/

def pathMax : Nat := 4096

/-- The argument of `mo_mkdir_recursive`: `tmp` has room for it, for a slash
and for the NUL. -/
structure Dir where
  path : Path
  ne : path ≠ []
  short : path.length + 2 ≤ pathMax

namespace Dir

/-- What is in `tmp` when the loop begins. -/
def tmp (dir : Dir) : Path :=
  if dir.path.getLast? ≠ some '/' then dir.path ++ ['/'] else dir.path

theorem length_tmp_lt (dir : Dir) : dir.tmp.length < pathMax := by
  have hshort := dir.short
  rw [tmp]
  split
  · rw [List.length_append, List.length_singleton]
    omega
  · omega

end Dir

/-- What the loop reads as a path, each time that it has put a NUL over a slash
behind `before`. -/
def cuts : Path → Path → List Path
  | _, [] => []
  | before, c :: rest =>
      if c = '/' then before :: cuts (before ++ [c]) rest
      else cuts (before ++ [c]) rest

/-- The loop begins behind the first character. -/
def Dir.cuts (dir : Dir) : List Path :=
  MakeDir.cuts (dir.tmp.take 1) (dir.tmp.drop 1)

example : Dir.cuts ⟨"//a/b".toList, by decide, by decide⟩ =
    ["/".toList, "//a".toList, "//a/b".toList] := by decide

/-- `access(path, ..) == 0`, where no permission is missing. -/
def access (t : DirTree) (path : Path) : Bool := (t.find path).isSome

def makeCuts (t : DirTree) : List Path → Int × DirTree
  | [] => (0, t)
  | tmp :: later =>
      if access t tmp then makeCuts t later
      else
        match t.mkdir tmp with
        | some t => makeCuts t later
        | none => (-1, t)

def moMkdirRecursive (dir : Dir) (t : DirTree) : Int × DirTree :=
  if access t dir.path then (0, t) else makeCuts t dir.cuts

/-- A process in `mo_mkdir_recursive`, before its next system call or behind
the last. -/
inductive Worker
  | enter
  | test (tmp : Path) (later : List Path)
  | make (tmp : Path) (later : List Path)
  | done (result : Int)
  deriving DecidableEq

namespace Worker

def loop : List Path → Worker
  | [] => .done 0
  | tmp :: later => .test tmp later

/-- One system call, and what follows it up to the next. -/
def advance (dir : Dir) (t : DirTree) : Worker → DirTree × Worker
  | .enter => (t, if access t dir.path then .done 0 else loop dir.cuts)
  | .test tmp later => (t, if access t tmp then loop later else .make tmp later)
  | .make tmp later =>
      match t.mkdir tmp with
      | some t => (t, loop later)
      -- `EEXIST` is a failure like any other
      | none => (t, .done (-1))
  | .done result => (t, .done result)

/-- What is left to do, done without others. -/
def finish (dir : Dir) (t : DirTree) : Worker → Int × DirTree
  | .enter => moMkdirRecursive dir t
  | .test tmp later => makeCuts t (tmp :: later)
  | .make tmp later =>
      match t.mkdir tmp with
      | some t => makeCuts t later
      | none => (-1, t)
  | .done result => (result, t)

/-- How many system calls are left at most. -/
def left (dir : Dir) : Worker → Nat
  | .enter => 1 + 2 * dir.cuts.length
  | .test _ later => 2 + 2 * later.length
  | .make _ later => 1 + 2 * later.length
  | .done _ => 0

end Worker

abbrev Workers (ι : Type*) := Pool ι DirTree Worker

section Workers

variable {ι : Type*} [DecidableEq ι]

def Workers.begin (t : DirTree) : Workers ι := ⟨t, fun _ => .enter⟩

/-- The next system call is that of worker `i`. -/
def Workers.next (dir : Dir) (pool : Workers ι) (i : ι) : Workers ι :=
  pool.moved i (Worker.advance dir pool.shared (pool.procs i)).1
    (Worker.advance dir pool.shared (pool.procs i)).2

/-- A prefix of the path that ends before a slash, or the path. -/
def Dir.IsStage (dir : Dir) (path : Path) : Prop :=
  path ≠ [] ∧ (path ++ ['/'] <+: dir.path ∨ path = dir.path)

/-- What is new in `t'` are the last names of stages, and the `.` and `..` of
new directories. -/
def Dir.MadeStages (dir : Dir) (t t' : DirTree) : Prop :=
  ∀ d name node, t'.entry d name = some node →
    t.entry d name = some node ∨
      (t.size ≤ d ∧ (name = Path.dot ∨ name = Path.dotDot)) ∨
      ∃ path, dir.IsStage path ∧ t'.EndsAt path d name

/-- Every call that has returned has returned 0, with the directory there, and
no other path has been created. -/
structure Workers.Fine (dir : Dir) (t : DirTree) (pool : Workers ι) :
    Prop where
  returns : ∀ i result, pool.procs i = .done result → result = 0
  exists_dir : ∀ i result, pool.procs i = .done result →
    ∃ d, pool.shared.find dir.path = some (.dir d)
  kept : DirTree.Extends t pool.shared
  made : dir.MadeStages t pool.shared

/-- A worker that is about to make a directory finds it still missing. -/
def Workers.Undisturbed (pool : Workers ι) (i : ι) : Prop :=
  match pool.procs i with
  | .make tmp _ => pool.shared.find tmp = none
  | _ => True

end Workers

/-! The cuts go through the names one by one. -/

namespace Dir

structure IsCut (dir : Dir) (cut : Path) : Prop where
  ne : cut ≠ []
  slash : cut ++ ['/'] <+: dir.tmp

variable {dir : Dir} {cut : Path}

theorem endsInSlash_tmp (dir : Dir) : dir.tmp.EndsInSlash := by
  rw [tmp]
  split
  · exact Path.endsInSlash_iff.mpr ⟨dir.path, rfl⟩
  · exact not_not.mp ‹_›

theorem components_tmp (dir : Dir) :
    dir.tmp.components = dir.path.components := by
  rw [tmp]
  split
  · exact Path.components_closed dir.path
  · rfl

theorem prefix_tmp (dir : Dir) : dir.path <+: dir.tmp := by
  rw [tmp]
  split
  · exact List.prefix_append _ _
  · exact List.prefix_rfl

theorem IsCut.isStage (h : dir.IsCut cut) : dir.IsStage cut := by
  refine ⟨h.ne, ?_⟩
  have hslash := h.slash
  rw [tmp] at hslash
  split at hslash
  · obtain heq | hbefore := List.prefix_concat_iff.mp hslash
    · exact .inr (List.append_cancel_right heq)
    · exact .inl hbefore
  · exact .inl hslash

theorem IsCut.components (h : dir.IsCut cut) :
    cut.components <+: dir.path.components := by
  obtain ⟨rest, hrest⟩ := h.slash
  rw [← dir.components_tmp, ← hrest, List.append_assoc,
    List.singleton_append, Path.components_slash]
  exact List.prefix_append _ _

theorem IsCut.start (h : dir.IsCut cut) (t : DirTree) :
    t.start cut = t.start dir.path := by
  have hhead : ∀ {path : Path}, path <+: dir.tmp → path ≠ [] →
      path.head? = dir.tmp.head? := by
    rintro path ⟨rest, hrest⟩ hne
    rw [← hrest, List.head?_append_of_ne_nil _ hne]
  have hcut := hhead ((List.prefix_append cut _).trans h.slash) h.ne
  rw [DirTree.start, DirTree.start, hcut, hhead dir.prefix_tmp dir.ne]

/-- What is still to be cut off when `k` names are there: no cut goes more
than one name further, and the last goes to the end. -/
def Climbs (dir : Dir) : Nat → List Path → Prop
  | k, [] => dir.path.components.length ≤ k
  | k, cut :: later =>
      dir.IsCut cut ∧ cut.components.length ≤ k + 1 ∧
        Climbs dir (max k cut.components.length) later

theorem Climbs.mono {k k' : Nat} {later : List Path} (h : dir.Climbs k later)
    (hk : k ≤ k') : dir.Climbs k' later := by
  induction later generalizing k k' with
  | nil => exact Nat.le_trans h hk
  | cons cut later ih =>
      obtain ⟨hcut, hone, hlater⟩ := h
      exact ⟨hcut, by omega, ih hlater (by omega)⟩

/-- `path` ends in a slash or is empty, and `name` goes from there to where the
loop stands. -/
theorem climbs_cuts_from (path name : Path) {rest : Path}
    (hpath : path = [] ∨ path.EndsInSlash) (hname : '/' ∉ name)
    (hne : path ++ name ≠ []) (htmp : path ++ name ++ rest = dir.tmp) :
    dir.Climbs path.components.length (MakeDir.cuts (path ++ name) rest) := by
  induction rest generalizing path name with
  | nil =>
      rw [List.append_nil] at htmp
      have hend : name = [] := by
        by_contra hne
        have hlast := dir.endsInSlash_tmp
        rw [← htmp, Path.EndsInSlash, List.getLast?_append_of_ne_nil _ hne]
          at hlast
        exact hname (List.mem_of_getLast? hlast)
      rw [hend, List.append_nil] at htmp
      change dir.path.components.length ≤ path.components.length
      rw [htmp, dir.components_tmp]
  | cons c rest ih =>
      have hbehind : path ++ name ++ [c] ++ rest = dir.tmp := by
        rw [← htmp, List.append_assoc _ [c]]
        rfl
      by_cases hc : c = '/'
      · subst hc
        -- at most `name` is new in the cut, and the next one starts from it
        have hcut : dir.IsCut (path ++ name) := ⟨hne, rest, hbehind⟩
        have hone : (path ++ name).components.length ≤
            path.components.length + 1 := by
          have hlength := Path.length_components_name_le hname
          rw [Path.components_append hpath, List.length_append]
          omega
        have hlater := ih (path ++ name ++ ['/']) []
          (.inr (Path.endsInSlash_iff.mpr ⟨_, rfl⟩)) List.not_mem_nil
          (by simp) (by rw [List.append_nil, hbehind])
        rw [List.append_nil, Path.components_closed] at hlater
        rw [MakeDir.cuts, if_pos rfl]
        exact ⟨hcut, hone, hlater.mono (Nat.le_max_right _ _)⟩
      · rw [MakeDir.cuts, if_neg hc, List.append_assoc]
        refine ih path (name ++ [c]) hpath ?_ (by simp) ?_
        · simpa [hname] using Ne.symm hc
        · rw [← List.append_assoc path, hbehind]

theorem climbs_cuts (dir : Dir) : dir.Climbs 0 dir.cuts := by
  cases htmp : dir.tmp with
  | nil =>
      have hslash := dir.endsInSlash_tmp
      rw [htmp] at hslash
      cases hslash
  | cons c rest =>
      rw [cuts, htmp]
      by_cases hc : c = '/'
      · subst hc
        exact climbs_cuts_from ['/'] [] (.inr rfl) List.not_mem_nil (by simp) htmp.symm
      · refine climbs_cuts_from [] [c] (.inl rfl) ?_
          (by simp) htmp.symm
        simpa using Ne.symm hc

/-! The directories are at every time those of some number of names. -/

def level (dir : Dir) (t : DirTree) (k : Nat) : DirTree :=
  t.grown (t.start dir.path) dir.path.components k

/-- No component of the path is an existing non-directory, those included that
`..` leads to once the directories before it are there. -/
def Clear (dir : Dir) (t : DirTree) : Prop :=
  t.IsClear (t.start dir.path) dir.path.components

instance (dir : Dir) (t : DirTree) : Decidable (dir.Clear t) :=
  inferInstanceAs (Decidable (t.IsClear _ _))

variable {t : DirTree} {k : Nat} {path : Path} {node : Node}

theorem extends_level (dir : Dir) (t : DirTree) {j k : Nat} (hjk : j ≤ k) :
    DirTree.Extends (dir.level t j) (dir.level t k) :=
  t.extends_grown _ _ hjk

theorem extends_level_zero (dir : Dir) (t : DirTree) (k : Nat) :
    DirTree.Extends t (dir.level t k) :=
  t.extends_grown _ _ (Nat.zero_le k)

theorem start_level (dir : Dir) (t : DirTree) (k : Nat) :
    (dir.level t k).start dir.path = t.start dir.path :=
  (dir.extends_level_zero t k).start dir.path

theorem IsCut.start_level (h : dir.IsCut cut) (t : DirTree) (k : Nat) :
    (dir.level t k).start cut = t.start dir.path :=
  (h.start _).trans (dir.start_level t k)

theorem IsCut.take (h : dir.IsCut cut) :
    cut.components = dir.path.components.take cut.components.length :=
  List.prefix_iff_eq_take.mp h.components

theorem IsCut.length_le (h : dir.IsCut cut) :
    cut.components.length ≤ dir.path.components.length := h.components.length_le

theorem Clear.walk_of_le (h : dir.Clear t) {j k : Nat} (hjk : j ≤ k)
    (hj : j ≤ dir.path.components.length) :
    ∃ d, (dir.level t k).walk (t.start dir.path)
      (dir.path.components.take j) = some (.dir d) :=
  DirTree.IsClear.walk_of_le h (t.start_lt _) hjk hj

theorem Clear.walk_ne_file (h : dir.Clear t) {j k : Nat}
    (hj : j ≤ dir.path.components.length) :
    (dir.level t k).walk (t.start dir.path) (dir.path.components.take j) ≠
      some .file :=
  DirTree.IsClear.walk_ne_file h (t.start_lt _) hj

theorem IsCut.find (h : dir.IsCut cut) (hclear : dir.Clear t) (k : Nat) :
    (dir.level t k).find cut =
      (dir.level t k).walk (t.start dir.path)
        (dir.path.components.take cut.components.length) := by
  have hfile := hclear.walk_ne_file (k := k) h.length_le
  rw [← h.take, ← h.start_level t k] at hfile ⊢
  exact DirTree.find_eq_walk h.ne hfile

theorem find_path (hclear : dir.Clear t) (k : Nat) :
    (dir.level t k).find dir.path =
      (dir.level t k).walk (t.start dir.path) dir.path.components := by
  have hfile := hclear.walk_ne_file (k := k) le_rfl
  rw [List.take_length] at hfile
  rw [← dir.start_level t k] at hfile ⊢
  exact DirTree.find_eq_walk dir.ne hfile

theorem find_path_of_le (hclear : dir.Clear t)
    (hk : dir.path.components.length ≤ k) :
    ∃ d, (dir.level t k).find dir.path = some (.dir d) := by
  rw [find_path hclear, ← List.take_length (l := dir.path.components)]
  exact hclear.walk_of_le hk le_rfl

theorem find_path_of_access (hclear : dir.Clear t)
    (h : access (dir.level t k) dir.path = true) :
    ∃ d, (dir.level t k).find dir.path = some (.dir d) := by
  obtain ⟨node, hnode⟩ := Option.isSome_iff_exists.mp h
  cases node with
  | dir d => exact ⟨d, hnode⟩
  | file =>
      have hfile := hclear.walk_ne_file (k := k) le_rfl
      rw [List.take_length, ← find_path hclear] at hfile
      exact absurd hnode hfile

/-- A cut that is found is one of the names that are there. -/
theorem IsCut.level_of_access (h : dir.IsCut cut) (hclear : dir.Clear t)
    (hk : cut.components.length ≤ k + 1)
    (hfound : access (dir.level t k) cut = true) :
    dir.level t (max k cut.components.length) = dir.level t k := by
  obtain hle | heq := Nat.le_or_eq_of_le_succ hk
  · rw [Nat.max_eq_left hle]
  · obtain ⟨node, hnode⟩ := Option.isSome_iff_exists.mp hfound
    rw [h.find hclear, heq] at hnode
    rw [heq, Nat.max_eq_right (Nat.le_succ k)]
    exact DirTree.ensure_of_walk hnode

/-- A cut that is missing is the next of the names, and can be made. -/
theorem IsCut.level_of_mkdir (h : dir.IsCut cut) (hclear : dir.Clear t)
    (hk : cut.components.length ≤ k + 1)
    (hmissing : (dir.level t k).find cut = none) :
    (dir.level t k).mkdir cut =
      some (dir.level t (max k cut.components.length)) := by
  rw [h.find hclear] at hmissing
  obtain hle | heq := Nat.le_or_eq_of_le_succ hk
  · obtain ⟨d, hd⟩ := hclear.walk_of_le hle h.length_le
    rw [hd] at hmissing
    cases hmissing
  · have hlt : k < dir.path.components.length := by
      have hlength := h.length_le
      omega
    obtain ⟨e, hwalk⟩ := hclear.walk_of_le (le_refl k) hlt.le
    have he := DirTree.walk_lt
      (Nat.lt_of_lt_of_le (t.start_lt _) (dir.extends_level_zero t k).size)
      hwalk
    rw [heq, ← List.take_append_getElem hlt, DirTree.walk_append hwalk,
      DirTree.walk_name] at hmissing
    have hmake := DirTree.makeAt_concat hwalk he hmissing
    have hnext : dir.level t (k + 1) =
        (dir.level t k).ensure (t.start dir.path)
          (dir.path.components.take (k + 1)) := rfl
    rw [heq, Nat.max_eq_right (Nat.le_succ k), hnext,
      ← List.take_append_getElem hlt, DirTree.ensure, hmake,
      Option.getD_some, DirTree.mkdir, h.start_level, h.take, heq,
      ← List.take_append_getElem hlt, hmake]

/-- Where the path does not go up again, only what is there at first counts. -/
theorem clear_iff (hup : Path.dotDot ∉ dir.path.components) :
    dir.Clear t ↔ ∀ k ≤ dir.path.components.length,
      t.walk (t.start dir.path) (dir.path.components.take k) ≠
        some .file := by
  constructor
  · intro hclear k hk hfile
    exact hclear.walk_ne_file (k := 0) hk hfile
  · exact DirTree.isClear_of_walk (t.start_lt dir.path) hup

theorem MadeStages.mkdir {t' t'' : DirTree} (h : dir.MadeStages t t')
    (hkept : DirTree.Extends t t') (hpath : dir.IsStage path)
    (hmade : t'.mkdir path = some t'') : dir.MadeStages t t'' := by
  obtain ⟨e, last, he, hlast, hends, rfl⟩ := DirTree.exists_of_mkdir hmade
  have hext := DirTree.extends_add he hlast
  intro d name node hentry
  obtain hold | ⟨rfl, rfl, -⟩ | ⟨rfl, rfl, -⟩ | ⟨rfl, rfl, -⟩ :=
    DirTree.addEntry_cases hentry
  · obtain hold | hdots | ⟨stage, hstage, hnamed⟩ := h d name node hold
    · exact .inl hold
    · exact .inr (.inl hdots)
    · exact .inr (.inr ⟨stage, hstage, hext.endsAt hnamed⟩)
  · exact .inr (.inr ⟨path, hpath, hext.endsAt hends⟩)
  · exact .inr (.inl ⟨hkept.size, .inl rfl⟩)
  · exact .inr (.inl ⟨hkept.size, .inr rfl⟩)

end Dir

/-! One process alone. -/

variable {dir : Dir} {t : DirTree} {k : Nat}

theorem not_access_iff {path : Path} :
    ¬access t path = true ↔ t.find path = none := by
  rw [access, Option.not_isSome_iff_eq_none]

theorem makeCuts_level (hclear : dir.Clear t) {later : List Path}
    (h : dir.Climbs k later) :
    ∃ k', dir.path.components.length ≤ k' ∧
      makeCuts (dir.level t k) later = (0, dir.level t k') := by
  induction later generalizing k with
  | nil => exact ⟨k, h, rfl⟩
  | cons cut later ih =>
      obtain ⟨hcut, hone, hlater⟩ := h
      obtain ⟨k', hk', hmade⟩ := ih hlater
      refine ⟨k', hk', ?_⟩
      rw [makeCuts]
      split
      · rename_i hfound
        rw [← hmade, hcut.level_of_access hclear hone hfound]
      · rename_i hfound
        rw [hcut.level_of_mkdir hclear hone (not_access_iff.mp hfound)]
        exact hmade

theorem moMkdirRecursive_level (hclear : dir.Clear t) :
    ∃ k, moMkdirRecursive dir t = (0, dir.level t k) ∧
      ∃ d, (dir.level t k).find dir.path = some (.dir d) := by
  rw [moMkdirRecursive]
  split
  · rename_i hfound
    exact ⟨0, rfl, Dir.find_path_of_access hclear hfound⟩
  · obtain ⟨k, hk, hmade⟩ := makeCuts_level hclear dir.climbs_cuts
    exact ⟨k, hmade, Dir.find_path_of_le hclear hk⟩

namespace Worker

variable {w : Worker}

theorem finish_loop (dir : Dir) (t : DirTree) (later : List Path) :
    finish dir t (loop later) = makeCuts t later := by
  cases later with
  | nil => rfl
  | cons tmp later => rfl

theorem left_loop (dir : Dir) (later : List Path) :
    left dir (loop later) = 2 * later.length := by
  cases later with
  | nil => rfl
  | cons tmp later =>
      change 2 + 2 * later.length = 2 * (later.length + 1)
      omega

theorem finish_advance (dir : Dir) (t : DirTree) (w : Worker) :
    finish dir (advance dir t w).1 (advance dir t w).2 = finish dir t w := by
  cases w with
  | enter =>
      rw [advance, finish.eq_1, moMkdirRecursive]
      split
      · rfl
      · exact finish_loop dir t dir.cuts
  | test tmp later =>
      rw [advance, finish.eq_2, makeCuts]
      split
      · exact finish_loop dir t later
      · rfl
  | make tmp later =>
      rw [advance, finish.eq_3]
      cases t.mkdir tmp with
      | none => rfl
      | some t' => exact finish_loop dir t' later
  | done result => rfl

theorem left_advance (dir : Dir) (t : DirTree) (w : Worker) :
    left dir (advance dir t w).2 ≤ left dir w - 1 := by
  cases w with
  | enter =>
      simp only [advance]
      split
      · exact Nat.zero_le _
      · rw [left_loop, left]
        omega
  | test tmp later =>
      simp only [advance]
      split
      · rw [left_loop, left]
        omega
      · rw [left, left]
        omega
  | make tmp later =>
      simp only [advance]
      cases t.mkdir tmp with
      | none => exact Nat.zero_le _
      | some t' =>
          change left dir (loop later) ≤ left dir (.make tmp later) - 1
          rw [left_loop, left]
          omega
  | done result => exact Nat.zero_le _

theorem eq_done_of_left (h : left dir w = 0) : ∃ result, w = .done result := by
  cases w with
  | enter =>
      rw [left] at h
      omega
  | test tmp later =>
      rw [left] at h
      omega
  | make tmp later =>
      rw [left] at h
      omega
  | done result => exact ⟨result, rfl⟩

end Worker

section Workers

variable {ι : Type*} [DecidableEq ι]

theorem exists_done (dir : Dir) (pool : Workers ι) {schedule : List ι} {i : ι}
    (h : Worker.left dir (pool.procs i) ≤ schedule.count i) :
    ∃ result, (pool.plays (Worker.advance dir) schedule).procs i =
      .done result := by
  have hmeasure := Pool.measure_plays (Worker.left_advance dir) pool schedule i
  rw [Nat.sub_eq_zero_of_le h, Nat.le_zero] at hmeasure
  exact Worker.eq_done_of_left hmeasure

/-- A worker without others does what `moMkdirRecursive` says. -/
theorem plays_alone (dir : Dir) (t : DirTree) (i : ι) {count : Nat}
    (hcount : 1 + 2 * dir.cuts.length ≤ count) :
    ∃ result, moMkdirRecursive dir t =
        (result, ((Workers.begin t).plays (Worker.advance dir)
          (List.replicate count i)).shared) ∧
      ((Workers.begin t).plays (Worker.advance dir)
        (List.replicate count i)).procs i = .done result := by
  have hfinish : ∀ (pool : Workers ι) (count : Nat),
      Worker.finish dir
        (pool.plays (Worker.advance dir) (List.replicate count i)).shared
        ((pool.plays (Worker.advance dir) (List.replicate count i)).procs i) =
      Worker.finish dir pool.shared (pool.procs i) := by
    intro pool count
    induction count generalizing pool with
    | zero => rfl
    | succ count ih =>
        refine (ih (pool.moved i _ _)).trans ?_
        rw [Pool.moved_self]
        exact Worker.finish_advance dir pool.shared (pool.procs i)
  have hturns : Worker.left dir ((Workers.begin t).procs i) ≤
      (List.replicate count i).count i := by
    rwa [List.count_replicate_self]
  obtain ⟨result, hdone⟩ := exists_done dir (Workers.begin t) hturns
  refine ⟨result, ?_, hdone⟩
  have hall := hfinish (Workers.begin t) count
  rw [hdone] at hall
  exact hall.symm

end Workers

/-! Many processes. -/

/-- What holds of a worker when `k` of the names are there. -/
def Worker.Safe (dir : Dir) (t : DirTree) (k : Nat) : Worker → Prop
  | .enter => True
  | .test tmp later => dir.Climbs k (tmp :: later)
  | .make tmp later => dir.Climbs k (tmp :: later)
  | .done result =>
      result = 0 ∧ ∃ d, (dir.level t k).find dir.path = some (.dir d)

namespace Worker

variable {w : Worker}

theorem Safe.mono {k' : Nat} (h : w.Safe dir t k) (hk : k ≤ k') :
    w.Safe dir t k' := by
  cases w with
  | enter => trivial
  | test tmp later => exact Dir.Climbs.mono h hk
  | make tmp later => exact Dir.Climbs.mono h hk
  | done result =>
      obtain ⟨hzero, d, hd⟩ := h
      exact ⟨hzero, d, (dir.extends_level t hk).find_dir hd⟩

theorem safe_loop (hclear : dir.Clear t) {later : List Path}
    (h : dir.Climbs k later) : (loop later).Safe dir t k := by
  cases later with
  | nil => exact ⟨rfl, Dir.find_path_of_le hclear h⟩
  | cons tmp later => exact h

/-- A system call makes the next name at most, and makes it only for a cut. -/
theorem Safe.advance (h : w.Safe dir t k) (hclear : dir.Clear t)
    (hmissing : ∀ tmp later, w = .make tmp later →
      (dir.level t k).find tmp = none) :
    ∃ k', k ≤ k' ∧ (w.advance dir (dir.level t k)).1 = dir.level t k' ∧
      (w.advance dir (dir.level t k)).2.Safe dir t k' ∧
      (dir.level t k' = dir.level t k ∨ ∃ path, dir.IsStage path ∧
        (dir.level t k).mkdir path = some (dir.level t k')) := by
  cases w with
  | enter =>
      refine ⟨k, le_rfl, rfl, ?_, .inl rfl⟩
      rw [Worker.advance]
      split
      · exact ⟨rfl, Dir.find_path_of_access hclear ‹_›⟩
      · exact safe_loop hclear (dir.climbs_cuts.mono (Nat.zero_le k))
  | test tmp later =>
      rw [Worker.advance]
      obtain ⟨hcut, hone, hlater⟩ := h
      split
      · have hlevel := hcut.level_of_access hclear hone ‹_›
        exact ⟨_, Nat.le_max_left _ _, hlevel.symm, safe_loop hclear hlater,
          .inl hlevel⟩
      · exact ⟨k, le_rfl, rfl, ⟨hcut, hone, hlater⟩, .inl rfl⟩
  | make tmp later =>
      obtain ⟨hcut, hone, hlater⟩ := h
      have hmade := hcut.level_of_mkdir hclear hone (hmissing tmp later rfl)
      refine ⟨_, Nat.le_max_left _ _, ?_, ?_,
        .inr ⟨tmp, hcut.isStage, hmade⟩⟩
      · rw [Worker.advance, hmade]
      · rw [Worker.advance, hmade]
        exact safe_loop hclear hlater
  | done result => exact ⟨k, le_rfl, rfl, h, .inl rfl⟩

end Worker

section Workers

variable {ι : Type*} [DecidableEq ι] {pool : Workers ι} {i : ι}

/-- The directories are those of the first `k` names, for some `k`, and no
worker is more than one name ahead. -/
structure Workers.Rising (dir : Dir) (t : DirTree) (pool : Workers ι) :
    Prop where
  level : ∃ k, pool.shared = dir.level t k ∧
    ∀ i, (pool.procs i).Safe dir t k
  made : dir.MadeStages t pool.shared

omit [DecidableEq ι] in
theorem rising_begin (dir : Dir) (t : DirTree) :
    (Workers.begin t : Workers ι).Rising dir t :=
  ⟨⟨0, rfl, fun _ => trivial⟩, fun _ _ _ hentry => .inl hentry⟩

omit [DecidableEq ι] in
theorem Workers.Rising.fine (h : pool.Rising dir t) : pool.Fine dir t := by
  obtain ⟨⟨k, hshared, hsafe⟩, hmade⟩ := h
  have hdone : ∀ i result, pool.procs i = .done result →
      result = 0 ∧ ∃ d, pool.shared.find dir.path = some (.dir d) := by
    intro i result hproc
    have hresult := hsafe i
    rwa [hproc, Worker.Safe, ← hshared] at hresult
  refine ⟨fun i result hproc => (hdone i result hproc).1,
    fun i result hproc => (hdone i result hproc).2, ?_, hmade⟩
  rw [hshared]
  exact dir.extends_level_zero t k

theorem Workers.Rising.next (h : pool.Rising dir t) (hclear : dir.Clear t)
    (hundisturbed : pool.Undisturbed i) : (pool.next dir i).Rising dir t := by
  obtain ⟨⟨k, hshared, hsafe⟩, hmade⟩ := h
  have hmissing : ∀ tmp later, pool.procs i = .make tmp later →
      (dir.level t k).find tmp = none := by
    intro tmp later hproc
    rwa [Workers.Undisturbed, hproc, hshared] at hundisturbed
  obtain ⟨k', hk, hlevel, hmover, hstage⟩ :=
    (hsafe i).advance hclear hmissing
  have hnext : (pool.next dir i).shared = dir.level t k' := by
    rw [← hlevel, ← hshared]
    rfl
  refine ⟨⟨k', hnext, fun j => ?_⟩, ?_⟩
  · by_cases hj : j = i
    · subst hj
      rw [Workers.next, Pool.moved_self, hshared]
      exact hmover
    · rw [Workers.next, Pool.moved_other pool hj]
      exact (hsafe j).mono hk
  · rw [hnext]
    rw [hshared] at hmade
    obtain hsame | ⟨path, hpath, hmkdir⟩ := hstage
    · rwa [hsame]
    · exact hmade.mkdir (dir.extends_level_zero t k) hpath hmkdir

/-- A worker that finds a name made which it wants to make returns -1. -/
theorem undisturbed_of_fine (h : (pool.next dir i).Fine dir t) :
    pool.Undisturbed i := by
  rw [Workers.Undisturbed]
  split
  · rename_i tmp later hproc
    cases hfind : pool.shared.find tmp with
    | none => rfl
    | some node =>
        have hdone : (pool.next dir i).procs i = .done (-1) := by
          rw [Workers.next, Pool.moved_self, hproc, Worker.advance,
            DirTree.mkdir_of_find hfind]
        exact absurd (h.returns i (-1) hdone) (by decide)
  · trivial

/-- Every worker returns when it has had enough turns, and all of them return 0
with nothing but the directories of the path made, exactly when none of them
finds a directory made between its `access` and its `mkdir`. -/
theorem moMkdirRecursive_fine_iff (dir : Dir) (t : DirTree)
    (hclear : dir.Clear t) (schedule : List ι) :
    (EveryState (Workers.next dir) (Workers.Fine dir t) (Workers.begin t)
        schedule ↔
      Along (Workers.next dir) Workers.Undisturbed (Workers.begin t)
        schedule) ∧
    ∀ i, 1 + 2 * dir.cuts.length ≤ schedule.count i → ∃ result,
      (schedule.foldl (Workers.next dir) (Workers.begin t)).procs i =
        .done result := by
  refine ⟨?_, fun i hcount => exists_done dir (Workers.begin t) hcount⟩
  rw [everyState_iff, and_iff_right (rising_begin dir t).fine]
  refine along_congr (Workers.Rising dir t) ?_ ?_ (rising_begin dir t) schedule
  · intro pool i hrising
    exact ⟨undisturbed_of_fine,
      fun hundisturbed => (hrising.next hclear hundisturbed).fine⟩
  · intro pool i hrising hfine
    exact hrising.next hclear (undisturbed_of_fine hfine)

end Workers

theorem fine_one_by_one :
    Dir.Clear ⟨"log".toList, by decide, by decide⟩ .root ∧
      EveryState (Workers.next ⟨"log".toList, by decide, by decide⟩)
        (Workers.Fine ⟨"log".toList, by decide, by decide⟩ .root)
        (Workers.begin .root) [true, true, true, false] := by
  have hclear : Dir.Clear ⟨"log".toList, by decide, by decide⟩ .root := by
    decide
  refine ⟨hclear, (moMkdirRecursive_fine_iff _ _ hclear _).1.mpr ?_⟩
  exact ⟨trivial, trivial, rfl, trivial, trivial⟩

/-- Both have asked for the directory before one of them makes it. -/
theorem not_fine_two_workers :
    Dir.Clear ⟨"log".toList, by decide, by decide⟩ .root ∧
      ¬EveryState (Workers.next ⟨"log".toList, by decide, by decide⟩)
        (Workers.Fine ⟨"log".toList, by decide, by decide⟩ .root)
        (Workers.begin .root) [true, false, true, false, true, false] := by
  refine ⟨by decide, fun h => ?_⟩
  have hzero := (h _ List.prefix_rfl).returns false (-1) rfl
  exact absurd hzero (by decide)

end Molten.Log.MakeDir
