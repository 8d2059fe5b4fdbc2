import Molten.Log.FileSink
import Molten.Log.MakeDir

namespace Molten.Log.SinkPath

open Molten.Control Molten.Data Molten.Text Molten.Log.MakeDir

/-! The directory in which the log is opened, against the one that is made
for it. -/

def realPathSize : Nat := 128

/-- `molten.sink_log_path`: `real_path` has room for it, for the name of a file
of 20 bytes and for the NUL. -/
structure ConfiguredPath where
  text : String
  ne : text.toList ≠ []
  short : text.toList.length + 21 ≤ realPathSize

def ConfiguredPath.dir (path : ConfiguredPath) : Dir where
  path := path.text.toList
  ne := path.ne
  short := by
    have hshort := path.short
    rw [realPathSize] at hshort
    rw [pathMax]
    omega

/-- The sink, with its path as the argument of `mo_mkdir_recursive`. -/
structure Sink where
  file : FileSink
  dir : Dir
  same : file.log.path.toList = dir.path

/-- An event, with the directories as it finds them. -/
structure Turn where
  tree : DirTree
  event : FileEvent

/-- The directory in which `open` looks for the last name of a path. -/
def openDirectory (t : DirTree) (path : Path) : Option Nat :=
  match t.find path.directoryPart with
  | some (.dir d) => some d
  | _ => none

namespace Sink

variable (allocator : Allocator)

/-- `mo_log_write`, where `open` fails only for want of the directory. -/
def write (t : DirTree) (date : LocalDate) (bytes : Bytes) (s : Sink) :
    FileSink :=
  let made := moMkdirRecursive s.dir t
  if made.1 = -1 then s.file
  else
    let file := s.file.generateLogPath date
    match file.log.fd, openDirectory made.2 file.log.realPath.toList with
    | none, none => file
    | _, _ => s.file.next allocator (.write date bytes)

def nextFile (s : Sink) (turn : Turn) : FileSink :=
  match turn.event with
  | .write date bytes => s.write allocator turn.tree date bytes
  | event => s.file.next allocator event

theorem nextFile_cases (s : Sink) (turn : Turn) :
    s.nextFile allocator turn = s.file ∨
      (∃ date, s.nextFile allocator turn = s.file.generateLogPath date) ∨
      ∃ event, s.nextFile allocator turn = s.file.next allocator event := by
  rw [nextFile]
  split
  · rename_i date bytes _
    rw [write]
    dsimp only
    split
    · exact .inl rfl
    · split
      · exact .inr (.inl ⟨date, rfl⟩)
      · exact .inr (.inr ⟨_, rfl⟩)
  · exact .inr (.inr ⟨_, rfl⟩)

theorem path_nextFile (s : Sink) (turn : Turn) :
    (s.nextFile allocator turn).log.path = s.file.log.path := by
  obtain h | ⟨date, h⟩ | ⟨event, h⟩ := s.nextFile_cases allocator turn
  · rw [h]
  · rw [h, FileSink.path_generateLogPath]
  · rw [h, FileSink.path_next]

def next (s : Sink) (turn : Turn) : Sink where
  file := s.nextFile allocator turn
  dir := s.dir
  same := by rw [path_nextFile, s.same]

def ctor (path : ConfiguredPath) (date : LocalDate) (files : FileSystem String) :
    Sink where
  file := FileSink.ctor path.text date files
  dir := path.dir
  same := by
    rw [FileSink.ctor, FileSink.path_generateLogPath, ConfiguredPath.dir]

/-- A file is opened only in the directory that was made for it. -/
def OpensInPlace (s : Sink) (turn : Turn) : Prop :=
  match turn.event with
  | .write date _ =>
      (moMkdirRecursive s.dir turn.tree).1 ≠ -1 →
        (s.file.generateLogPath date).log.fd = none →
        ∀ d, openDirectory (moMkdirRecursive s.dir turn.tree).2
            (s.file.generateLogPath date).log.realPath.toList = some d →
          (moMkdirRecursive s.dir turn.tree).2.find s.dir.path = some (.dir d)
  | _ => True

end Sink

/-- A path ends where its directory part ends: behind a slash, in `.`, or with
nothing but `.` and `..` from the root. -/
def EndsInPlace (path : Path) : Prop :=
  path.EndsInSlash ∨ path.components.getLast? = some Path.dot ∨
    (path.head? = some '/' ∧
      ∀ name ∈ path.components, name = Path.dot ∨ name = Path.dotDot)

instance (path : Path) : Decidable (EndsInPlace path) :=
  inferInstanceAs (Decidable (_ ∨ _ ∨ _))

/-! The name of the file has no slash. -/

theorem slash_notMem_toDigits (number : Nat) :
    '/' ∉ Nat.toDigits 10 number := by
  intro hmem
  have hdigit := Nat.isDigit_of_mem_toDigits (by decide) (by decide) hmem
  exact absurd hdigit (by decide)

theorem slash_notMem_twoDigits (number : Nat) :
    '/' ∉ (twoDigits number).toList := by
  have hdigit : ∀ n : Nat, '/' ≠ Nat.digitChar n := fun n =>
    (Nat.digitChar_ne '/' (by decide)).symm
  simp [twoDigits, hdigit]

/-- Whatever the date, only the directory part of the configured path counts. -/
theorem directoryPart_logPath (path : String) (date : LocalDate) :
    Path.directoryPart (logPath path date).toList =
      Path.directoryPart path.toList := by
  have hsplit : (logPath path date).toList = path.toList ++
      (defaultPrefix ++ "-" ++ date.format ++ ".log").toList := by
    simp [logPath]
  rw [hsplit, Path.directoryPart_append]
  simp [defaultPrefix, LocalDate.format, slash_notMem_toDigits,
    slash_notMem_twoDigits]

theorem length_logPath_lt (path : ConfiguredPath) {date : LocalDate}
    (hyear : date.year < 10000) :
    (logPath path.text date).toList.length < realPathSize := by
  have hdigits : (Nat.toDigits 10 date.year).length ≤ 4 :=
    (Nat.length_toDigits_le_iff (by decide) (by decide)).mpr hyear
  have hshort := path.short
  simp only [logPath, LocalDate.format, defaultPrefix, String.toList_append,
    List.length_append, toList_toString, length_twoDigits]
  change path.text.toList.length + 7 + 1 + (_ + 2 + 2) + 4 < realPathSize
  omega

theorem openDirectory_eq_some_iff {t : DirTree} {path : Path} {d : Nat} :
    openDirectory t path = some d ↔
      t.find path.directoryPart = some (.dir d) := by
  rw [openDirectory]
  split <;> simp_all

/-! A path that ends in place has one directory with its directory part, in
every tree. -/

theorem walk_root_dots {t : DirTree} {names : List Path}
    (h : ∀ name ∈ names, name = Path.dot ∨ name = Path.dotDot) :
    t.walk 0 names = some (.dir 0) := by
  induction names with
  | nil => rfl
  | cons name names ih =>
      obtain ⟨hname, hnames⟩ := List.forall_mem_cons.mp h
      obtain rfl | rfl := hname
      · rw [DirTree.walk_cons (t.here t.root_lt)]
        exact ih hnames
      · rw [DirTree.walk_cons t.root_up]
        exact ih hnames

theorem EndsInPlace.find {path : Path} (h : EndsInPlace path)
    (hne : path ≠ []) {t : DirTree} {d : Nat}
    (hfind : t.find path.directoryPart = some (.dir d)) :
    t.find path = some (.dir d) := by
  by_cases hslash : path.EndsInSlash
  · rwa [Path.directoryPart_of_endsInSlash hslash] at hfind
  · obtain ⟨before, name, hnames, hdirectory⟩ :=
      DirTree.find_directoryPart hne hslash
    have hbefore := (hdirectory t d).mp hfind
    rw [DirTree.find_eq_dir_iff, hnames, DirTree.walk_append hbefore,
      DirTree.walk_name]
    refine ⟨hne, ?_⟩
    obtain hends | hdot | ⟨hroot, hdots⟩ := h
    · exact absurd hends hslash
    · rw [hnames, List.getLast?_concat, Option.some_inj] at hdot
      rw [hdot]
      exact t.here (DirTree.walk_lt (t.start_lt path) hbefore)
    · rw [hnames] at hdots
      rw [DirTree.start, if_pos hroot, walk_root_dots] at hbefore
      · cases hbefore
        rw [← DirTree.walk_name]
        exact walk_root_dots fun last hlast =>
          hdots last (List.mem_append_right _ hlast)
      · exact fun first hfirst => hdots first (List.mem_append_left _ hfirst)

namespace Sink

theorem cached_nextFile {s : Sink} (hs : s.file.Cached) (allocator : Allocator)
    (turn : Turn) : (s.nextFile allocator turn).Cached := by
  obtain h | ⟨date, h⟩ | ⟨event, h⟩ := s.nextFile_cases allocator turn
  · rwa [h]
  · rw [h]
    exact (hs.generateLogPath date).1.toCached
  · rw [h]
    exact hs.next allocator event

theorem directoryPart_realPath {s : Sink} (hs : s.file.Cached)
    (date : LocalDate) :
    Path.directoryPart (s.file.generateLogPath date).log.realPath.toList =
      Path.directoryPart s.dir.path := by
  rw [(hs.generateLogPath date).1.realPath, directoryPart_logPath,
    FileSink.path_generateLogPath, s.same]

theorem opensInPlace_of_endsInPlace {s : Sink} (hs : s.file.Cached)
    (h : EndsInPlace s.dir.path) (turn : Turn) : s.OpensInPlace turn := by
  rw [OpensInPlace]
  split
  · intro _ _ d hopen
    rw [openDirectory_eq_some_iff, directoryPart_realPath hs] at hopen
    exact h.find s.dir.ne hopen
  · trivial

theorem OpensInPlace.find {s : Sink} {t t' : DirTree} {date : LocalDate}
    {bytes : Bytes} {d : Nat} (h : s.OpensInPlace ⟨t, .write date bytes⟩)
    (hs : s.file.Cached) (hmade : moMkdirRecursive s.dir t = (0, t'))
    (hclosed : (s.file.generateLogPath date).log.fd = none)
    (hopen : t'.find s.dir.path.directoryPart = some (.dir d)) :
    t'.find s.dir.path = some (.dir d) := by
  simp only [OpensInPlace, hmade] at h
  apply h (by decide) hclosed
  rw [openDirectory_eq_some_iff, directoryPart_realPath hs, hopen]

end Sink

/-! Every other path has a tree in which the two differ. -/

/-- Directories within one another, down to the working directory, and in each
of them links to that one. -/
def deep (names : List Path) : DirTree where
  size := names.length + 1
  entry d name :=
    if d ≤ names.length then
      if name = Path.dot then some (.dir d)
      else if name = Path.dotDot then some (.dir (d - 1))
      else if name ∈ names then some (.dir names.length)
      else none
    else none
  cwd := names.length
  root_lt := Nat.succ_pos _
  cwd_lt := Nat.lt_succ_self _
  within := by
    intro d name e h
    grind
  unused := fun name h => if_neg (Nat.not_le.mpr h)
  here := fun h => by rw [if_pos (Nat.le_of_lt_succ h), if_pos rfl]
  up := fun {d} h => ⟨d - 1, by
    rw [if_pos (Nat.le_of_lt_succ h), if_neg (by decide), if_pos rfl]⟩
  root_up := by
    rw [if_pos (Nat.zero_le _), if_neg (by decide), if_pos rfl]

/-- A name leads up by one directory at most, and a link leads down. -/
theorem entry_deep {names : List Path} {name : Path} (h : name ∈ names)
    {d : Nat} (hd : d ≤ names.length) :
    ∃ e ≤ names.length, (deep names).entry d name = some (.dir e) ∧
      d ≤ e + 1 ∧
      (name ≠ Path.dot ∧ name ≠ Path.dotDot → e = names.length) := by
  change ∃ e ≤ names.length, (if d ≤ names.length then _ else _) = _ ∧ _
  rw [if_pos hd]
  by_cases hdot : name = Path.dot
  · exact ⟨d, hd, if_pos hdot, Nat.le_succ d, fun hlink =>
      absurd hdot hlink.1⟩
  · by_cases hup : name = Path.dotDot
    · refine ⟨d - 1, by omega, ?_, by omega, fun hlink => absurd hup hlink.2⟩
      rw [if_neg hdot, if_pos hup]
    · refine ⟨names.length, le_rfl, ?_, by omega, fun _ => rfl⟩
      rw [if_neg hdot, if_neg hup, if_pos h]

theorem walk_deep {names later : List Path} (h : later ⊆ names) {d : Nat}
    (hd : d ≤ names.length) :
    ∃ e ≤ names.length, (deep names).walk d later = some (.dir e) ∧
      d ≤ e + later.length ∧
      ((∃ name ∈ later, name ≠ Path.dot ∧ name ≠ Path.dotDot) →
        names.length ≤ e + later.length) := by
  induction later generalizing d with
  | nil => exact ⟨d, hd, rfl, le_rfl, by simp⟩
  | cons name later ih =>
      obtain ⟨hname, hlater⟩ := List.cons_subset.mp h
      obtain ⟨f, hf, hentry, hone, hlink⟩ := entry_deep hname hd
      obtain ⟨e, he, hwalk, hup, hlinks⟩ := ih hlater hf
      refine ⟨e, he, (DirTree.walk_cons hentry later).trans hwalk, ?_, ?_⟩
      · rw [List.length_cons]
        omega
      · rintro ⟨link, hmem, hlinked⟩
        rw [List.length_cons]
        obtain rfl | hmem := List.mem_cons.mp hmem
        · have hbottom := hlink hlinked
          omega
        · have hbound := hlinks ⟨link, hmem, hlinked⟩
          omega

/-- The last name is that of a directory which is made, and so another one. -/
theorem find_root_ne {dir : Dir} {before : List Path} {name : Path}
    (hnames : dir.path.components = before ++ [name])
    (hdot : name ≠ Path.dot) (hup : name ≠ Path.dotDot) :
    ∃ t d, moMkdirRecursive dir .root = (0, t) ∧
      t.walk (t.start dir.path) before = some (.dir d) ∧
      t.find dir.path ≠ some (.dir d) := by
  have hclear : dir.Clear .root := DirTree.plain_root.isClear _ _
  obtain ⟨k, hmade, e, hfind⟩ := moMkdirRecursive_level hclear
  obtain ⟨-, hwalk⟩ := DirTree.find_eq_dir_iff.mp hfind
  rw [hnames] at hwalk
  obtain ⟨d, hbefore, hentry⟩ := DirTree.exists_of_walk_concat hwalk
  refine ⟨_, d, hmade, hbefore, ?_⟩
  obtain ⟨f, hf, hdots⟩ :=
    DirTree.plain_root.grown _ _ k d name (.dir e) hentry
  cases hf
  rw [hfind]
  intro hsame
  cases hsame
  obtain hdots | hdots | hbehind := hdots
  · exact hdot hdots
  · exact hup hdots
  · exact Nat.lt_irrefl _ hbehind

/-- The last name leads up from a directory that is not the root. -/
theorem find_deep_ne {dir : Dir} {before : List Path}
    (hnames : dir.path.components = before ++ [Path.dotDot])
    (habove : dir.path.head? = some '/' →
      ∃ name ∈ before, name ≠ Path.dot ∧ name ≠ Path.dotDot) :
    ∃ t d, moMkdirRecursive dir (deep dir.path.components) = (0, t) ∧
      t.walk (t.start dir.path) before = some (.dir d) ∧
      t.find dir.path ≠ some (.dir d) := by
  have hlength : dir.path.components.length = before.length + 1 := by
    rw [hnames, List.length_append, List.length_singleton]
  have hsubset : before ⊆ dir.path.components := by
    rw [hnames]
    exact List.subset_append_left _ _
  have hstart := Nat.le_of_lt_succ
    ((deep dir.path.components).start_lt dir.path)
  obtain ⟨d, hd, hwalk, hup, hlink⟩ := walk_deep hsubset hstart
  have hpos : 0 < d := by
    by_cases hroot : dir.path.head? = some '/'
    · have hbound := hlink (habove hroot)
      omega
    · rw [DirTree.start, if_neg hroot] at hup
      change dir.path.components.length ≤ d + before.length at hup
      omega
  have hentry : (deep dir.path.components).entry d Path.dotDot =
      some (.dir (d - 1)) := by
    change (if d ≤ dir.path.components.length then _ else _) = _
    rw [if_pos hd, if_neg (by decide), if_pos rfl]
  have hfind : (deep dir.path.components).find dir.path =
      some (.dir (d - 1)) := by
    refine DirTree.find_eq_dir_iff.mpr ⟨dir.ne, ?_⟩
    have hwalk' := DirTree.walk_append hwalk [Path.dotDot]
    rw [← hnames, DirTree.walk_name, hentry] at hwalk'
    exact hwalk'
  refine ⟨deep dir.path.components, d, ?_, hwalk, ?_⟩
  · rw [moMkdirRecursive, access, hfind]
    rfl
  · rw [hfind]
    intro hsame
    injection hsame with hsame
    injection hsame with hsame
    omega

theorem exists_outside {dir : Dir} (h : ¬EndsInPlace dir.path) :
    ∃ t t' d, moMkdirRecursive dir t = (0, t') ∧
      t'.find dir.path.directoryPart = some (.dir d) ∧
      t'.find dir.path ≠ some (.dir d) := by
  have hslash : ¬dir.path.EndsInSlash := fun hends => h (.inl hends)
  obtain ⟨before, name, hnames, hdirectory⟩ :=
    DirTree.find_directoryPart dir.ne hslash
  have hdot : name ≠ Path.dot := by
    rintro rfl
    refine h (.inr (.inl ?_))
    rw [hnames, List.getLast?_concat]
  by_cases hup : name = Path.dotDot
  · subst hup
    have habove : dir.path.head? = some '/' →
        ∃ name ∈ before, name ≠ Path.dot ∧ name ≠ Path.dotDot := by
      intro hroot
      by_contra hnone
      push Not at hnone
      refine h (.inr (.inr ⟨hroot, ?_⟩))
      intro name hname
      rw [hnames] at hname
      obtain hname | hname := List.mem_append.mp hname
      · by_cases hfirst : name = Path.dot
        · exact .inl hfirst
        · exact .inr (hnone name hname hfirst)
      · exact .inr (List.mem_singleton.mp hname)
    obtain ⟨t, d, hmade, hwalk, hne⟩ := find_deep_ne hnames habove
    exact ⟨_, t, d, hmade, (hdirectory t d).mpr hwalk, hne⟩
  · obtain ⟨t, d, hmade, hwalk, hne⟩ := find_root_ne hnames hdot hup
    exact ⟨_, t, d, hmade, (hdirectory t d).mpr hwalk, hne⟩

/-- In every run the file is opened only in the directory that was made for it,
exactly when the configured path ends in place. -/
theorem opensInPlace_iff (path : ConfiguredPath) :
    (∀ allocator date files turns,
      Along (Sink.next allocator) Sink.OpensInPlace
        (Sink.ctor path date files) turns) ↔
      EndsInPlace path.dir.path := by
  constructor
  · intro h
    by_contra houtside
    obtain ⟨t, t', d, hmade, hopen, hne⟩ := exists_outside houtside
    obtain ⟨hfirst, -⟩ := h .next ⟨1970, 0, by decide⟩ .empty
      [⟨t, .write ⟨1970, 0, by decide⟩ []⟩]
    exact hne (hfirst.find (FileSink.cached_ctor ..) hmade rfl hopen)
  · intro h allocator date files turns
    refine along_of_invariant
      (fun s => s.dir = path.dir ∧ s.file.Cached) ?_ ?_ ?_ turns
    · rintro s turn ⟨hdir, hs⟩
      exact Sink.opensInPlace_of_endsInPlace hs (hdir ▸ h) turn
    · rintro s turn ⟨hdir, hs⟩
      exact ⟨hdir, Sink.cached_nextFile hs allocator turn⟩
    · exact ⟨rfl, FileSink.cached_ctor path.text date files⟩

theorem not_opensInPlace_log :
    ¬Along (Sink.next .next) Sink.OpensInPlace
      (Sink.ctor ⟨"log", by decide, by decide⟩ ⟨2018, 0, by decide⟩ .empty)
      [⟨.root, .write ⟨2018, 0, by decide⟩ []⟩] := by
  rintro ⟨hfirst, -⟩
  have hplace := hfirst (by decide) rfl 0 (by decide)
  exact absurd hplace (by decide)

end Molten.Log.SinkPath
