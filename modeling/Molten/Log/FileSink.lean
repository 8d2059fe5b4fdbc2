import Molten.Control.Machine
import Molten.Data.FileSystem
import Molten.Log.ChainLog
import Molten.Text.CString

namespace Molten.Log

open Molten.Control Molten.Data

/-! The log file of a day, with a descriptor that is kept between writes. -/

def IsLeapYear (year : Nat) : Prop :=
  4 ∣ year ∧ (100 ∣ year → 400 ∣ year)

instance (year : Nat) : Decidable (IsLeapYear year) :=
  inferInstanceAs (Decidable (_ ∧ _))

def yearLength (year : Nat) : Nat := if IsLeapYear year then 366 else 365

def monthLengths (year : Nat) : List Nat :=
  [31, if IsLeapYear year then 29 else 28, 31, 30, 31, 30, 31, 31, 30, 31, 30,
    31]

/-- What `localtime` tells of the date.  `yday` counts from 0. -/
structure LocalDate where
  year : Nat
  yday : Nat
  yday_lt : yday < yearLength year
  deriving DecidableEq

/-- The month and the day in it, both from 1. -/
def monthAndDay : List Nat → Nat → Nat × Nat
  | [], yday => (1, yday + 1)
  | length :: lengths, yday =>
      if yday < length then (1, yday + 1)
      else
        let (month, day) := monthAndDay lengths (yday - length)
        (month + 1, day)

def twoDigits (number : Nat) : String :=
  String.ofList [Nat.digitChar (number / 10), Nat.digitChar (number % 10)]

/-- `strftime` with `LOG_FORMAT`, which is `%Y%m%d`. -/
def LocalDate.format (date : LocalDate) : String :=
  let (month, day) := monthAndDay (monthLengths date.year) date.yday
  toString date.year ++ twoDigits month ++ twoDigits day

def defaultPrefix : String := "tracing"

def logPath (path : String) (date : LocalDate) : String :=
  path ++ defaultPrefix ++ "-" ++ date.format ++ ".log"

example : logPath "/var/wd/log/" ⟨2024, 59, by decide⟩ =
    "/var/wd/log/tracing-20240229.log" := by decide

/-- `mo_chain_log_t` for a file.  The descriptor is the file it is open on, or
`none` for -1. -/
structure FileLog where
  path : String
  realPath : String
  tmYday : Int
  fd : Option Nat
  ino : Nat

/-- The log and the files, with the date for which `real_path` was made. -/
structure FileSink where
  log : FileLog
  files : FileSystem String
  pathDate : LocalDate

namespace FileSink

def closeLogFd (s : FileSink) : FileSink :=
  { s with log := { s.log with fd := none } }

/-- The descriptor is closed when its path has no file, or another one. -/
def checkFile (s : FileSink) : FileSink :=
  match s.log.fd, s.files.inode s.log.realPath with
  | some _, none => s.closeLogFd
  | some _, some ino => if ino ≠ s.log.ino then s.closeLogFd else s
  | none, _ => s

def generateLogPath (date : LocalDate) (s : FileSink) : FileSink :=
  let s := s.checkFile
  if (date.yday : Int) ≠ s.log.tmYday then
    { s with
      log := { s.log with
        realPath := logPath s.log.path date
        tmYday := date.yday
        fd := none }
      pathDate := date }
  else s

/-- `open(real_path, O_WRONLY|O_CREAT|O_APPEND)` and the `lstat` behind it. -/
def openLog (allocator : Allocator) (s : FileSink) : FileSink :=
  match s.log.fd with
  | some _ => s
  | none =>
      let files :=
        match s.files.inode s.log.realPath with
        | some _ => s.files
        | none => s.files.create allocator [] s.log.realPath []
      let ino := files.inode s.log.realPath
      { s with
        files
        log := { s.log with fd := ino, ino := ino.getD s.log.ino } }

def prepare (allocator : Allocator) (date : LocalDate) (s : FileSink) :
    FileSink :=
  (s.generateLogPath date).openLog allocator

/-- `mo_log_write`, where every system call succeeds. -/
def moLogWrite (allocator : Allocator) (date : LocalDate) (bytes : Bytes)
    (s : FileSink) : FileSink :=
  let s := s.prepare allocator date
  match s.log.fd with
  | some inode => { s with files := s.files.append inode bytes }
  | none => s

def ctor (path : String) (date : LocalDate) (files : FileSystem String) :
    FileSink :=
  generateLogPath date
    { log := { path, realPath := "", tmYday := -1, fd := none, ino := 0 }
      files
      pathDate := date }

end FileSink

/-- A write of the process, or what others do to the files between writes. -/
inductive FileEvent
  | write (date : LocalDate) (bytes : Bytes)
  | remove (name : String)
  | rename (source target : String)
  | recreate (name : String) (bytes : Bytes)

namespace FileSink

variable (allocator : Allocator)

def next (s : FileSink) : FileEvent → FileSink
  | .write date bytes => s.moLogWrite allocator date bytes
  | .remove name => { s with files := s.files.unlink name }
  | .rename source target => { s with files := s.files.rename source target }
  | .recreate name bytes =>
      { s with
        files := s.files.create allocator s.log.fd.toList name bytes }

/-- The descriptor is open on the file that the path of the day stands for,
which has its former contents and then the bytes; no other name reads
differently. -/
def WritesToday (s : FileSink) (event : FileEvent) : Prop :=
  match event with
  | .write date bytes =>
      let today := logPath s.log.path date
      let after := s.moLogWrite allocator date bytes
      (∃ inode, after.log.fd = some inode ∧
          after.files.inode today = some inode) ∧
        after.files.read today =
          some ((s.files.read today).getD [] ++ bytes) ∧
        ∀ name, name ≠ today → after.files.read name = s.files.read name
  | _ => True

/-- No write falls on the day number of the path in use, but in another
year. -/
def SameYear (s : FileSink) (event : FileEvent) : Prop :=
  match event with
  | .write date _ =>
      date.yday = s.pathDate.yday → date.year = s.pathDate.year
  | _ => True

end FileSink

theorem length_twoDigits (number : Nat) :
    (twoDigits number).toList.length = 2 := by
  simp [twoDigits]

theorem year_eq_of_logPath {path : String} {first second : LocalDate}
    (h : logPath path first = logPath path second) :
    first.year = second.year := by
  have hlist := congrArg String.toList h
  simp only [logPath, LocalDate.format, String.toList_append,
    List.append_assoc, List.append_cancel_left_eq] at hlist
  obtain ⟨hyear, -⟩ := List.append_inj' hlist (by simp [length_twoDigits])
  exact toList_toString_inj hyear

theorem localDate_eq {first second : LocalDate}
    (hyday : first.yday = second.yday) (hyear : first.year = second.year) :
    first = second := by
  cases first
  cases second
  simp_all

namespace FileSink

theorem path_generateLogPath (date : LocalDate) (s : FileSink) :
    (s.generateLogPath date).log.path = s.log.path := by
  have hcheck : s.checkFile.log.path = s.log.path := by
    unfold checkFile
    split
    · rfl
    · split <;> rfl
    · rfl
  rw [generateLogPath]
  split <;> exact hcheck

theorem path_next (allocator : Allocator) (s : FileSink) (event : FileEvent) :
    (s.next allocator event).log.path = s.log.path := by
  cases event with
  | write date bytes =>
      have hopen : (s.prepare allocator date).log.path = s.log.path := by
        refine Eq.trans ?_ (path_generateLogPath date s)
        rw [prepare, openLog]
        split <;> rfl
      rw [next, moLogWrite]
      split <;> exact hopen
  | remove name => rfl
  | rename source target => rfl
  | recreate name bytes => rfl

/-- The path and the day number in use are those of one date, and a descriptor
is open on the file whose number is kept. -/
structure Cached (s : FileSink) : Prop where
  realPath : s.log.realPath = logPath s.log.path s.pathDate
  tmYday : s.log.tmYday = s.pathDate.yday
  ino : ∀ inode, s.log.fd = some inode → s.log.ino = inode

structure Checked (s : FileSink) : Prop extends Cached s where
  fd : ∀ inode, s.log.fd = some inode →
    s.files.inode s.log.realPath = some inode

theorem Cached.checkFile {s : FileSink} (hs : Cached s) :
    Checked s.checkFile ∧ s.checkFile.log.path = s.log.path ∧
      s.checkFile.pathDate = s.pathDate := by
  have hclosed : Checked s.closeLogFd :=
    ⟨⟨hs.realPath, hs.tmYday, by simp [closeLogFd]⟩, by simp [closeLogFd]⟩
  unfold FileSink.checkFile
  split
  · exact ⟨hclosed, rfl, rfl⟩
  · rename_i ino hfd hino
    split
    · exact ⟨hclosed, rfl, rfl⟩
    · rename_i hsame
      refine ⟨⟨hs, fun inode hinode => ?_⟩, rfl, rfl⟩
      rw [hino, not_not.mp hsame, hs.ino inode hinode]
  · rename_i hfd
    exact ⟨⟨hs, by simp [hfd]⟩, rfl, rfl⟩

theorem Cached.generateLogPath {s : FileSink} (hs : Cached s)
    (date : LocalDate) :
    Checked (s.generateLogPath date) ∧
      (s.generateLogPath date).log.path = s.log.path ∧
      (s.generateLogPath date).pathDate =
        if date.yday = s.pathDate.yday then s.pathDate else date := by
  obtain ⟨hchecked, hpath, hdate⟩ := hs.checkFile
  have htest : (date.yday : Int) ≠ s.checkFile.log.tmYday ↔
      ¬ date.yday = s.pathDate.yday := by
    rw [hchecked.tmYday, hdate, Ne, Int.natCast_inj]
  simp only [FileSink.generateLogPath, htest]
  by_cases hsame : date.yday = s.pathDate.yday
  · simpa [hsame] using ⟨hchecked, hpath, hdate⟩
  · simp only [hsame, not_false_eq_true, if_true, if_false]
    exact ⟨⟨⟨by rw [hpath], rfl, by simp⟩, by simp⟩, hpath, trivial⟩

theorem openLog_log (allocator : Allocator) (s : FileSink) :
    (s.openLog allocator).log.path = s.log.path ∧
      (s.openLog allocator).log.realPath = s.log.realPath ∧
      (s.openLog allocator).log.tmYday = s.log.tmYday ∧
      (s.openLog allocator).pathDate = s.pathDate := by
  rw [openLog]
  split <;> exact ⟨rfl, rfl, rfl, rfl⟩

theorem Checked.openLog {s : FileSink} (hs : Checked s)
    (allocator : Allocator) :
    ∃ inode, (s.openLog allocator).log.fd = some inode ∧
      (s.openLog allocator).log.ino = inode ∧
      (s.openLog allocator).files.inode s.log.realPath = some inode := by
  cases hfd : s.log.fd with
  | some inode =>
      have hstays : s.openLog allocator = s := by simp [FileSink.openLog, hfd]
      rw [hstays]
      exact ⟨inode, hfd, hs.ino inode hfd, hs.fd inode hfd⟩
  | none =>
      cases hino : s.files.inode s.log.realPath with
      | some inode =>
          exact ⟨inode, by simp [FileSink.openLog, hfd, hino]⟩
      | none =>
          refine ⟨allocator.pick (s.files.inodes ++ []), ?_⟩
          simp only [FileSink.openLog, hfd, hino,
            FileSystem.inode_create, Option.getD_some, and_self]

theorem files_generateLogPath (date : LocalDate) (s : FileSink) :
    (s.generateLogPath date).files = s.files := by
  have checked : s.checkFile.files = s.files := by
    unfold checkFile
    split
    · rfl
    · split <;> rfl
    · rfl
  rw [generateLogPath]
  split <;> exact checked

/-- A file that is missing is created empty, and nothing is written yet. -/
theorem read_openLog (allocator : Allocator) (s : FileSink) (name : String) :
    ((s.openLog allocator).files.read name).getD [] =
        (s.files.read name).getD [] ∧
      (name ≠ s.log.realPath →
        (s.openLog allocator).files.read name = s.files.read name) := by
  rw [openLog]
  split
  · exact ⟨rfl, fun _ => rfl⟩
  · cases known : s.files.inode s.log.realPath with
    | some inode => exact ⟨rfl, fun _ => rfl⟩
    | none =>
        refine ⟨?_, fun differs =>
          FileSystem.read_create_of_ne allocator [] differs [] s.files⟩
        by_cases same : name = s.log.realPath
        · subst same
          rw [FileSystem.read_create, FileSystem.read, known]
          rfl
        · rw [FileSystem.read_create_of_ne allocator [] same [] s.files]

theorem read_prepare (allocator : Allocator) (date : LocalDate)
    (s : FileSink) (name : String) :
    ((s.prepare allocator date).files.read name).getD [] =
        (s.files.read name).getD [] ∧
      (name ≠ (s.generateLogPath date).log.realPath →
        (s.prepare allocator date).files.read name = s.files.read name) := by
  have opened := read_openLog allocator (s.generateLogPath date) name
  rw [files_generateLogPath] at opened
  exact opened

theorem Cached.prepare {s : FileSink} (hs : Cached s) (allocator : Allocator)
    (date : LocalDate) :
    Cached (s.prepare allocator date) ∧
      (s.prepare allocator date).log.path = s.log.path ∧
      (s.prepare allocator date).pathDate =
        (if date.yday = s.pathDate.yday then s.pathDate else date) ∧
      ∃ inode, (s.prepare allocator date).log.fd = some inode ∧
        (s.prepare allocator date).files.inode
          (s.prepare allocator date).log.realPath = some inode := by
  obtain ⟨hchecked, hpath, hdate⟩ := hs.generateLogPath date
  obtain ⟨inode, hfd, hino, hinode⟩ := hchecked.openLog allocator
  obtain ⟨hpath', hreal', hyday', hdate'⟩ :=
    openLog_log allocator (s.generateLogPath date)
  rw [FileSink.prepare]
  refine ⟨⟨?_, ?_, ?_⟩, hpath'.trans hpath, hdate'.trans hdate,
    inode, hfd, ?_⟩
  · rw [hreal', hpath', hdate', hchecked.realPath]
  · rw [hyday', hdate', hchecked.tmYday]
  · intro other hother
    rw [hino]
    exact Option.some.inj (hfd.symm.trans hother)
  · rw [hreal', hinode]

theorem Cached.next {s : FileSink} (hs : Cached s) (allocator : Allocator)
    (event : FileEvent) : Cached (s.next allocator event) := by
  cases event with
  | write date bytes =>
      obtain ⟨⟨hreal, hyday, hino⟩, -, -, inode, hfd, -⟩ :=
        hs.prepare allocator date
      simp only [FileSink.next, FileSink.moLogWrite, hfd]
      exact ⟨hreal, hyday, hino⟩
  | remove name => exact ⟨hs.realPath, hs.tmYday, hs.ino⟩
  | rename source target => exact ⟨hs.realPath, hs.tmYday, hs.ino⟩
  | recreate name bytes => exact ⟨hs.realPath, hs.tmYday, hs.ino⟩

/-- The path in use is another one than that of the day exactly when the years
differ, since no two paths stand for one file. -/
theorem Cached.writesToday_iff {s : FileSink} (hs : Cached s)
    (allocator : Allocator) (event : FileEvent) :
    WritesToday allocator s event ↔ SameYear s event := by
  cases event with
  | remove name => exact Iff.rfl
  | rename source target => exact Iff.rfl
  | recreate name bytes => exact Iff.rfl
  | write date bytes =>
      obtain ⟨hcached, hpath, hdate, inode, hfd, hinode⟩ :=
        hs.prepare allocator date
      have hwrite : s.moLogWrite allocator date bytes =
          { s.prepare allocator date with
            files := (s.prepare allocator date).files.append inode bytes } := by
        simp only [FileSink.moLogWrite, hfd]
      have hreal := hcached.realPath
      rw [hpath, hdate] at hreal
      simp only [WritesToday, SameYear, hwrite]
      constructor
      · rintro ⟨⟨other, hother, htoday⟩, -⟩ hyday
        obtain rfl := Option.some.inj (hother.symm.trans hfd)
        rw [hreal, if_pos hyday] at hinode
        exact year_eq_of_logPath (FileSystem.inode_unique htoday hinode)
      · intro hyear
        have htoday : (s.prepare allocator date).log.realPath =
            logPath s.log.path date := by
          rw [hreal]
          split
          · rename_i hyday
            rw [← localDate_eq hyday (hyear hyday)]
          · rfl
        rw [htoday] at hinode
        have hopened : (s.prepare allocator date).log.realPath =
            (s.generateLogPath date).log.realPath :=
          (openLog_log allocator _).2.1
        refine ⟨⟨inode, hfd, hinode⟩, ?_, fun name differs => ?_⟩
        · rw [FileSystem.read_append hinode,
            (read_prepare allocator date s _).1]
        · rw [FileSystem.read_append_of_ne hinode differs]
          refine (read_prepare allocator date s name).2 ?_
          rwa [← hopened, htoday]

theorem cached_ctor (path : String) (date : LocalDate)
    (files : FileSystem String) : Cached (ctor path date files) := by
  have hyday : (date.yday : Int) ≠ -1 := by omega
  have hctor : ctor path date files =
      ⟨⟨path, logPath path date, date.yday, none, 0⟩, files, date⟩ := by
    simp [ctor, FileSink.generateLogPath, FileSink.checkFile, hyday]
  rw [hctor]
  exact ⟨rfl, rfl, by simp⟩

end FileSink

end Molten.Log
