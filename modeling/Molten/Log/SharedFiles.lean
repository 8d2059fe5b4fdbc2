import Molten.Log.Buffer
import Molten.Log.FileSink
import Molten.Log.WriteLoop
import Molten.Text.Lines

namespace Molten.Log

open Molten.Control Molten.Data Molten.Text

/-! The workers of a host write to the log files of one directory.  Between two
system calls of one of them the others may make theirs, and files may be
renamed. -/

/-- The records of a flush, with the bytes that they made in the buffer. -/
structure Batch where
  records : List Record
  bytes : Bytes

/-- Where a worker is in `mo_log_write`, by what it does next. -/
inductive Phase
  | idle
  | accessing (batch : Batch)
  | comparing (batch : Batch)
  | dating (batch : Batch)
  | opening (batch : Batch)
  | noting (batch : Batch)
  | writing (batch : Batch)

namespace Phase

def batch : Phase → Option Batch
  | idle => none
  | accessing batch | comparing batch | dating batch | opening batch
  | noting batch | writing batch => some batch

/-- Behind the `open`. -/
def IsOpened : Phase → Prop
  | noting _ | writing _ => True
  | _ => False

end Phase

namespace FileLog

def close (log : FileLog) : FileLog := { log with fd := none }

/-- The check of `generate_log_path` with `access`. -/
def access (files : FileSystem String) (log : FileLog) : FileLog :=
  if files.inode log.realPath = none then log.close else log

/-- The check of `generate_log_path` with `lstat`. -/
def compareInode (files : FileSystem String) (log : FileLog) : FileLog :=
  match files.inode log.realPath with
  | none => log.close
  | some ino => if ino ≠ log.ino then log.close else log

def setDate (date : LocalDate) (log : FileLog) : FileLog :=
  if (date.yday : Int) ≠ log.tmYday then
    { log with
      realPath := logPath log.path date
      tmYday := date.yday
      fd := none }
  else log

/-- The `lstat` behind the `open`. -/
def noteInode (files : FileSystem String) (log : FileLog) : FileLog :=
  { log with ino := (files.inode log.realPath).getD log.ino }

end FileLog

/-- What `open` with `O_CREAT` leaves. -/
def openedFiles (allocator : Allocator) (held : List Nat) (path : String)
    (files : FileSystem String) : FileSystem String :=
  match files.inode path with
  | some _ => files
  | none => files.create allocator held path []

structure LogWorker where
  buffer : ChainLog
  log : FileLog
  phase : Phase

/-- The records of the call it is in. -/
def LogWorker.pending (worker : LogWorker) : List Record :=
  match worker.phase.batch with
  | none => []
  | some batch => batch.records

/-- The files and the workers, with the records of all flushes so far. -/
structure SharedLogs (n : Nat) where
  files : FileSystem String
  workers : Fin n → LogWorker
  given : List Record

/-- What a worker meets in its next step: the day, whether the directory cannot
be made or the file cannot be opened, and what a `write` returns, `none` for
-1. -/
structure Outcome where
  date : LocalDate
  fails : Bool
  written : Option Nat

inductive LogMove (n : Nat)
  | flush (i : Fin n) (fresh : Nat → Memory) (records : List Record)
  | step (i : Fin n) (outcome : Outcome)
  | rename (source target : String)

namespace SharedLogs

variable {n : Nat}

/-- The files that some descriptor is open on. -/
def held (s : SharedLogs n) : List Nat :=
  (List.finRange n).filterMap fun i => (s.workers i).log.fd

def setWorker (s : SharedLogs n) (i : Fin n) (worker : LogWorker) :
    SharedLogs n :=
  { s with workers := Function.update s.workers i worker }

/-- `mo_chain_log_init`, `mo_chain_log_add` for each record, and the call of
`mo_log_write`. -/
def flush (s : SharedLogs n) (i : Fin n) (fresh : Nat → Memory)
    (records : List Record) : SharedLogs n :=
  match (s.workers i).phase with
  | .idle =>
      let buffer := (addRecords fresh (records.map fun r => some r.bytes)
        (moChainLogInit (s.workers i).buffer)).1
      { s.setWorker i
          { s.workers i with
            buffer
            phase := .accessing ⟨records, buffer.contents⟩ } with
        given := s.given ++ records }
  | _ => s

variable (allocator : Allocator)

/-- The worker goes on in `mo_log_write`, and leaves it where the directory or
the file is missing. -/
def step (s : SharedLogs n) (i : Fin n) (outcome : Outcome) : SharedLogs n :=
  let worker := s.workers i
  match worker.phase with
  | .idle => s
  | .accessing batch =>
      if outcome.fails then s.setWorker i { worker with phase := .idle }
      else
        s.setWorker i
          { worker with
            log := worker.log.access s.files
            phase := .comparing batch }
  | .comparing batch =>
      s.setWorker i
        { worker with
          log := worker.log.compareInode s.files
          phase := .dating batch }
  | .dating batch =>
      s.setWorker i
        { worker with
          log := worker.log.setDate outcome.date
          phase := .opening batch }
  | .opening batch =>
      match worker.log.fd with
      | some _ => s.setWorker i { worker with phase := .writing batch }
      | none =>
          if outcome.fails then s.setWorker i { worker with phase := .idle }
          else
            let files :=
              openedFiles allocator s.held worker.log.realPath s.files
            { s.setWorker i
                { worker with
                  log :=
                    { worker.log with fd := files.inode worker.log.realPath }
                  phase := .noting batch } with
              files }
  | .noting batch =>
      s.setWorker i
        { worker with
          log := worker.log.noteInode s.files
          phase := .writing batch }
  | .writing batch =>
      match worker.log.fd, outcome.written with
      | some inode, some written =>
          let files := s.files.append inode (batch.bytes.take written)
          -- A short write is followed by one of the whole batch.
          if doubled written < batch.bytes.length then { s with files }
          else { s.setWorker i { worker with phase := .idle } with files }
      | _, _ => s.setWorker i { worker with phase := .idle }

def next (s : SharedLogs n) : LogMove n → SharedLogs n
  | .flush i fresh records => s.flush i fresh records
  | .step i outcome => s.step allocator i outcome
  | .rename source target => { s with files := s.files.rename source target }

def fileLines (files : FileSystem String) (inode : Nat) : List Block :=
  Block.splitLines (files.contents inode)

/-- The lines of all files. -/
def lines (s : SharedLogs n) : List Block :=
  s.files.inodes.flatMap (fileLines s.files)

def pending (s : SharedLogs n) : List Record :=
  (List.finRange n).flatMap fun i => (s.workers i).pending

def SingleLines (records : List Record) : Prop :=
  ∀ record ∈ records, (10 : UInt8) ∉ record.bytes

/-- The directory and the file are there, and a batch is written at once, as
far as twice its size is an `int`. -/
def Succeeds (worker : LogWorker) (outcome : Outcome) : Prop :=
  match worker.phase with
  | .accessing _ | .opening _ => outcome.fails = false
  | .writing batch =>
      batch.bytes.length < 2 ^ 30 ∧ outcome.written = some batch.bytes.length
  | _ => True

/-- Records are one line each and leave room, the system calls succeed, and a
file that is renamed gets a name that is free. -/
def Allowed (s : SharedLogs n) : LogMove n → Prop
  | .flush i fresh records =>
      SingleLines records ∧
        LeaveRoom fresh (records.map fun r => some r.bytes)
          (moChainLogInit (s.workers i).buffer)
  | .step i outcome => Succeeds (s.workers i) outcome
  | .rename _ target => s.files.inode target = none

end SharedLogs

/-! The buffer. -/

theorem contents_addRecords (fresh : Nat → Memory) {records : List Record}
    {log : ChainLog} {added : List Record}
    (sound : Buffer.Sound ⟨log, added⟩)
    (room : LeaveRoom fresh (records.map fun r => some r.bytes) log) :
    (addRecords fresh (records.map fun r => some r.bytes) log).1.contents =
        lines log.sinkType (added ++ records) ∧
      (addRecords fresh (records.map fun r => some r.bytes) log).1.sinkType =
        log.sinkType := by
  induction records generalizing log added with
  | nil =>
      rw [List.append_nil]
      exact ⟨sound.contents, rfl⟩
  | cons record records induction =>
      have rest := induction (sound.add room.1.1) room.2
      rw [moChainLogAdd_sinkType, List.append_assoc] at rest
      exact rest

theorem lines_sinkLog (records : List Record) :
    lines sinkLog records = Block.joinLines (records.map Record.bytes) := by
  rw [lines, Block.joinLines, List.flatMap_map]
  rfl

/-! The system. -/

namespace SharedLogs

variable {n : Nat}

def Batch.Joined (batch : Batch) : Prop :=
  batch.bytes = Block.joinLines (batch.records.map Record.bytes) ∧
    SingleLines batch.records

structure Linked (inodes : List Nat) (worker : LogWorker) : Prop where
  sink : worker.buffer.sinkType = sinkLog
  fd : ∀ inode, worker.log.fd = some inode → inode ∈ inodes
  batch : ∀ batch, worker.phase.batch = some batch → Batch.Joined batch
  opened : worker.phase.IsOpened → worker.log.fd ≠ none

/-- The lines of the files are those there were before and those of all records
that were given and are not pending.  No line has a part behind it. -/
structure Delivered (before : List Block) (s : SharedLogs n) : Prop where
  workers : ∀ i, Linked s.files.inodes (s.workers i)
  ended : ∀ inode ∈ s.files.inodes, Block.Ended (s.files.contents inode)
  lines : (s.lines ++ s.pending.map Record.bytes).Perm
    (before ++ s.given.map Record.bytes)

theorem Linked.mono {inodes others : List Nat} {worker : LogWorker}
    (linked : Linked inodes worker) (within : inodes ⊆ others) :
    Linked others worker :=
  ⟨linked.sink, fun inode found => within (linked.fd inode found),
    linked.batch, linked.opened⟩

theorem setWorker_self (s : SharedLogs n) (i : Fin n) (worker : LogWorker) :
    (s.setWorker i worker).workers i = worker := Function.update_self ..

theorem setWorker_other (s : SharedLogs n) {i j : Fin n} (different : j ≠ i)
    (worker : LogWorker) : (s.setWorker i worker).workers j = s.workers j :=
  Function.update_of_ne different ..

theorem linked_setWorker {s : SharedLogs n}
    (workers : ∀ i, Linked s.files.inodes (s.workers i)) (i : Fin n)
    {worker : LogWorker} (linked : Linked s.files.inodes worker) (j : Fin n) :
    Linked s.files.inodes ((s.setWorker i worker).workers j) := by
  by_cases same : j = i
  · subst same
    rw [setWorker_self]
    exact linked
  · rw [setWorker_other s same]
    exact workers j

/-! What is pending. -/

theorem flatMap_perm_of_extended {α β : Type*} {entries : List α}
    (nodup : entries.Nodup) {entry : α} (member : entry ∈ entries)
    {first second : α → List β} {added : List β}
    (extended : second entry = first entry ++ added)
    (others : ∀ other ∈ entries, other ≠ entry →
      second other = first other) :
    (entries.flatMap second).Perm (entries.flatMap first ++ added) := by
  induction entries with
  | nil => cases member
  | cons head entries induction =>
      obtain ⟨absent, nodup⟩ := List.nodup_cons.mp nodup
      rw [List.flatMap_cons, List.flatMap_cons]
      rcases List.mem_cons.mp member with rfl | member
      · have rest : entries.flatMap second = entries.flatMap first := by
          refine List.flatMap_congr fun other within => ?_
          refine others other (List.mem_cons_of_mem _ within) ?_
          rintro rfl
          exact absent within
        rw [rest, extended, List.append_assoc, List.append_assoc]
        exact List.perm_append_comm.append_left _
      · have different : head ≠ entry := by
          rintro rfl
          exact absent member
        rw [others head List.mem_cons_self different, List.append_assoc]
        exact (induction nodup member fun other within =>
          others other (List.mem_cons_of_mem head within)).append_left _

/-- Two pools that differ in one worker, who has more pending in the second. -/
theorem pending_perm (s : SharedLogs n) {s' : SharedLogs n} (i : Fin n)
    (added : List Record)
    (extended : (s'.workers i).pending = (s.workers i).pending ++ added)
    (others : ∀ j, j ≠ i → s'.workers j = s.workers j) :
    s'.pending.Perm (s.pending ++ added) :=
  flatMap_perm_of_extended (List.nodup_finRange n) (List.mem_finRange i)
    extended fun j _ different => by rw [others j different]

theorem pending_setWorker {s : SharedLogs n} (i : Fin n) {worker : LogWorker}
    (same : worker.pending = (s.workers i).pending) :
    (s.setWorker i worker).pending = s.pending := by
  refine List.flatMap_congr fun j _ => ?_
  by_cases equal : j = i
  · subst equal
    rw [setWorker_self, same]
  · rw [setWorker_other s equal]

theorem Delivered.setWorker {before : List Block} {s : SharedLogs n}
    (delivered : Delivered before s) (i : Fin n) {worker : LogWorker}
    (linked : Linked s.files.inodes worker)
    (same : worker.pending = (s.workers i).pending) :
    Delivered before (s.setWorker i worker) := by
  refine ⟨linked_setWorker delivered.workers i linked, delivered.ended, ?_⟩
  rw [pending_setWorker i same]
  exact delivered.lines

theorem Delivered.flush {before : List Block} {s : SharedLogs n}
    (delivered : Delivered before s) (i : Fin n) {fresh : Nat → Memory}
    {records : List Record} (single : SingleLines records)
    (room : LeaveRoom fresh (records.map fun r => some r.bytes)
      (moChainLogInit (s.workers i).buffer)) :
    Delivered before (s.flush i fresh records) := by
  have linked := delivered.workers i
  rw [SharedLogs.flush]
  split
  · rename_i idle
    have sound : Buffer.Sound ⟨moChainLogInit (s.workers i).buffer, []⟩ :=
      ⟨Nat.zero_le _, rfl⟩
    obtain ⟨contents, sinkType⟩ := contents_addRecords fresh sound room
    refine ⟨linked_setWorker delivered.workers i ⟨?_, linked.fd, ?_, ?_⟩,
      delivered.ended, ?_⟩
    · exact sinkType.trans linked.sink
    · intro batch pending
      cases pending
      refine ⟨?_, single⟩
      rw [List.nil_append] at contents
      rw [← lines_sinkLog, ← linked.sink]
      exact contents
    · exact False.elim
    · have nothing : (s.workers i).pending = [] := by
        rw [LogWorker.pending, idle]
        rfl
      refine (List.Perm.append_left _ (List.Perm.map _
        (pending_perm s i records ?_ fun j different =>
          setWorker_other s different _))).trans ?_
      · rw [nothing, List.nil_append]
        exact congrArg LogWorker.pending (setWorker_self ..)
      · rw [List.map_append, List.map_append, ← List.append_assoc,
          ← List.append_assoc]
        exact delivered.lines.append_right _
  · exact delivered

/-! The steps. -/

theorem fd_access {files : FileSystem String} {log : FileLog} {inode : Nat}
    (kept : (log.access files).fd = some inode) : log.fd = some inode := by
  rw [FileLog.access] at kept
  split at kept
  · cases kept
  · exact kept

theorem fd_compareInode {files : FileSystem String} {log : FileLog}
    {inode : Nat} (kept : (log.compareInode files).fd = some inode) :
    log.fd = some inode := by
  unfold FileLog.compareInode at kept
  split at kept
  · cases kept
  · split at kept
    · cases kept
    · exact kept

theorem fd_setDate {date : LocalDate} {log : FileLog} {inode : Nat}
    (kept : (log.setDate date).fd = some inode) : log.fd = some inode := by
  rw [FileLog.setDate] at kept
  split at kept
  · cases kept
  · exact kept

/-- A worker goes on with its batch, and has not opened another file. -/
theorem Linked.goOn {inodes : List Nat} {worker : LogWorker}
    (linked : Linked inodes worker) {log : FileLog} {phase : Phase}
    (kept : ∀ inode, log.fd = some inode → worker.log.fd = some inode)
    (same : phase.batch = worker.phase.batch)
    (opened : phase.IsOpened → log.fd ≠ none) :
    Linked inodes { worker with log, phase } where
  sink := linked.sink
  fd inode found := linked.fd inode (kept inode found)
  batch pending known := linked.batch pending (same ▸ known)
  opened := opened

theorem Linked.reopen {inodes : List Nat} {worker : LogWorker}
    (linked : Linked inodes worker) {batch : Batch} {fd : Option Nat}
    (pending : some batch = worker.phase.batch)
    (opened : ∃ inode, fd = some inode ∧ inode ∈ inodes) :
    Linked inodes
      { worker with
        log := { worker.log with fd }
        phase := .noting batch } := by
  obtain ⟨inode, rfl, member⟩ := opened
  refine ⟨linked.sink, fun other found => ?_, fun other known => ?_, ?_⟩
  · cases found
    exact member
  · exact linked.batch other (pending.symm.trans known)
  · exact fun _ => Option.some_ne_none inode

theorem pending_eq {worker : LogWorker} {batch : Batch}
    (pending : some batch = worker.phase.batch) :
    batch.records = worker.pending := by
  rw [LogWorker.pending, ← pending]

theorem Delivered.goOn {before : List Block} {s : SharedLogs n}
    (delivered : Delivered before s) (i : Fin n) {log : FileLog}
    {phase : Phase}
    (kept : ∀ inode, log.fd = some inode →
      (s.workers i).log.fd = some inode)
    (same : phase.batch = (s.workers i).phase.batch)
    (opened : phase.IsOpened → log.fd ≠ none) :
    Delivered before (s.setWorker i { s.workers i with log, phase }) := by
  refine delivered.setWorker i ((delivered.workers i).goOn kept same opened) ?_
  rw [LogWorker.pending, LogWorker.pending, same]

theorem inodes_openedFiles (allocator : Allocator) (held : List Nat)
    (path : String) (files : FileSystem String) :
    files.inodes ⊆ (openedFiles allocator held path files).inodes := by
  unfold openedFiles
  split
  · exact List.Subset.refl _
  · rename_i free
    rw [FileSystem.inodes_create_of_free free]
    exact List.subset_cons_self _ _

theorem inode_openedFiles (allocator : Allocator) (held : List Nat)
    (path : String) (files : FileSystem String) :
    ∃ inode, (openedFiles allocator held path files).inode path = some inode ∧
      inode ∈ (openedFiles allocator held path files).inodes := by
  have present : ∃ inode,
      (openedFiles allocator held path files).inode path = some inode := by
    unfold openedFiles
    split
    · rename_i inode known
      exact ⟨inode, known⟩
    · exact ⟨_, FileSystem.inode_create ..⟩
  obtain ⟨inode, known⟩ := present
  exact ⟨inode, known, List.mem_map.mpr
    ⟨_, FileSystem.mem_files_of_inode known, rfl⟩⟩

theorem contents_create_self (files : FileSystem String)
    (allocator : Allocator) (held : List Nat) (path : String) :
    (files.create allocator held path []).contents
      (allocator.pick (files.inodes ++ held)) = [] := if_pos rfl

theorem contents_create_other (files : FileSystem String)
    (allocator : Allocator) (held : List Nat) (path : String) {inode : Nat}
    (member : inode ∈ files.inodes) :
    (files.create allocator held path []).contents inode =
      files.contents inode := by
  refine if_neg ?_
  rintro rfl
  exact FileSystem.pick_notMem_inodes allocator held files member

theorem lines_openedFiles (allocator : Allocator) (held : List Nat)
    (path : String) (files : FileSystem String) :
    (openedFiles allocator held path files).inodes.flatMap
        (fileLines (openedFiles allocator held path files)) =
      files.inodes.flatMap (fileLines files) := by
  unfold openedFiles
  split
  · rfl
  · rename_i free
    rw [FileSystem.inodes_create_of_free free, List.flatMap_cons, fileLines,
      contents_create_self]
    refine List.flatMap_congr fun inode member => ?_
    rw [fileLines, fileLines,
      contents_create_other files allocator held path member]

theorem ended_openedFiles (allocator : Allocator) (held : List Nat)
    (path : String) {files : FileSystem String}
    (ended : ∀ inode ∈ files.inodes, Block.Ended (files.contents inode)) :
    ∀ inode ∈ (openedFiles allocator held path files).inodes,
      Block.Ended
        ((openedFiles allocator held path files).contents inode) := by
  unfold openedFiles
  split
  · exact ended
  · rename_i free
    rw [FileSystem.inodes_create_of_free free]
    refine List.forall_mem_cons.mpr ⟨?_, fun inode member => ?_⟩
    · rw [contents_create_self]
      exact Block.ended_nil
    · rw [contents_create_other files allocator held path member]
      exact ended inode member

theorem Delivered.opened {before : List Block} {s : SharedLogs n}
    (delivered : Delivered before s) (allocator : Allocator)
    (held : List Nat) (path : String) :
    Delivered before
      { s with files := openedFiles allocator held path s.files } where
  workers i := (delivered.workers i).mono (inodes_openedFiles ..)
  ended := ended_openedFiles allocator held path delivered.ended
  lines := by
    rw [SharedLogs.lines, lines_openedFiles]
    exact delivered.lines

theorem contents_append_self (files : FileSystem String) (inode : Nat)
    (bytes : Bytes) :
    (files.append inode bytes).contents inode =
      files.contents inode ++ bytes := if_pos rfl

theorem contents_append_other (files : FileSystem String) {inode other : Nat}
    (different : other ≠ inode) (bytes : Bytes) :
    (files.append inode bytes).contents other = files.contents other :=
  if_neg different

theorem lines_append {files : FileSystem String}
    (ended : ∀ inode ∈ files.inodes, Block.Ended (files.contents inode))
    {inode : Nat} (linked : inode ∈ files.inodes) {batch : Batch}
    (joined : Batch.Joined batch) :
    ((files.append inode batch.bytes).inodes.flatMap
        (fileLines (files.append inode batch.bytes))).Perm
      (files.inodes.flatMap (fileLines files) ++
        batch.records.map Record.bytes) := by
  obtain ⟨bytes, single⟩ := joined
  have split : Block.splitLines batch.bytes =
      batch.records.map Record.bytes := by
    rw [bytes]
    refine Block.splitLines_joinLines fun line member => ?_
    obtain ⟨record, within, rfl⟩ := List.mem_map.mp member
    exact single record within
  have extended : fileLines (files.append inode batch.bytes) inode =
      fileLines files inode ++ batch.records.map Record.bytes := by
    rw [fileLines, fileLines, contents_append_self,
      Block.splitLines_append (ended inode linked), split]
  refine flatMap_perm_of_extended files.nodup_inodes linked extended ?_
  intro other _ different
  rw [fileLines, fileLines, contents_append_other files different]

theorem ended_append {files : FileSystem String}
    (ended : ∀ inode ∈ files.inodes, Block.Ended (files.contents inode))
    (inode : Nat) {batch : Batch} (joined : Batch.Joined batch) :
    ∀ other ∈ files.inodes,
      Block.Ended ((files.append inode batch.bytes).contents other) := by
  intro other member
  by_cases same : other = inode
  · subst same
    rw [contents_append_self, joined.1]
    exact Block.ended_append (ended other member) (Block.ended_joinLines _)
  · rw [contents_append_other files same]
    exact ended other member

/-- What a worker writes is no longer pending, but in a file. -/
theorem Delivered.write {before : List Block} {s : SharedLogs n}
    (delivered : Delivered before s) (i : Fin n) {batch : Batch}
    (pending : some batch = (s.workers i).phase.batch) {inode : Nat}
    (opened : (s.workers i).log.fd = some inode) :
    Delivered before
      { s.setWorker i { s.workers i with phase := .idle } with
        files := s.files.append inode batch.bytes } := by
  have linked := delivered.workers i
  have joined := linked.batch batch pending.symm
  have within := linked.fd inode opened
  have idle : Linked s.files.inodes { s.workers i with phase := .idle } :=
    ⟨linked.sink, linked.fd, by simp [Phase.batch], False.elim⟩
  refine ⟨linked_setWorker delivered.workers i idle,
    ended_append delivered.ended inode joined, ?_⟩
  have left : s.pending.Perm
      ((s.setWorker i { s.workers i with phase := .idle }).pending ++
        batch.records) := by
    refine pending_perm _ i batch.records ?_ fun j different =>
      (setWorker_other s different _).symm
    rw [setWorker_self, ← pending_eq pending]
    rfl
  have written := lines_append delivered.ended within joined
  refine (written.append_right _).trans (List.Perm.trans ?_ delivered.lines)
  rw [List.append_assoc]
  refine List.Perm.append_left _ (List.Perm.trans ?_ (left.map _).symm)
  rw [List.map_append]
  exact List.perm_append_comm

theorem Delivered.step {before : List Block} {s : SharedLogs n}
    (delivered : Delivered before s) (allocator : Allocator) (i : Fin n)
    {outcome : Outcome} (succeeds : Succeeds (s.workers i) outcome) :
    Delivered before (s.step allocator i outcome) := by
  have linked := delivered.workers i
  unfold SharedLogs.step
  rw [Succeeds] at succeeds
  dsimp only
  cases phase : (s.workers i).phase with
  | idle => exact delivered
  | accessing batch =>
      rw [phase] at succeeds
      have made : ¬ outcome.fails = true := by simpa using succeeds
      dsimp only
      rw [if_neg made]
      refine delivered.goOn i (fun _ => fd_access) ?_ False.elim
      rw [phase]
      rfl
  | comparing batch =>
      refine delivered.goOn i (fun _ => fd_compareInode) ?_ False.elim
      rw [phase]
      rfl
  | dating batch =>
      refine delivered.goOn i (fun _ => fd_setDate) ?_ False.elim
      rw [phase]
      rfl
  | opening batch =>
      have pending : some batch = (s.workers i).phase.batch := by
        rw [phase]
        rfl
      dsimp only
      cases opened : (s.workers i).log.fd with
      | some inode =>
          exact delivered.goOn i (fun _ same => same) pending
            (by simp [opened])
      | none =>
          rw [phase] at succeeds
          have made : ¬ outcome.fails = true := by simpa using succeeds
          dsimp only
          rw [if_neg made]
          have files := delivered.opened allocator s.held
            (s.workers i).log.realPath
          refine files.setWorker i ((files.workers i).reopen pending
            (inode_openedFiles ..)) (pending_eq pending)
  | noting batch =>
      have opened := linked.opened (by rw [phase]; trivial)
      refine delivered.goOn i (fun _ same => same) ?_ fun _ => opened
      rw [phase]
      rfl
  | writing batch =>
      have pending : some batch = (s.workers i).phase.batch := by
        rw [phase]
        rfl
      rw [phase] at succeeds
      obtain ⟨small, written⟩ := succeeds
      dsimp only
      cases opened : (s.workers i).log.fd with
      | none => exact (linked.opened (by rw [phase]; trivial) opened).elim
      | some inode =>
          have whole : ¬ doubled batch.bytes.length < batch.bytes.length := by
            rw [doubled_eq small]
            omega
          rw [written]
          dsimp only
          rw [if_neg whole, List.take_length]
          exact delivered.write i pending opened

theorem Delivered.rename {before : List Block} {s : SharedLogs n}
    (delivered : Delivered before s) {target : String}
    (free : s.files.inode target = none) (source : String) :
    Delivered before { s with files := s.files.rename source target } := by
  have perm := FileSystem.perm_rename free source
  have contents := FileSystem.contents_rename source target s.files
  have same : fileLines (s.files.rename source target) =
      fileLines s.files := by
    funext inode
    rw [fileLines, fileLines, contents]
  refine ⟨fun i => (delivered.workers i).mono perm.symm.subset,
    fun inode member => ?_, ?_⟩
  · rw [contents]
    exact delivered.ended inode (perm.subset member)
  · rw [SharedLogs.lines, same]
    exact ((perm.flatMap_right _).append_right _).trans delivered.lines

theorem Delivered.next {before : List Block} {s : SharedLogs n}
    (delivered : Delivered before s) (allocator : Allocator) {move : LogMove n}
    (allowed : s.Allowed move) : Delivered before (s.next allocator move) := by
  cases move with
  | flush i fresh records => exact delivered.flush i allowed.1 allowed.2
  | step i outcome => exact delivered.step allocator i allowed
  | rename source target => exact delivered.rename allowed source

/-- All workers were just constructed. -/
structure Started (s : SharedLogs n) : Prop where
  sink : ∀ i, (s.workers i).buffer.sinkType = sinkLog
  closed : ∀ i, (s.workers i).log.fd = none
  idle : ∀ i, (s.workers i).phase = .idle
  ended : ∀ inode ∈ s.files.inodes, Block.Ended (s.files.contents inode)
  none : s.given = []

theorem Started.delivered {s : SharedLogs n} (started : s.Started) :
    Delivered s.lines s where
  workers i :=
    { sink := started.sink i
      fd := by simp [started.closed i]
      batch := by simp [started.idle i, Phase.batch]
      opened := by simp [started.idle i, Phase.IsOpened] }
  ended := started.ended
  lines := by
    have nothing : s.pending = [] := by
      refine List.flatMap_eq_nil_iff.mpr fun i _ => ?_
      rw [LogWorker.pending, started.idle i]
      rfl
    rw [nothing, started.none]

/-- Two workers of one host, and the day on which they start. -/
def firstDay : LocalDate := ⟨2019, 0, by decide⟩

def twoWorkers : SharedLogs 2 where
  files := .empty
  workers _ :=
    { buffer := moChainLogCtor sinkLog spansWrap fun _ => 0
      log := ⟨"log/", logPath "log/" firstDay, 0, none, 0⟩
      phase := .idle }
  given := []

theorem started_twoWorkers : twoWorkers.Started where
  sink _ := rfl
  closed _ := rfl
  idle _ := rfl
  ended := by simp [twoWorkers, FileSystem.inodes, FileSystem.empty]
  none := rfl

def sampleRecord : Record := ⟨[123, 125], by decide⟩

/-- On the first day everything works. -/
def works : Outcome := ⟨firstDay, false, some 3⟩

/-- The first worker writes, the file is renamed, the second writes to a new
one, and the first, whose file is still open, finds that. -/
def rotatedRun : List (LogMove 2) :=
  let first : Fin 2 := ⟨0, Nat.two_pos⟩
  let second : Fin 2 := ⟨1, Nat.one_lt_two⟩
  .flush first (fun _ _ => 0) [sampleRecord] ::
    .flush second (fun _ _ => 0) [sampleRecord] ::
      (List.replicate 6 (.step first works) ++
        .rename (logPath "log/" firstDay) "log/old" ::
          (List.replicate 6 (.step second works) ++
            .flush first (fun _ _ => 0) [sampleRecord, sampleRecord] ::
              List.replicate 2 (.step first works)))

/-- The `lstat` behind an `open` finds the file that was opened. -/
def NotesOpened (s : SharedLogs n) : LogMove n → Prop
  | .step i _ =>
      match (s.workers i).phase with
      | .noting _ =>
          s.files.inode (s.workers i).log.realPath = (s.workers i).log.fd
      | _ => True
  | _ => True

/-- The check with `lstat` keeps a descriptor for the file that the path stands
for, and no other one. -/
def FollowsPath (s : SharedLogs n) : LogMove n → Prop
  | .step i _ =>
      match (s.workers i).phase with
      | .comparing _ =>
          ((s.workers i).log.compareInode s.files).fd =
            if s.files.inode (s.workers i).log.realPath =
              (s.workers i).log.fd then (s.workers i).log.fd else none
      | _ => True
  | _ => True

/-- Apart from between an `open` and the `lstat` behind it, the number that is
kept is that of the open file. -/
def Noted (worker : LogWorker) : Prop :=
  (∀ batch, worker.phase ≠ .noting batch) →
    ∀ inode, worker.log.fd = some inode → worker.log.ino = inode

theorem compareInode_eq {files : FileSystem String} {log : FileLog}
    (noted : ∀ inode, log.fd = some inode → log.ino = inode) :
    (log.compareInode files).fd =
      if files.inode log.realPath = log.fd then log.fd else none := by
  unfold FileLog.compareInode
  cases fd : log.fd with
  | none =>
      split
      · simp [FileLog.close]
      · split <;> simp [FileLog.close, fd]
  | some inode =>
      have same := noted inode fd
      split
      · rename_i absent
        simp [FileLog.close, absent]
      · rename_i ino present
        by_cases equal : ino = log.ino
        · simp [present, equal, same, fd]
        · have different : ino ≠ inode := same ▸ equal
          simp [present, equal, different, FileLog.close]

theorem noted_setWorker {s : SharedLogs n}
    (noted : ∀ j, Noted (s.workers j)) (i : Fin n) {worker : LogWorker}
    (own : Noted worker) (j : Fin n) :
    Noted ((s.setWorker i worker).workers j) := by
  by_cases same : j = i
  · subst same
    rw [setWorker_self]
    exact own
  · rw [setWorker_other s same]
    exact noted j

theorem ino_compareInode (files : FileSystem String) (log : FileLog) :
    (log.compareInode files).ino = log.ino := by
  unfold FileLog.compareInode
  split
  · rfl
  · split <;> rfl

theorem noted_step (allocator : Allocator) {s : SharedLogs n}
    (noted : ∀ j, Noted (s.workers j)) (i : Fin n) (outcome : Outcome)
    (notes : s.NotesOpened (.step i outcome)) (j : Fin n) :
    Noted ((s.step allocator i outcome).workers j) := by
  have own := noted i
  have left : (∀ batch, (s.workers i).phase ≠ .noting batch) →
      Noted { s.workers i with phase := .idle } := fun other _ => own other
  unfold SharedLogs.step
  dsimp only
  cases phase : (s.workers i).phase with
  | idle => exact noted j
  | accessing batch =>
      dsimp only
      split
      · exact noted_setWorker noted i (left (by simp [phase])) j
      · refine noted_setWorker noted i (fun _ inode found => ?_) j
        have open_on := fd_access found
        have kept := own (by simp [phase]) inode open_on
        have ino : ((s.workers i).log.access s.files).ino =
            (s.workers i).log.ino := by
          rw [FileLog.access]
          split <;> rfl
        exact ino.trans kept
  | comparing batch =>
      refine noted_setWorker noted i (fun _ inode found => ?_) j
      rw [ino_compareInode]
      exact own (by simp [phase]) inode (fd_compareInode found)
  | dating batch =>
      refine noted_setWorker noted i (fun _ inode found => ?_) j
      have kept := own (by simp [phase]) inode (fd_setDate found)
      have ino : ((s.workers i).log.setDate outcome.date).ino =
          (s.workers i).log.ino := by
        rw [FileLog.setDate]
        split <;> rfl
      exact ino.trans kept
  | opening batch =>
      dsimp only
      cases opened : (s.workers i).log.fd with
      | some inode =>
          refine noted_setWorker noted i (fun _ => ?_) j
          exact own (by simp [phase])
      | none =>
          dsimp only
          split
          · exact noted_setWorker noted i (left (by simp [phase])) j
          · refine noted_setWorker noted i (fun other => ?_) j
            exact (other batch rfl).elim
  | noting batch =>
      refine noted_setWorker noted i (fun _ inode found => ?_) j
      rw [NotesOpened, phase] at notes
      dsimp only at notes
      have known := notes.trans found
      rw [FileLog.noteInode, known]
      rfl
  | writing batch =>
      have idle := noted_setWorker noted i (left (by simp [phase])) j
      dsimp only
      cases opened : (s.workers i).log.fd with
      | none => exact idle
      | some inode =>
          cases written : outcome.written with
          | none => exact idle
          | some count =>
              by_cases short : doubled count < batch.bytes.length
              · simp only [if_pos short]
                exact noted j
              · simp only [if_neg short]
                exact idle

/-- Whatever the order of the system calls and the renames: as long as every
`lstat` behind an `open` finds the file that was opened, each check tells
whether the path still stands for the open file. -/
theorem follows_of_notes (allocator : Allocator) {s : SharedLogs n}
    (started : s.Started) {moves : List (LogMove n)}
    (notes : Along (next allocator) NotesOpened s moves) :
    Along (next allocator) FollowsPath s moves := by
  refine along_of_along (fun s' => ∀ j, Noted (s'.workers j)) ?_ ?_ ?_ notes
  · intro s' move noted _
    cases move with
    | flush i fresh records => trivial
    | rename source target => trivial
    | step i outcome =>
        rw [FollowsPath]
        split
        · rename_i batch phase
          exact compareInode_eq (noted i (by simp [phase]))
        · trivial
  · intro s' move noted notes
    cases move with
    | flush i fresh records =>
        change ∀ j, Noted ((s'.flush i fresh records).workers j)
        rw [SharedLogs.flush]
        split
        · rename_i idle
          refine noted_setWorker noted i fun _ => ?_
          exact noted i (by simp [idle])
        · exact noted
    | rename source target => exact noted
    | step i outcome => exact noted_step allocator noted i outcome notes
  · intro j _ inode found
    rw [started.closed j] at found
    cases found

theorem follows_rotatedRun :
    ((rotatedRun.foldl (next .next) twoWorkers).workers 0).log.fd = none ∧
      Along (next .next) FollowsPath twoWorkers rotatedRun := by
  refine ⟨rfl, follows_of_notes .next started_twoWorkers ?_⟩
  exact ⟨trivial, trivial, trivial, trivial, trivial, trivial, rfl, trivial,
    trivial, trivial, trivial, trivial, trivial, rfl, trivial, trivial,
    trivial, trivial, trivial⟩

end SharedLogs

end Molten.Log
