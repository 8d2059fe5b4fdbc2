import Molten.Control.Machine
import Molten.Log.ChainLog
import Molten.Text.Block

namespace Molten.Log

open Molten.Control Molten.Text

/-! What the record buffer holds between its initialization and its write. -/

structure Record where
  bytes : Bytes
  noNul : (0 : UInt8) ∉ bytes

theorem strncpy_eq_self {bytes : Bytes} (h : (0 : UInt8) ∉ bytes) :
    strncpy bytes = bytes := by
  simp [strncpy, Block.takeWhile_absent h]

theorem Memory.store_of_lt {start : Nat} {bytes : Bytes} {memory : Memory}
    {i : Nat} (h : i < start) : memory.store start bytes i = memory i :=
  if_pos h

theorem Memory.store_add {start : Nat} {bytes : Bytes} {memory : Memory}
    (i : Nat) : memory.store start bytes (start + i) =
      bytes.getD i (memory (start + i)) := by
  rw [Memory.store, if_neg (by omega), Nat.add_sub_cancel_left]

theorem Memory.store_of_le {start : Nat} {bytes : Bytes} {memory : Memory}
    {i : Nat} (h : start + bytes.length ≤ i) :
    memory.store start bytes i = memory i := by
  obtain ⟨j, rfl⟩ := Nat.exists_eq_add_of_le (Nat.le_of_add_right_le h)
  rw [store_add, List.getD_eq_getElem?_getD,
    List.getElem?_eq_none (by omega), Option.getD_none]

theorem Memory.map_range_store (start : Nat) (bytes : Bytes)
    (memory : Memory) :
    (List.range (start + bytes.length)).map (memory.store start bytes) =
      (List.range start).map memory ++ bytes := by
  rw [List.range_add, List.map_append, List.map_map]
  congr 1
  · apply List.map_congr_left
    intro i hi
    exact store_of_lt (List.mem_range.mp hi)
  · refine List.ext_getElem (by simp) fun i hi hi' => ?_
    simp [store_add, List.getElem?_eq_getElem hi']

/-! The calls, with the bytes that each stores. -/

/-- The indices from the start of the buffer at which `append` stores. -/
def ChainLog.appendIndices (bytes : Bytes) (log : ChainLog) : List Nat :=
  (List.range bytes.length).map (log.allocSize + ·)

def addIndices (fresh : Nat → Memory) (record : Bytes) (log : ChainLog) :
    List Nat :=
  let log := ensureSize fresh record.length log
  if log.sinkType ≤ sinkStd then
    log.appendIndices record ++ (log.append record).appendIndices [10]
  else log.appendIndices record

/-- `realloc_size` as an `int` has room for the new size. -/
def ReallocFits (log : ChainLog) (size : Nat) : Prop :=
  log.totalSize + 1 ≤ log.allocSize + size →
    log.allocSize + (size / allocLogSize + 1) * allocLogSize < 2 ^ 31

instance (log : ChainLog) (size : Nat) : Decidable (ReallocFits log size) :=
  inferInstanceAs (Decidable (_ → _))

/-- A record of the size leaves a place for the newline that the sink wants, and
its new size is an `int`. -/
def RoomFor (size : Nat) (log : ChainLog) : Prop :=
  ¬ (log.sinkType ≤ sinkStd ∧ log.allocSize + size = log.totalSize) ∧
    ReallocFits log size

instance (size : Nat) (log : ChainLog) : Decidable (RoomFor size log) :=
  inferInstanceAs (Decidable (_ ∧ _))

/-- Each of the records that are added leaves room. -/
def LeaveRoom (fresh : Nat → Memory) : List (Option Bytes) → ChainLog → Prop
  | some record :: records, log =>
      RoomFor record.length log ∧
        LeaveRoom fresh records (moChainLogAdd fresh record log)
  | _, _ => True

inductive BufferCall
  | init
  | add (fresh : Nat → Memory) (record : Record)

/-- The buffer, and the records added since the last `mo_chain_log_init`. -/
structure Buffer where
  log : ChainLog
  added : List Record

namespace BufferCall

/-- `none` once `realloc_size` overflows. -/
def next (buffer : Option Buffer) (call : BufferCall) : Option Buffer := do
  let ⟨log, added⟩ ← buffer
  match call with
  | .init => return ⟨moChainLogInit log, []⟩
  | .add fresh record =>
      if ReallocFits log record.bytes.length then
        return ⟨moChainLogAdd fresh record.bytes log, added ++ [record]⟩
      else none

def indices (log : ChainLog) : BufferCall → List Nat
  | .init => []
  | .add fresh record => addIndices fresh record.bytes log

end BufferCall

def moChainLogCtor (sinkType outputType : Nat) (memory : Memory) : ChainLog :=
  { sinkType, outputType, buf := memory
    totalSize := allocLogSize, allocSize := 0 }

/-- The records one after the other, each with a newline for a file or the
standard output. -/
def lines (sinkType : Nat) (records : List Record) : Bytes :=
  records.flatMap fun record =>
    if sinkType ≤ sinkStd then record.bytes ++ [10] else record.bytes

structure Buffer.Sound (buffer : Buffer) : Prop where
  allocSize_le : buffer.log.allocSize ≤ buffer.log.totalSize
  contents : buffer.log.contents = lines buffer.log.sinkType buffer.added

/-- The call stores nothing outside the buffer, and leaves it as it should. -/
def CallSound (buffer : Option Buffer) (call : BufferCall) : Prop :=
  ∃ before after, buffer = some before ∧
    BufferCall.next (some before) call = some after ∧
    (∀ i ∈ call.indices before.log, i < after.log.totalSize) ∧ after.Sound

def LeavesRoom (buffer : Option Buffer) (call : BufferCall) : Prop :=
  match buffer, call with
  | some ⟨log, _⟩, .add _ record => RoomFor record.bytes.length log
  | _, _ => True

theorem contents_append {bytes : Bytes} (h : (0 : UInt8) ∉ bytes)
    (log : ChainLog) : (log.append bytes).contents = log.contents ++ bytes := by
  rw [ChainLog.contents, ChainLog.append, strncpy_eq_self h]
  exact Memory.map_range_store ..

theorem contents_ensureSize (fresh : Nat → Memory) (size : Nat)
    {log : ChainLog} (h : log.allocSize ≤ log.totalSize) :
    (ensureSize fresh size log).contents = log.contents := by
  rw [ensureSize]
  split
  · refine List.map_congr_left fun i hi => if_pos ?_
    have hlt : i < log.allocSize := List.mem_range.mp hi
    exact lt_min (hlt.trans_le h) (Nat.lt_add_right _ hlt)
  · rfl

theorem ensureSize_of_le (fresh : Nat → Memory) {size : Nat} {log : ChainLog}
    (h : log.allocSize + size ≤ log.totalSize) :
    ensureSize fresh size log = log :=
  if_neg (by omega)

@[simp] theorem ensureSize_allocSize (fresh : Nat → Memory) (size : Nat)
    (log : ChainLog) :
    (ensureSize fresh size log).allocSize = log.allocSize := by
  rw [ensureSize]
  split <;> rfl

@[simp] theorem ensureSize_sinkType (fresh : Nat → Memory) (size : Nat)
    (log : ChainLog) :
    (ensureSize fresh size log).sinkType = log.sinkType := by
  rw [ensureSize]
  split <;> rfl

theorem le_totalSize_ensureSize (fresh : Nat → Memory) (size : Nat)
    (log : ChainLog) :
    log.allocSize + size ≤ (ensureSize fresh size log).totalSize ∧
      (log.allocSize + size = (ensureSize fresh size log).totalSize ↔
        log.allocSize + size = log.totalSize) := by
  rw [ensureSize]
  split
  · have := Nat.lt_div_mul_add (a := size) (b := allocLogSize) (by decide)
    simp only [Nat.add_mul, Nat.one_mul]
    omega
  · omega

@[simp] theorem append_allocSize (bytes : Bytes) (log : ChainLog) :
    (log.append bytes).allocSize = log.allocSize + bytes.length := rfl

@[simp] theorem append_totalSize (bytes : Bytes) (log : ChainLog) :
    (log.append bytes).totalSize = log.totalSize := rfl

@[simp] theorem append_sinkType (bytes : Bytes) (log : ChainLog) :
    (log.append bytes).sinkType = log.sinkType := rfl

section Add

variable (fresh : Nat → Memory) (record : Bytes) (log : ChainLog)

theorem moChainLogAdd_totalSize :
    (moChainLogAdd fresh record log).totalSize =
      (ensureSize fresh record.length log).totalSize := by
  rw [moChainLogAdd]
  split <;> rfl

theorem moChainLogAdd_sinkType :
    (moChainLogAdd fresh record log).sinkType = log.sinkType := by
  rw [moChainLogAdd]
  split <;> simp

theorem moChainLogAdd_allocSize :
    (moChainLogAdd fresh record log).allocSize =
      log.allocSize + record.length + if log.sinkType ≤ sinkStd then 1 else 0 := by
  by_cases hsink : log.sinkType ≤ sinkStd <;> simp [moChainLogAdd, hsink]

theorem mem_addIndices (i : Nat) : i ∈ addIndices fresh record log ↔
    log.allocSize ≤ i ∧ i < (moChainLogAdd fresh record log).allocSize := by
  rw [moChainLogAdd_allocSize]
  by_cases hsink : log.sinkType ≤ sinkStd
  · simp only [addIndices, ChainLog.appendIndices, ensureSize_sinkType, hsink,
      if_true, List.mem_append, List.mem_map, List.mem_range,
      ensureSize_allocSize, append_allocSize, List.length_singleton]
    constructor
    · rintro (⟨j, hj, rfl⟩ | ⟨j, hj, rfl⟩) <;> omega
    · intro hi
      by_cases hlt : i - log.allocSize < record.length
      · exact .inl ⟨i - log.allocSize, hlt, by omega⟩
      · exact .inr ⟨0, Nat.one_pos, by omega⟩
  · simp only [addIndices, ChainLog.appendIndices, ensureSize_sinkType, hsink,
      if_false, List.mem_map, List.mem_range, ensureSize_allocSize]
    constructor
    · rintro ⟨j, hj, rfl⟩
      omega
    · exact fun hi => ⟨i - log.allocSize, by omega, by omega⟩

theorem moChainLogAdd_allocSize_le :
    (moChainLogAdd fresh record log).allocSize ≤
        (moChainLogAdd fresh record log).totalSize ↔
      ¬ (log.sinkType ≤ sinkStd ∧
        log.allocSize + record.length = log.totalSize) := by
  obtain ⟨hroom, hexact⟩ := le_totalSize_ensureSize fresh record.length log
  rw [moChainLogAdd_allocSize, moChainLogAdd_totalSize, ← hexact]
  split <;> omega

theorem contents_moChainLogAdd {record : Record}
    (hlog : log.allocSize ≤ log.totalSize) :
    (moChainLogAdd fresh record.bytes log).contents =
      log.contents ++ lines log.sinkType [record] := by
  have hnewline : (0 : UInt8) ∉ [(10 : UInt8)] := by decide
  by_cases hsink : log.sinkType ≤ sinkStd
  · simp only [moChainLogAdd, append_sinkType, ensureSize_sinkType, hsink,
      if_true, contents_append hnewline, contents_append record.noNul,
      contents_ensureSize fresh _ hlog, lines, List.flatMap_singleton,
      List.append_assoc]
  · simp only [moChainLogAdd, append_sinkType, ensureSize_sinkType, hsink,
      if_false, contents_append record.noNul,
      contents_ensureSize fresh _ hlog, lines, List.flatMap_singleton]

end Add

theorem Buffer.Sound.add {log : ChainLog} {added : List Record}
    (hbuffer : Buffer.Sound ⟨log, added⟩) {fresh : Nat → Memory}
    {record : Record}
    (hroom : ¬ (log.sinkType ≤ sinkStd ∧
      log.allocSize + record.bytes.length = log.totalSize)) :
    Buffer.Sound
      ⟨moChainLogAdd fresh record.bytes log, added ++ [record]⟩ where
  allocSize_le := (moChainLogAdd_allocSize_le ..).mpr hroom
  contents := by
    have hcontents : log.contents = lines log.sinkType added :=
      hbuffer.contents
    rw [contents_moChainLogAdd fresh log hbuffer.allocSize_le, hcontents,
      moChainLogAdd_sinkType, lines, lines, lines, List.flatMap_append]

theorem callSound_iff {buffer : Buffer} (hbuffer : buffer.Sound)
    (call : BufferCall) :
    CallSound (some buffer) call ↔ LeavesRoom (some buffer) call := by
  obtain ⟨log, added⟩ := buffer
  cases call with
  | init =>
      refine iff_of_true ⟨_, _, rfl, rfl, by simp [BufferCall.indices], ?_⟩
        trivial
      exact ⟨Nat.zero_le _, rfl⟩
  | add fresh record =>
      constructor
      · rintro ⟨_, after, hbefore, hnext, -, hafter⟩
        obtain rfl := Option.some.inj hbefore
        by_cases hfits : ReallocFits log record.bytes.length
        · obtain rfl : ⟨moChainLogAdd fresh record.bytes log,
              added ++ [record]⟩ = after := by
            simpa [BufferCall.next, hfits] using hnext
          exact ⟨(moChainLogAdd_allocSize_le ..).mp hafter.allocSize_le, hfits⟩
        · simp [BufferCall.next, hfits] at hnext
      · rintro ⟨hroom, hfits⟩
        refine ⟨_, ⟨moChainLogAdd fresh record.bytes log, added ++ [record]⟩,
          rfl, by simp [BufferCall.next, hfits], ?_, hbuffer.add hroom⟩
        intro i hi
        exact ((mem_addIndices ..).mp hi).2.trans_le
          ((moChainLogAdd_allocSize_le ..).mpr hroom)

/-- Over any calls of a worker the buffer is as it should be as long as each
record leaves room. -/
theorem moChainLogAdd_sound_iff (sinkType outputType : Nat) (memory : Memory)
    (calls : List BufferCall) :
    Along BufferCall.next CallSound
        (some ⟨moChainLogCtor sinkType outputType memory, []⟩) calls ↔
      Along BufferCall.next LeavesRoom
        (some ⟨moChainLogCtor sinkType outputType memory, []⟩) calls := by
  refine along_congr (fun buffer => ∃ sound, buffer = some sound ∧ sound.Sound)
    ?_ ?_ ⟨_, rfl, Nat.zero_le _, rfl⟩ calls
  · rintro _ call ⟨buffer, rfl, hbuffer⟩
    exact callSound_iff hbuffer call
  · rintro _ call ⟨buffer, rfl, hbuffer⟩ ⟨_, after, hbefore, hnext, -, hafter⟩
    obtain rfl := Option.some.inj hbefore
    exact ⟨after, hnext, hafter⟩

/-- A first record as long as the buffer, for a file. -/
theorem not_callSound_exact_fit :
    ¬ Along BufferCall.next CallSound
      (some ⟨moChainLogCtor sinkLog spansWrap (fun _ => 0), []⟩)
      [.add (fun _ _ => 0)
        ⟨List.replicate allocLogSize 65, by simp⟩] := by
  intro hrun
  have hroom := (callSound_iff ⟨Nat.zero_le _, rfl⟩ _).mp hrun.1
  exact hroom.1 ⟨by decide, by simp [moChainLogCtor, sinkLog]⟩

end Molten.Log
