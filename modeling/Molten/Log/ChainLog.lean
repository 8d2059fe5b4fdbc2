import Mathlib.Data.Nat.Notation

namespace Molten.Log

/-! The record buffer of a worker, and the sink behind it. -/

abbrev Bytes := List UInt8

/-- The bytes from the start of a block on, its own and those behind it. -/
abbrev Memory := Nat → UInt8

def allocLogSize : Nat := 1024

def sinkLog : Nat := 1
def sinkStd : Nat := 2
def sinkHttp : Nat := 4
def sinkSyslog : Nat := 8

def spansWrap : Nat := 1
def spansBreak : Nat := 2

/-- `mo_chain_log_t`, without the spans. -/
structure ChainLog where
  sinkType : Nat
  outputType : Nat
  buf : Memory
  totalSize : Nat
  allocSize : Nat

/-! Memory. -/

/-- What `strncpy` stores when it is given the size of `bytes`: zeros from the
first NUL on. -/
def strncpy (bytes : Bytes) : Bytes :=
  let text := bytes.takeWhile (· != 0)
  text ++ List.replicate (bytes.length - text.length) 0

def Memory.store (start : Nat) (bytes : Bytes) (memory : Memory) : Memory :=
  fun i => if i < start then memory i else bytes.getD (i - start) (memory i)

/-- `fresh` is what the new block of the given size holds behind the bytes that
are kept. -/
def perealloc (fresh : Nat → Memory) (oldSize newSize : Nat)
    (memory : Memory) : Memory :=
  fun i => if i < min oldSize newSize then memory i else fresh newSize i

/-! The operations on the buffer. -/

/-- `mo_chain_log_init`, less the empty span list. -/
def moChainLogInit (log : ChainLog) : ChainLog :=
  { log with
    buf := log.buf.store 0 (List.replicate log.totalSize 0)
    allocSize := 0 }

def ensureSize (fresh : Nat → Memory) (size : Nat) (log : ChainLog) :
    ChainLog :=
  if log.totalSize + 1 ≤ log.allocSize + size then
    let reallocSize :=
      log.allocSize + (size / allocLogSize + 1) * allocLogSize
    { log with
      buf := perealloc fresh log.totalSize reallocSize log.buf
      totalSize := reallocSize }
  else log

def ChainLog.append (bytes : Bytes) (log : ChainLog) : ChainLog :=
  { log with
    buf := log.buf.store log.allocSize (strncpy bytes)
    allocSize := log.allocSize + bytes.length }

def moChainLogAdd (fresh : Nat → Memory) (record : Bytes) (log : ChainLog) :
    ChainLog :=
  let log := (ensureSize fresh record.length log).append record
  if log.sinkType ≤ sinkStd then log.append [10] else log

def ChainLog.contents (log : ChainLog) : Bytes :=
  (List.range log.allocSize).map log.buf

/-! The sink. -/

inductive Origin
  | spanLog
  | report
  deriving DecidableEq, Repr

/-- Bytes handed to a sink. -/
structure SinkWrite where
  origin : Origin
  bytes : Bytes
  deriving DecidableEq, Repr

/-- Every call that reaches a sink is listed, also when the sink then fails. -/
def moLogWrite (log : ChainLog) (origin : Origin) (bytes : Bytes)
    (sink : List SinkWrite) : List SinkWrite :=
  if log.sinkType ∈ [sinkStd, sinkLog, sinkSyslog, sinkHttp] then
    sink ++ [⟨origin, bytes⟩]
  else sink

/-- `json_encode` of the spans of a request, whose main span carries the
errors: one by one, or all at once.  `none` where it fails. -/
structure Encoder (α : Type) where
  each : List String → List α → List (Option Bytes)
  all : List String → List α → Option Bytes

def Encoder.records {α : Type} (encoder : Encoder α) (outputType : Nat)
    (errors : List String) (spans : List α) : List (Option Bytes) :=
  if outputType = spansBreak then encoder.each errors spans
  else if outputType = spansWrap then [encoder.all errors spans]
  else []

/-- Adds records up to the first that was not encoded.  The exit tells whether
there was none. -/
def addRecords (fresh : Nat → Memory) :
    List (Option Bytes) → ChainLog → ChainLog × Bool
  | [], log => (log, true)
  | none :: _, log => (log, false)
  | some record :: records, log =>
      addRecords fresh records (moChainLogAdd fresh record log)

def moChainLogFlush (fresh : Nat → Memory) (records : List (Option Bytes))
    (log : ChainLog) (sink : List SinkWrite) : ChainLog × List SinkWrite :=
  match addRecords fresh records log with
  | (log, true) => (log, moLogWrite log .spanLog log.contents sink)
  | (log, false) => (log, sink)

/-- Nothing but reports was written. -/
def OnlyReports (before after : List SinkWrite) : Prop :=
  ∃ writes, after = before ++ writes ∧
    ∀ write ∈ writes, write.origin = .report

theorem OnlyReports.refl (sink : List SinkWrite) : OnlyReports sink sink :=
  ⟨[], (List.append_nil sink).symm, by simp⟩

theorem OnlyReports.trans {first second third : List SinkWrite}
    (h : OnlyReports first second) (h' : OnlyReports second third) :
    OnlyReports first third := by
  obtain ⟨writes, rfl, hwrites⟩ := h
  obtain ⟨writes', rfl, hwrites'⟩ := h'
  refine ⟨writes ++ writes', List.append_assoc .., fun write hwrite => ?_⟩
  exact (List.mem_append.mp hwrite).elim (hwrites write) (hwrites' write)

theorem onlyReports_moLogWrite (log : ChainLog) (bytes : Bytes)
    (sink : List SinkWrite) :
    OnlyReports sink (moLogWrite log .report bytes sink) := by
  unfold moLogWrite
  split
  · exact ⟨_, rfl, by simp⟩
  · exact .refl sink

end Molten.Log
