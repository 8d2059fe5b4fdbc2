import Molten.Log.Buffer

namespace Molten.Log

open Molten.Control Molten.Text

/-! The body that the HTTP sink posts: the buffer as a C string, without its
length. -/

/-- `CURLOPT_POSTFIELDS` up to the first NUL, or `none` where the buffer has
no NUL and what is behind it is read as well. -/
def postedBody (log : ChainLog) : Option Bytes :=
  let bytes := (List.range log.totalSize).map log.buf
  if 0 ∈ bytes then some (bytes.takeWhile (· != 0)) else none

/-- The records of a request, each with what a new block then holds. -/
abbrev HttpRequest := List (Record × (Nat → Memory))

def recordsOf (request : HttpRequest) : List Record :=
  request.map Prod.fst

def addAll (log : ChainLog) (request : HttpRequest) : ChainLog :=
  request.foldl (fun log add => moChainLogAdd add.2 add.1.bytes log) log

def fillRequest (log : ChainLog) (request : HttpRequest) : ChainLog :=
  addAll (moChainLogInit log) request

/-- The request posts the bytes it added, and no others. -/
def PostsBody (log : ChainLog) (request : HttpRequest) : Prop :=
  postedBody (fillRequest log request) = some (fillRequest log request).contents

def recordsSize : List Record → Nat
  | [] => 0
  | record :: records => record.bytes.length + recordsSize records

/-- In every request of the run, whatever new memory holds. -/
def PostsBodies (outputType : Nat) (memory : Memory)
    (requests : List (List Record)) : Prop :=
  ∀ run : List HttpRequest, run.map recordsOf = requests →
    Along fillRequest PostsBody (moChainLogCtor sinkHttp outputType memory) run

theorem moChainLogAdd_http {log : ChainLog} (hsink : log.sinkType = sinkHttp)
    (fresh : Nat → Memory) (bytes : Bytes) :
    moChainLogAdd fresh bytes log =
      (ensureSize fresh bytes.length log).append bytes := by
  have hnot : ¬ log.sinkType ≤ sinkStd := by
    rw [hsink]
    decide
  simp [moChainLogAdd, hnot]

theorem noNul_contents_iff (log : ChainLog) : (0 : UInt8) ∉ log.contents ↔
    ∀ i < log.allocSize, log.buf i ≠ 0 := by
  simp [ChainLog.contents]

/-! Records that fit. -/

/-- The bytes added, and zeros up to the end of the buffer. -/
structure Zeroed (log : ChainLog) : Prop where
  sinkType : log.sinkType = sinkHttp
  allocSize_le : log.allocSize ≤ log.totalSize
  noNul : (0 : UInt8) ∉ log.contents
  zero : ∀ i, log.allocSize ≤ i → i < log.totalSize → log.buf i = 0

theorem Zeroed.init {log : ChainLog} (hsink : log.sinkType = sinkHttp) :
    Zeroed (moChainLogInit log) where
  sinkType := hsink
  allocSize_le := Nat.zero_le _
  noNul := by simp [moChainLogInit, ChainLog.contents]
  zero i _ hi := by
    have hi' : i < log.totalSize := hi
    simp [moChainLogInit, Memory.store, hi']

theorem Zeroed.add {log : ChainLog} (hlog : Zeroed log) {record : Record}
    (hfits : log.allocSize + record.bytes.length ≤ log.totalSize) :
    Zeroed (log.append record.bytes) where
  sinkType := hlog.sinkType
  allocSize_le := hfits
  noNul := by
    rw [contents_append record.noNul, List.mem_append, not_or]
    exact ⟨hlog.noNul, record.noNul⟩
  zero i hi hi' := by
    have hlen : (strncpy record.bytes).length = record.bytes.length := by
      rw [strncpy_eq_self record.noNul]
    have hbuf : (log.append record.bytes).buf i = log.buf i :=
      Memory.store_of_le (by rwa [hlen])
    rw [hbuf]
    exact hlog.zero i (Nat.le_of_add_right_le hi) hi'

theorem Zeroed.postedBody {log : ChainLog} (hlog : Zeroed log)
    (hlt : log.allocSize < log.totalSize) :
    postedBody log = some log.contents := by
  obtain ⟨rest, hrest⟩ := Nat.exists_eq_add_of_lt hlt
  have hnul : log.buf log.allocSize = 0 := hlog.zero _ le_rfl hlt
  have hbytes : (List.range log.totalSize).map log.buf = log.contents ++
      0 :: (List.range rest).map fun i => log.buf (log.allocSize + 1 + i) := by
    rw [hrest, Nat.add_right_comm, List.range_add, List.range_succ]
    simp [ChainLog.contents, hnul]
  rw [Log.postedBody, hbytes, Block.takeWhile_append_stop hlog.noNul]
  exact if_pos (by simp)

/-! Records that do not. -/

structure Full (log : ChainLog) : Prop where
  sinkType : log.sinkType = sinkHttp
  allocSize_le : log.allocSize ≤ log.totalSize
  ne_zero : ∀ i, i < log.totalSize → log.buf i ≠ 0

theorem Full.postedBody {log : ChainLog} (hlog : Full log) :
    postedBody log = none := by
  apply if_neg
  simp only [List.mem_map, List.mem_range, not_exists, not_and]
  exact hlog.ne_zero

theorem Full.of_zeroed {log : ChainLog} (hlog : Zeroed log)
    (hle : log.totalSize ≤ log.allocSize) : Full log where
  sinkType := hlog.sinkType
  allocSize_le := hlog.allocSize_le
  ne_zero i hi :=
    (noNul_contents_iff log).mp hlog.noNul i (hi.trans_le hle)

def noise : Nat → Memory := fun _ _ => 65

theorem ensureSize_buf_of_lt (fresh : Nat → Memory) (size : Nat)
    {log : ChainLog} {i : Nat} (h : i < log.totalSize) :
    (ensureSize fresh size log).buf i = log.buf i := by
  have hroom := (le_totalSize_ensureSize fresh size log).1
  rw [ensureSize] at hroom ⊢
  split
  · rename_i hgrow
    simp only [if_pos hgrow] at hroom
    exact if_pos (Nat.lt_min.mpr ⟨h, by omega⟩)
  · rfl

theorem ensureSize_buf_of_le {size : Nat} {log : ChainLog} {i : Nat}
    (h : log.totalSize ≤ i)
    (hi : i < (ensureSize noise size log).totalSize) :
    (ensureSize noise size log).buf i = 65 := by
  rw [ensureSize] at hi ⊢
  split at hi
  · rename_i hgrow
    rw [if_pos hgrow]
    exact if_neg fun hlt => Nat.not_lt.mpr h (Nat.lt_min.mp hlt).1
  · exact absurd hi (Nat.not_lt.mpr h)

theorem Full.add {log : ChainLog} (hsink : log.sinkType = sinkHttp)
    {record : Record} (hbefore : ∀ i < log.allocSize, log.buf i ≠ 0)
    (hle : log.allocSize ≤ log.totalSize)
    (hbehind : ∀ i, log.allocSize + record.bytes.length ≤ i →
      i < log.totalSize → log.buf i ≠ 0) :
    Full (moChainLogAdd noise record.bytes log) := by
  rw [moChainLogAdd_http hsink]
  let grown := ensureSize noise record.bytes.length log
  have halloc : grown.allocSize = log.allocSize := ensureSize_allocSize ..
  have hbytes : (0 : UInt8) ∉ (grown.append record.bytes).contents := by
    rw [contents_append record.noNul, contents_ensureSize _ _ hle,
      List.mem_append, not_or]
    exact ⟨(noNul_contents_iff log).mpr hbefore, record.noNul⟩
  refine ⟨(ensureSize_sinkType ..).trans hsink, ?_, fun i hi => ?_⟩
  · simpa using (le_totalSize_ensureSize noise record.bytes.length log).1
  obtain hlt | hge := Nat.lt_or_ge i (log.allocSize + record.bytes.length)
  · refine (noNul_contents_iff _).mp hbytes i ?_
    rwa [append_allocSize, halloc]
  · have hbuf : (grown.append record.bytes).buf i = grown.buf i := by
      apply Memory.store_of_le
      rwa [strncpy_eq_self record.noNul, halloc]
    rw [hbuf]
    obtain hold | hnew := Nat.lt_or_ge i log.totalSize
    · rw [ensureSize_buf_of_lt noise _ hold]
      exact hbehind i hge hold
    · rw [ensureSize_buf_of_le hnew hi]
      decide

/-! A request. -/

@[simp] theorem recordsSize_cons (record : Record) (records : List Record) :
    recordsSize (record :: records) =
      record.bytes.length + recordsSize records := rfl

theorem Zeroed.addAll {request : HttpRequest} {log : ChainLog}
    (hlog : Zeroed log)
    (hfits : log.allocSize + recordsSize (recordsOf request) ≤ log.totalSize) :
    Zeroed (addAll log request) ∧
      (addAll log request).totalSize = log.totalSize ∧
      (addAll log request).allocSize =
        log.allocSize + recordsSize (recordsOf request) := by
  induction request generalizing log with
  | nil => exact ⟨hlog, rfl, rfl⟩
  | cons add request ih =>
      have hsize : recordsSize (recordsOf (add :: request)) =
          add.1.bytes.length + recordsSize (recordsOf request) := rfl
      have hadd : moChainLogAdd add.2 add.1.bytes log =
          log.append add.1.bytes := by
        rw [moChainLogAdd_http hlog.sinkType, ensureSize_of_le _ (by omega)]
      rw [Log.addAll, List.foldl_cons, hadd]
      have hfirst : Zeroed (log.append add.1.bytes) :=
        hlog.add (by omega)
      have hnext := ih hfirst
        (by rw [append_allocSize, append_totalSize]; omega)
      rw [append_allocSize, append_totalSize] at hnext
      rw [hsize, ← Nat.add_assoc]
      exact hnext

def noisy (records : List Record) : HttpRequest :=
  records.map fun record => (record, noise)

@[simp] theorem records_noisy (records : List Record) :
    recordsOf (noisy records) = records := by
  simp [noisy, recordsOf, Function.comp_def]

theorem Full.addAll {log : ChainLog} (hlog : Full log)
    (records : List Record) : Full (addAll log (noisy records)) := by
  induction records generalizing log with
  | nil => exact hlog
  | cons record records ih =>
      refine ih (Full.add hlog.sinkType ?_ hlog.allocSize_le fun i _ =>
        hlog.ne_zero i)
      exact fun i hi => hlog.ne_zero i (hi.trans_le hlog.allocSize_le)

theorem Zeroed.addAll_noisy {records : List Record} {log : ChainLog}
    (hlog : Zeroed log)
    (hmuch : log.totalSize ≤ log.allocSize + recordsSize records) :
    Full (Log.addAll log (noisy records)) := by
  induction records generalizing log with
  | nil => exact .of_zeroed hlog hmuch
  | cons record records ih =>
      rw [recordsSize_cons] at hmuch
      obtain hgrows | hfits := Nat.lt_or_ge
        log.totalSize (log.allocSize + record.bytes.length)
      · refine Full.addAll (Full.add hlog.sinkType ?_ hlog.allocSize_le ?_) _
        · exact (noNul_contents_iff log).mp hlog.noNul
        · exact fun i hi hlt => absurd (hgrows.trans_le hi) hlt.asymm
      · have hadd : moChainLogAdd noise record.bytes log =
            log.append record.bytes := by
          rw [moChainLogAdd_http hlog.sinkType, ensureSize_of_le _ hfits]
        refine (congrArg (fun log => Full (Log.addAll log (noisy records)))
          hadd).mpr (ih (hlog.add hfits) ?_)
        rw [append_allocSize, append_totalSize]
        omega

section Requests

variable {log : ChainLog} (hsink : log.sinkType = sinkHttp)

include hsink

theorem fillRequest_of_lt {request : HttpRequest}
    (hsize : recordsSize (recordsOf request) < log.totalSize) :
    PostsBody log request ∧
      (fillRequest log request).sinkType = sinkHttp ∧
      (fillRequest log request).totalSize = log.totalSize := by
  have hinit : (moChainLogInit log).allocSize + recordsSize (recordsOf request) =
      recordsSize (recordsOf request) := Nat.zero_add _
  obtain ⟨hzeroed, htotal, halloc⟩ :=
    (Zeroed.init hsink).addAll (hinit.trans_lt hsize).le
  refine ⟨hzeroed.postedBody ?_, hzeroed.sinkType, htotal⟩
  rw [halloc, htotal, hinit]
  exact hsize

theorem postsBody_noisy_iff (records : List Record) :
    PostsBody log (noisy records) ↔ recordsSize records < log.totalSize := by
  constructor
  · intro hposts
    by_contra hmuch
    have hfull : Full (fillRequest log (noisy records)) :=
      (Zeroed.init hsink).addAll_noisy
        ((Nat.le_of_not_lt hmuch).trans (Nat.le_add_left _ _))
    exact Option.some_ne_none _ (hposts.symm.trans hfull.postedBody)
  · intro hsize
    exact (fillRequest_of_lt hsink (by rwa [records_noisy])).1

theorem along_postsBody {run : List HttpRequest}
    (hsizes : ∀ request ∈ run, recordsSize (recordsOf request) < log.totalSize) :
    Along fillRequest PostsBody log run := by
  induction run generalizing log with
  | nil => trivial
  | cons request run ih =>
      obtain ⟨hfirst, hrest⟩ := List.forall_mem_cons.mp hsizes
      obtain ⟨hposts, hsink', htotal⟩ := fillRequest_of_lt hsink hfirst
      exact ⟨hposts, ih hsink' (by rwa [htotal])⟩

theorem recordsSize_lt_of_along {requests : List (List Record)}
    (hrun : Along fillRequest PostsBody log (requests.map noisy)) :
    ∀ records ∈ requests, recordsSize records < log.totalSize := by
  induction requests generalizing log with
  | nil => simp
  | cons records requests ih =>
      have hfirst := (postsBody_noisy_iff hsink records).mp hrun.1
      obtain ⟨-, hsink', htotal⟩ :=
        fillRequest_of_lt hsink (by rwa [records_noisy])
      have hrest := ih hsink' hrun.2
      rw [htotal] at hrest
      exact List.forall_mem_cons.mpr ⟨hfirst, hrest⟩

end Requests

theorem PostsBodies.recordsSize_lt {outputType : Nat} {memory : Memory}
    {requests : List (List Record)}
    (hposts : PostsBodies outputType memory requests) :
    ∀ records ∈ requests, recordsSize records < allocLogSize := by
  have hsink : (moChainLogCtor sinkHttp outputType memory).sinkType =
      sinkHttp := rfl
  refine recordsSize_lt_of_along hsink (hposts _ ?_)
  simp [Function.comp_def]

/-- All bodies are as they should be exactly when the records of no request
fill the first buffer. -/
theorem postsBodies_iff (outputType : Nat) (memory : Memory)
    (requests : List (List Record)) :
    PostsBodies outputType memory requests ↔
      ∀ records ∈ requests, recordsSize records < allocLogSize := by
  constructor
  · intro hposts
    exact hposts.recordsSize_lt
  · rintro hsizes run rfl
    refine along_postsBody rfl fun request hrequest => ?_
    exact hsizes _ (List.mem_map_of_mem hrequest)

theorem not_postsBodies_full :
    ¬ PostsBodies spansWrap (fun _ => 0)
      [[⟨List.replicate allocLogSize 65, by simp⟩]] := by
  intro hposts
  have hlt := hposts.recordsSize_lt _ (List.mem_singleton_self _)
  simp [recordsSize] at hlt

end Molten.Log
