import Mathlib.Algebra.Group.Int.Defs
import Mathlib.Algebra.Group.Nat.Defs
import Molten.Log.ChainLog

namespace Molten.Log

/-! The loop that writes to a descriptor. -/

/-- A call of `flush_log_to_fd`, and what the calls of `write` in it return one
after the other: a count, or `none` for -1. -/
structure FlushCall where
  bytes : Bytes
  results : Nat → Option Nat
  bytes_ne_nil : bytes ≠ []
  size_lt : bytes.length < 2 ^ 31
  result_within : ∀ {call count}, results call = some count →
    0 < count ∧ count ≤ bytes.length

/-- What reached the file when the loop is left, and whether by -1. -/
structure Flushed where
  file : Bytes
  failed : Bool
  deriving DecidableEq, Repr

/-- `written_bytes += written_bytes`, in an `int` of 32 bits. -/
def doubled (count : Nat) : Int := Int.bmod (count + count) (2 ^ 32)

theorem doubled_eq {count : Nat} (small : count < 2 ^ 30) :
    doubled count = count + count :=
  Int.bmod_eq_of_le (by omega) (by omega)

namespace FlushCall

/-- Every round hands over the whole buffer again.  `none` when the loop is
still running after `fuel` rounds. -/
def flushLogToFd (c : FlushCall) : (fuel call : Nat) → Bytes → Option Flushed
  | 0, _, _ => none
  | fuel + 1, call, file =>
      match c.results call with
      | none => some ⟨file, true⟩
      | some writtenBytes =>
          let file := file ++ c.bytes.take writtenBytes
          if doubled writtenBytes < c.bytes.length then
            c.flushLogToFd fuel (call + 1) file
          else some ⟨file, false⟩

/-- The loop ends with the buffer in the file, or with the start of it after a
failed write. -/
def WritesAll (c : FlushCall) : Prop :=
  ∃ fuel flushed, c.flushLogToFd fuel 0 [] = some flushed ∧
    (flushed.failed = false → flushed.file = c.bytes) ∧
    (flushed.failed = true → flushed.file <+: c.bytes)

/-! When it does. -/

def offset (c : FlushCall) : Nat → Nat
  | 0 => 0
  | call + 1 => c.offset call + (c.results call).getD 0

/-- The buffer has its first `count` bytes again where the call puts them. -/
def Lands (c : FlushCall) (call count : Nat) : Prop :=
  c.bytes.take count <+: c.bytes.drop (c.offset call)

def GoesOn (c : FlushCall) (call count : Nat) : Prop :=
  c.results call = some count ∧ doubled count < c.bytes.length

/-- The calls before the last are short, and the bytes of every call happen to
be those of the buffer at that place. -/
def Repeats (c : FlushCall) : Prop :=
  ∃ last,
    (∀ call < last, ∃ count, c.GoesOn call count ∧ c.Lands call count) ∧
      (c.results last = none ∨
        ∃ count, c.results last = some count ∧
          (c.bytes.length : Int) ≤ doubled count ∧ c.Lands last count ∧
          c.offset last + count = c.bytes.length)

def fileAt (c : FlushCall) : Nat → Bytes
  | 0 => []
  | call + 1 => c.fileAt call ++ c.bytes.take ((c.results call).getD 0)

theorem GoesOn.fileAt_succ {c : FlushCall} {call count : Nat}
    (step : c.GoesOn call count) :
    c.fileAt (call + 1) = c.fileAt call ++ c.bytes.take count := by
  rw [fileAt, step.1]
  rfl

theorem length_fileAt (c : FlushCall) (call : Nat) :
    (c.fileAt call).length = c.offset call := by
  induction call with
  | zero => rfl
  | succ call induction =>
      rw [fileAt, offset, List.length_append, induction, List.length_take]
      cases result : c.results call with
      | none => simp
      | some count =>
          have within := (c.result_within result).2
          rw [Option.getD_some, Nat.min_eq_left within]

/-! A run of the loop. -/

theorem flushLogToFd_goesOn {c : FlushCall} {call count : Nat}
    (step : c.GoesOn call count) (fuel : Nat) :
    c.flushLogToFd (fuel + 1) call (c.fileAt call) =
      c.flushLogToFd fuel (call + 1) (c.fileAt (call + 1)) := by
  rw [flushLogToFd, step.1, step.fileAt_succ]
  exact if_pos step.2

theorem flushLogToFd_calls {c : FlushCall} (fuel calls : Nat)
    (steps : ∀ call < calls, ∃ count, c.GoesOn call count) :
    c.flushLogToFd (calls + fuel) 0 [] =
      c.flushLogToFd fuel calls (c.fileAt calls) := by
  induction calls generalizing fuel with
  | zero => rw [Nat.zero_add]; rfl
  | succ calls induction =>
      have earlier : ∀ call < calls, ∃ count, c.GoesOn call count :=
        fun call before => steps call (by omega)
      obtain ⟨count, step⟩ := steps calls (by omega)
      rw [show calls + 1 + fuel = calls + (fuel + 1) by omega,
        induction (fuel + 1) earlier]
      exact flushLogToFd_goesOn step fuel

def Ends (c : FlushCall) (call : Nat) (flushed : Flushed) : Prop :=
  (c.results call = none ∧ flushed = ⟨c.fileAt call, true⟩) ∨
    ∃ count, c.results call = some count ∧
      (c.bytes.length : Int) ≤ doubled count ∧
      flushed = ⟨c.fileAt call ++ c.bytes.take count, false⟩

theorem Ends.flushLogToFd {c : FlushCall} {call : Nat} {flushed : Flushed}
    (ends : c.Ends call flushed) :
    c.flushLogToFd 1 call (c.fileAt call) = some flushed := by
  rcases ends with ⟨result, rfl⟩ | ⟨count, result, stops, rfl⟩
  · rw [FlushCall.flushLogToFd, result]
  · rw [FlushCall.flushLogToFd, result]
    exact if_neg (by omega)

theorem ends_of_flushLogToFd {c : FlushCall} {flushed : Flushed}
    (fuel call : Nat)
    (ran : c.flushLogToFd fuel call (c.fileAt call) = some flushed) :
    ∃ last, call ≤ last ∧
      (∀ i, call ≤ i → i < last → ∃ count, c.GoesOn i count) ∧
      c.Ends last flushed := by
  induction fuel generalizing call with
  | zero => simp [flushLogToFd] at ran
  | succ fuel induction =>
      cases result : c.results call with
      | none =>
          rw [flushLogToFd, result] at ran
          exact ⟨call, Nat.le_refl _, fun i _ _ => by omega,
            Or.inl ⟨result, (Option.some.inj ran).symm⟩⟩
      | some count =>
          by_cases goesOn : doubled count < c.bytes.length
          · have step : c.GoesOn call count := ⟨result, goesOn⟩
            rw [flushLogToFd_goesOn step] at ran
            obtain ⟨last, after, steps, ends⟩ := induction (call + 1) ran
            refine ⟨last, by omega, fun i from_ before => ?_, ends⟩
            by_cases first : i = call
            · exact ⟨count, first ▸ step⟩
            · exact steps i (by omega) before
          · rw [flushLogToFd, result] at ran
            have stopped := (if_neg goesOn).symm.trans ran
            exact ⟨call, Nat.le_refl _, fun i _ _ => by omega,
              Or.inr ⟨count, result, by omega,
                (Option.some.inj stopped).symm⟩⟩

/-! What is in the file at the end. -/

theorem append_prefix_iff {α : Type} (start added whole : List α) :
    start ++ added <+: whole ↔
      start <+: whole ∧ added <+: whole.drop start.length := by
  constructor
  · intro joined
    obtain ⟨rest, rfl⟩ := joined
    rw [List.append_assoc, List.drop_left]
    exact ⟨List.prefix_append _ _, List.prefix_append _ _⟩
  · intro parts
    obtain ⟨⟨rest, rfl⟩, behind⟩ := parts
    rw [List.drop_left] at behind
    exact (List.prefix_append_right_inj start).mpr behind

theorem lands_iff {c : FlushCall} (call count : Nat) :
    c.fileAt call ++ c.bytes.take count <+: c.bytes ↔
      c.fileAt call <+: c.bytes ∧ c.Lands call count := by
  rw [append_prefix_iff, length_fileAt]
  rfl

theorem fileAt_prefix_iff {c : FlushCall} (calls : Nat)
    (steps : ∀ call < calls, ∃ count, c.GoesOn call count) :
    c.fileAt calls <+: c.bytes ↔
      ∀ call < calls, ∃ count, c.GoesOn call count ∧ c.Lands call count := by
  induction calls with
  | zero =>
      exact ⟨fun _ call before => by omega, fun _ => List.nil_prefix⟩
  | succ calls induction =>
      have earlier := induction fun call before => steps call (by omega)
      obtain ⟨count, step⟩ := steps calls (by omega)
      rw [step.fileAt_succ, lands_iff, earlier]
      constructor
      · rintro ⟨lands, last⟩ call before
        rcases Nat.lt_succ_iff_lt_or_eq.mp before with before | rfl
        · exact lands call before
        · exact ⟨count, step, last⟩
      · intro lands
        refine ⟨fun call before => lands call (by omega), ?_⟩
        obtain ⟨count', step', last⟩ := lands calls (by omega)
        have same : count = count' :=
          Option.some.inj (step.1.symm.trans step'.1)
        rw [same]
        exact last

theorem file_eq_iff {c : FlushCall} {call count : Nat}
    (result : c.results call = some count) :
    c.fileAt call ++ c.bytes.take count = c.bytes ↔
      (c.fileAt call <+: c.bytes ∧ c.Lands call count) ∧
        c.offset call + count = c.bytes.length := by
  have within := (c.result_within result).2
  have length : (c.fileAt call ++ c.bytes.take count).length =
      c.offset call + count := by
    rw [List.length_append, length_fileAt, List.length_take,
      Nat.min_eq_left within]
  rw [← lands_iff, ← length]
  constructor
  · intro whole
    rw [whole]
    exact ⟨List.prefix_rfl, rfl⟩
  · intro parts
    obtain ⟨start, whole⟩ := parts
    exact start.eq_of_length whole

theorem writesAll_iff_ends (c : FlushCall) :
    c.WritesAll ↔
      ∃ last flushed, (∀ call < last, ∃ count, c.GoesOn call count) ∧
        c.Ends last flushed ∧
        (flushed.failed = false → flushed.file = c.bytes) ∧
        (flushed.failed = true → flushed.file <+: c.bytes) := by
  constructor
  · intro writes
    obtain ⟨fuel, flushed, ran, file⟩ := writes
    obtain ⟨last, -, steps, ends⟩ := ends_of_flushLogToFd fuel 0 ran
    exact ⟨last, flushed, fun call before => steps call (by omega) before,
      ends, file⟩
  · intro ran
    obtain ⟨last, flushed, steps, ends, file⟩ := ran
    refine ⟨last + 1, flushed, ?_, file⟩
    rw [flushLogToFd_calls 1 last steps]
    exact ends.flushLogToFd

theorem writesAll_iff_repeats (c : FlushCall) : c.WritesAll ↔ c.Repeats := by
  rw [writesAll_iff_ends]
  constructor
  · intro ran
    obtain ⟨last, flushed, steps, ends, whole, start⟩ := ran
    rcases ends with ⟨result, rfl⟩ | ⟨count, result, stops, rfl⟩
    · exact ⟨last, (fileAt_prefix_iff last steps).mp (start rfl),
        Or.inl result⟩
    · have file := (file_eq_iff result).mp (whole rfl)
      exact ⟨last, (fileAt_prefix_iff last steps).mp file.1.1,
        Or.inr ⟨count, result, stops, file.1.2, file.2⟩⟩
  · intro repeats
    obtain ⟨last, lands, ends⟩ := repeats
    have steps : ∀ call < last, ∃ count, c.GoesOn call count :=
      fun call before =>
        let ⟨count, step, _⟩ := lands call before
        ⟨count, step⟩
    have start := (fileAt_prefix_iff last steps).mpr lands
    rcases ends with result | ⟨count, result, stops, last_lands, total⟩
    · exact ⟨last, _, steps, Or.inl ⟨result, rfl⟩, fun failed => by simp at failed,
        fun _ => start⟩
    · have whole := (file_eq_iff result).mpr ⟨⟨start, last_lands⟩, total⟩
      exact ⟨last, _, steps, Or.inr ⟨count, result, stops, rfl⟩,
        fun _ => whole, fun failed => by simp at failed⟩

/-! A buffer whose first byte is in it once. -/

def FirstOnce (c : FlushCall) : Prop :=
  ∀ i, 0 < i → c.bytes[i]? ≠ c.bytes[0]?

theorem Lands.offset_eq_zero {c : FlushCall} (once : c.FirstOnce)
    {call count : Nat} (positive : 0 < count) (lands : c.Lands call count) :
    c.offset call = 0 := by
  have nonempty : 0 < c.bytes.length :=
    List.length_pos_iff.mpr c.bytes_ne_nil
  have first : (c.bytes.take count)[0]? = some c.bytes[0] := by
    rw [List.getElem?_take, if_pos positive, List.getElem?_eq_getElem nonempty]
  have landed : (c.bytes.drop (c.offset call))[0]? = some c.bytes[0] := by
    obtain ⟨rest, whole⟩ := lands
    rw [← whole, List.getElem?_append_left, first]
    rw [List.length_take]
    omega
  rw [List.getElem?_drop, Nat.add_zero] at landed
  rcases Nat.eq_zero_or_pos (c.offset call) with start | later
  · exact start
  · exact absurd (landed.trans (List.getElem?_eq_getElem nonempty).symm)
      (once _ later)

theorem GoesOn.offset_succ_pos {c : FlushCall} {call count : Nat}
    (step : c.GoesOn call count) : 0 < c.offset (call + 1) := by
  have positive := (c.result_within step.1).1
  rw [offset, step.1, Option.getD_some]
  omega

theorem GoesOn.not_lands_succ {c : FlushCall} (once : c.FirstOnce)
    {call count next : Nat} (step : c.GoesOn call count)
    (result : c.results (call + 1) = some next) :
    ¬ c.Lands (call + 1) next := by
  intro lands
  have start := lands.offset_eq_zero once (c.result_within result).1
  have later := step.offset_succ_pos
  omega

/-- The only write is whole or failed, or a short one is followed by the one
that fails. -/
def OneWrite (c : FlushCall) : Prop :=
  (c.results 0 = none ∨
    (c.results 0 = some c.bytes.length ∧
      (c.bytes.length : Int) ≤ doubled c.bytes.length)) ∨
  ∃ count, c.GoesOn 0 count ∧ c.results 1 = none

theorem repeats_iff_oneWrite {c : FlushCall} (once : c.FirstOnce) :
    c.Repeats ↔ c.OneWrite := by
  constructor
  · intro repeats
    obtain ⟨last, lands, ends⟩ := repeats
    cases last with
    | zero =>
        rcases ends with result | ⟨count, result, stops, -, total⟩
        · exact Or.inl (Or.inl result)
        · obtain rfl : count = c.bytes.length := (Nat.zero_add _).symm.trans total
          exact Or.inl (Or.inr ⟨result, stops⟩)
    | succ last =>
        obtain ⟨count, step, -⟩ := lands last (by omega)
        rcases ends with result | ⟨next, result, -, landed, -⟩
        · cases last with
          | zero => exact Or.inr ⟨count, step, result⟩
          | succ last =>
              obtain ⟨_, earlier, -⟩ := lands last (by omega)
              obtain ⟨_, later, landed⟩ := lands (last + 1) (by omega)
              exact absurd landed (earlier.not_lands_succ once later.1)
        · exact absurd landed (step.not_lands_succ once result)
  · rintro ((result | ⟨result, stops⟩) | ⟨count, step, result⟩)
    · exact ⟨0, fun call before => by omega, Or.inl result⟩
    · exact ⟨0, fun call before => by omega, Or.inr ⟨_, result, stops,
        List.take_prefix _ _, Nat.zero_add _⟩⟩
    · refine ⟨1, fun call before => ⟨count, ?_⟩, Or.inl result⟩
      obtain rfl : call = 0 := by omega
      exact ⟨step, List.take_prefix _ _⟩

/-- The buffer is in the file, or the start of it, just when the bytes that are
written again stand in the buffer again.  Where they cannot, that leaves the
runs of a single write. -/
theorem flushLogToFd_complete_iff (c : FlushCall) :
    (c.WritesAll ↔ c.Repeats) ∧ (c.FirstOnce → (c.Repeats ↔ c.OneWrite)) :=
  ⟨writesAll_iff_repeats c, repeats_iff_oneWrite⟩

def shortWrite : FlushCall where
  bytes := [1, 2, 3, 4]
  results := fun _ => some 3
  bytes_ne_nil := by decide
  size_lt := by decide
  result_within := by
    intro call count result
    cases Option.some.inj result
    decide

theorem shortWrite_loses : ¬ shortWrite.WritesAll := by
  intro writes
  obtain ⟨fuel, flushed, ran, whole, -⟩ := writes
  cases fuel with
  | zero => cases ran
  | succ fuel =>
      have left : some (Flushed.mk [1, 2, 3] false) = some flushed := ran
      cases left
      exact absurd (whole rfl) (by decide)

end FlushCall

end Molten.Log
