import Mathlib.Data.Finset.Card
import Mathlib.Data.Finset.Range
import Molten.Control.Interleaving
import Molten.Ctrl.Status
import Molten.Shm.Segment

namespace Molten.Shm

open Molten.Control
open Molten.Ctrl

/-! Processes that create the slot of the request counters, and count requests
once their own `mo_create_slot` has returned. -/

/-- The slot `MO_RECORD_SHM`, with its payload read as `mo_repi_t`. -/
structure RecordSlot where
  magic : UInt32
  init : Int
  lenght : Int
  mri : ReportInfo
  deriving DecidableEq, Repr

/-- The slot, the increments of `request_all` made so far, and which of them
were followed by one of `request_capture`. -/
structure Record where
  element : RecordSlot
  all : Nat
  captured : List Nat
  deriving DecidableEq, Repr

def moRecordShm : Fin moMaxSlot := 1

def reportInfoSize : Int := 16

/-- The next step of a process; `capturing` remembers which increment of
`request_all` was its own. -/
inductive Worker
  | testInit
  | testMagic
  | storeMagic
  | storeInit
  | storeLenght
  | clear
  | copy
  | running
  | capturing (number : Nat)
  deriving DecidableEq, Repr

/-- One step, in which a request that is started has the decision
`isSampled`. -/
def Worker.advance (isSampled : Bool) (s : Record) : Worker → Record × Worker
  | .testInit =>
      (s, if s.element.init ≠ 1 then .storeMagic else .testMagic)
  | .testMagic =>
      (s, if s.element.magic ≠ slotMagic moRecordShm then .storeMagic
        else .running)
  | .storeMagic =>
      ({ s with element :=
          { s.element with magic := slotMagic moRecordShm } }, .storeInit)
  | .storeInit =>
      ({ s with element := { s.element with init := 1 } }, .storeLenght)
  | .storeLenght =>
      ({ s with element := { s.element with lenght := reportInfoSize } },
        .clear)
  | .clear => ({ s with element := { s.element with mri := ⟨0, 0⟩ } }, .copy)
  | .copy => ({ s with element := { s.element with mri := ⟨0, 0⟩ } }, .running)
  | .running =>
      ({ s with
          element := { s.element with
            mri := { s.element.mri with
              requestAll := (s.element.mri.requestAll + 1) % 2 ^ 64 } }
          all := s.all + 1 },
        if isSampled then .capturing s.all else .running)
  | .capturing number =>
      ({ s with
          element := { s.element with
            mri := { s.element.mri with
              requestCapture :=
                (s.element.mri.requestCapture + 1) % 2 ^ 64 } }
          captured := number :: s.captured },
        .running)

/-- A process that nobody interrupts creates the slot as `mo_create_slot`
does: it fills one that is not initialised, and keeps another. -/
theorem advance_create_alone (isSampled : Bool) (s : Record) :
    ∃ n, (fun at_ : Record × Worker => at_.2.advance isSampled at_.1)^[n]
        (s, .testInit) =
      (if s.element.init = 1 ∧ s.element.magic = slotMagic moRecordShm then s
      else
        { s with
          element := ⟨slotMagic moRecordShm, 1, reportInfoSize, ⟨0, 0⟩⟩ },
        .running) := by
  by_cases hinit : s.element.init = 1
  · by_cases hmagic : s.element.magic = slotMagic moRecordShm
    · exact ⟨2, by simp [Worker.advance, hinit, hmagic]⟩
    · exact ⟨7, by simp [Worker.advance, hinit, hmagic]⟩
  · exact ⟨6, by simp [Worker.advance, hinit]⟩

/-- A request that nobody interrupts is counted as `mo_ctrl_record` does. -/
theorem advance_record_alone (isSampled : Bool) (s : Record) :
    ∃ n captured,
      (fun at_ : Record × Worker => at_.2.advance isSampled at_.1)^[n]
          (s, .running) =
        ({ s with
            element := { s.element with
              mri := moCtrlRecord s.element.mri isSampled }
            all := s.all + 1
            captured },
          .running) := by
  cases isSampled with
  | false => exact ⟨1, s.captured, by simp [Worker.advance, moCtrlRecord]⟩
  | true =>
      exact ⟨2, s.all :: s.captured, by simp [Worker.advance, moCtrlRecord]⟩

def counting : Protocol Record Worker where
  move s p s' p' := ∃ isSampled, p.advance isSampled s = (s', p')
  beside _ _ _ _ := True
  drift _ _ := False

/-! Each increment of `request_capture` follows an increment of `request_all`
of its own. -/

structure CapturedOnce (s : Record) : Prop where
  nodup : s.captured.Nodup
  made : ∀ number ∈ s.captured, number < s.all

def Worker.Own (s : Record) : Worker → Prop
  | .capturing number => number < s.all ∧ number ∉ s.captured
  | _ => True

def Worker.Apart : Worker → Worker → Prop
  | .capturing number, .capturing other => number ≠ other
  | _, _ => True

def ownNumbers : Assertion Record Worker where
  common := CapturedOnce
  own := Worker.Own
  pair _ p q := p.Apart q

section Kept

variable {s s' : Record} {p p' q : Worker}

theorem ownNumbers_mover (hcommon : CapturedOnce s) (hown : p.Own s)
    (hmove : counting.move s p s' p') :
    CapturedOnce s' ∧ p'.Own s' := by
  obtain ⟨isSampled, hadvance⟩ := hmove
  cases p with
  | testInit | testMagic =>
      cases hadvance
      exact ⟨hcommon, by split <;> trivial⟩
  | running =>
      cases hadvance
      refine ⟨⟨hcommon.nodup, fun number hmem =>
        (hcommon.made number hmem).trans (Nat.lt_succ_self _)⟩, ?_⟩
      split
      · exact ⟨Nat.lt_succ_self _, fun hmem =>
          (hcommon.made _ hmem).false⟩
      · trivial
  | capturing number =>
      cases hadvance
      refine ⟨⟨List.nodup_cons.mpr ⟨hown.2, hcommon.nodup⟩, ?_⟩, trivial⟩
      rintro other (_ | ⟨_, hmem⟩)
      · exact hown.1
      · exact hcommon.made other hmem
  | _ =>
      cases hadvance
      exact ⟨⟨hcommon.nodup, hcommon.made⟩, trivial⟩

theorem ownNumbers_other (hown : p.Own s)
    (hmove : counting.move s p s' p') (hother : q.Own s)
    (hpair : p.Apart q) :
    q.Own s' ∧ p'.Apart q := by
  obtain ⟨isSampled, hadvance⟩ := hmove
  cases q with
  | capturing other =>
      obtain ⟨hlt, hfresh⟩ := hother
      cases p with
      | testInit | testMagic =>
          cases hadvance
          exact ⟨⟨hlt, hfresh⟩, by split <;> trivial⟩
      | running =>
          cases hadvance
          refine ⟨⟨hlt.trans (Nat.lt_succ_self _), hfresh⟩, ?_⟩
          split
          · exact hlt.ne'
          · trivial
      | capturing number =>
          cases hadvance
          refine ⟨⟨hlt, ?_⟩, trivial⟩
          rintro (_ | ⟨_, hmem⟩)
          · exact hpair rfl
          · exact hfresh hmem
      | _ =>
          cases hadvance
          exact ⟨⟨hlt, hfresh⟩, trivial⟩
  | _ =>
      refine ⟨trivial, ?_⟩
      cases p' <;> trivial

theorem ownNumbers_keptBy : ownNumbers.KeptBy counting where
  symm {s p q} h := by
    cases p with
    | capturing number =>
        cases q with
        | capturing other => exact Ne.symm h
        | _ => trivial
    | _ => cases q <;> trivial
  mover := ownNumbers_mover
  other _ hown hmove _ hother hpair := ownNumbers_other hown hmove hother hpair
  others _ _ _ _ _ hpair := hpair
  drift _ hdrift := hdrift.elim

end Kept

/-! Runs, as the list of who moves. -/

section Runs

variable {ι : Type*} [DecidableEq ι]

/-- A process moves; the flag is the decision of a request it starts. -/
def moves (pool : Pool ι Record Worker) (turn : ι × Bool) :
    Pool ι Record Worker :=
  pool.moved turn.1
    ((pool.procs turn.1).advance turn.2 pool.shared).1
    ((pool.procs turn.1).advance turn.2 pool.shared).2

/-- No process has started, and the slot is as `shmget` made it. -/
def starting : Pool ι Record Worker where
  shared := { element := ⟨0, 0, 0, ⟨0, 0⟩⟩, all := 0, captured := [] }
  procs _ := .testInit

structure Counted (pool : Pool ι Record Worker) : Prop where
  all : pool.shared.element.mri.requestAll = pool.shared.all
  capture : pool.shared.element.mri.requestCapture =
    pool.shared.captured.length
  le : pool.shared.element.mri.requestCapture ≤
    pool.shared.element.mri.requestAll

/-- The slot is cleared and filled before the first increment, and the
increments fit an `unsigned long`. -/
def Undisturbed (pool : Pool ι Record Worker) (turn : ι × Bool) : Prop :=
  match pool.procs turn.1 with
  | .clear | .copy => pool.shared.all = 0
  | .running => pool.shared.all + 1 < 2 ^ 64
  | _ => True

theorem moves_step (pool : Pool ι Record Worker) (turn : ι × Bool) :
    counting.Step pool (moves pool turn) :=
  .move turn.1 ⟨turn.2, rfl⟩ fun _ _ => trivial

omit [DecidableEq ι] in
theorem holds_starting :
    ownNumbers.Holds (starting : Pool ι Record Worker) where
  common := ⟨List.nodup_nil, nofun⟩
  own _ := trivial
  pair _ _ _ := trivial

omit [DecidableEq ι] in
theorem counted_starting : Counted (starting : Pool ι Record Worker) :=
  ⟨rfl, rfl, le_rfl⟩

theorem CapturedOnce.length_le {s : Record} (h : CapturedOnce s) :
    s.captured.length ≤ s.all := by
  have hsub : s.captured.toFinset ⊆ Finset.range s.all := fun number hmem =>
    Finset.mem_range.mpr (h.made number (List.mem_toFinset.mp hmem))
  have hcard := Finset.card_le_card hsub
  rwa [List.toFinset_card_of_nodup h.nodup, Finset.card_range] at hcard

/-- What holds between the steps as long as nothing is lost. -/
structure Sound (pool : Pool ι Record Worker) : Prop where
  holds : ownNumbers.Holds pool
  counted : Counted pool
  all_lt : pool.shared.all < 2 ^ 64

theorem counted_moves_iff {pool : Pool ι Record Worker} (h : Sound pool)
    (turn : ι × Bool) :
    Counted (moves pool turn) ↔ Undisturbed pool turn := by
  obtain ⟨hall, hcapture, hle⟩ := h.counted
  have hlt := h.all_lt
  have hlength :=
    (h.holds.step ownNumbers_keptBy (moves_step pool turn)).common.length_le
  have hshared : (moves pool turn).shared =
    ((pool.procs turn.1).advance turn.2 pool.shared).1 := rfl
  have hbefore := h.holds.common.length_le
  rw [hshared] at hlength
  unfold Undisturbed
  cases hproc : pool.procs turn.1 with
  | clear | copy =>
      rw [hproc] at hshared
      constructor
      · rintro ⟨hall', -, -⟩
        rw [hshared] at hall'
        exact hall'.symm
      · intro hzero
        have hzero : pool.shared.all = 0 := hzero
        refine ⟨?_, ?_, ?_⟩
        · rw [hshared]
          exact hzero.symm
        · rw [hshared]
          show 0 = pool.shared.captured.length
          omega
        · rw [hshared]
          exact le_rfl
  | running =>
      rw [hproc] at hshared
      constructor
      · rintro ⟨hall', -, -⟩
        rw [hshared] at hall'
        have hall' : (pool.shared.element.mri.requestAll + 1) % 2 ^ 64 =
            pool.shared.all + 1 := hall'
        show pool.shared.all + 1 < 2 ^ 64
        omega
      · intro hfits
        have hfits : pool.shared.all + 1 < 2 ^ 64 := hfits
        refine ⟨?_, ?_, ?_⟩
        · rw [hshared]
          show (pool.shared.element.mri.requestAll + 1) % 2 ^ 64 =
            pool.shared.all + 1
          omega
        · rw [hshared]
          exact hcapture
        · rw [hshared]
          show pool.shared.element.mri.requestCapture ≤
            (pool.shared.element.mri.requestAll + 1) % 2 ^ 64
          omega
  | capturing number =>
      rw [hproc] at hshared hlength
      refine ⟨fun _ => trivial, fun _ => ?_⟩
      have hlength : pool.shared.captured.length + 1 ≤ pool.shared.all :=
        hlength
      refine ⟨?_, ?_, ?_⟩
      · rw [hshared]
        exact hall
      · rw [hshared]
        show (pool.shared.element.mri.requestCapture + 1) % 2 ^ 64 =
          pool.shared.captured.length + 1
        omega
      · rw [hshared]
        show (pool.shared.element.mri.requestCapture + 1) % 2 ^ 64 ≤
          pool.shared.element.mri.requestAll
        omega
  | _ =>
      rw [hproc] at hshared
      refine ⟨fun _ => trivial, fun _ => ⟨?_, ?_, ?_⟩⟩ <;> rw [hshared] <;>
        assumption

theorem Sound.moves {pool : Pool ι Record Worker} (h : Sound pool)
    (turn : ι × Bool) (hcounted : Counted (moves pool turn)) :
    Sound (Shm.moves pool turn) := by
  refine ⟨h.holds.step ownNumbers_keptBy (moves_step pool turn), hcounted, ?_⟩
  have hundisturbed := (counted_moves_iff h turn).mp hcounted
  have hlt := h.all_lt
  show ((pool.procs turn.1).advance turn.2 pool.shared).1.all < 2 ^ 64
  unfold Undisturbed at hundisturbed
  cases hproc : pool.procs turn.1 with
  | running =>
      rw [hproc] at hundisturbed
      exact hundisturbed
  | _ => exact hlt

/-- No request is lost exactly when no process clears or fills the slot after
the first increment. -/
theorem counted_iff (schedule : List (ι × Bool)) :
    EveryState moves Counted (starting : Pool ι Record Worker) schedule ↔
      Along moves Undisturbed starting schedule := by
  have hsound : Sound (starting : Pool ι Record Worker) :=
    ⟨holds_starting, counted_starting, Nat.two_pow_pos 64⟩
  rw [everyState_iff, and_iff_right counted_starting]
  exact along_congr Sound (fun _ turn h => counted_moves_iff h turn)
    (fun _ turn h hcounted => h.moves turn hcounted) hsound schedule

end Runs

/-- The second process passes the test between the stores of the first, and
counts a request that the first then clears. -/
theorem request_lost :
    ¬ EveryState moves Counted (starting : Pool (Fin 2) Record Worker)
      [(0, false), (0, false), (0, false), (1, false), (1, false),
        (1, false), (0, false), (0, false)] := by
  intro h
  have hlast := (h _ (List.prefix_refl _)).all
  exact absurd hlast (by decide)

end Molten.Shm
