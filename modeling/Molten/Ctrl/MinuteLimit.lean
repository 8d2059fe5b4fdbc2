import Mathlib.Data.Int.Interval
import Molten.Control.Interleaving
import Molten.Ctrl.Sampling

namespace Molten.Ctrl.MinuteLimit

open Molten.Chain
open Molten.Control

/-! Workers that limit the sampled requests of a minute over one shared
`mo_sr_t`, one load, store or atomic increment at a time. -/

/-- `added` is what `__sync_add_and_fetch` returned, and 0 after a reset.  The
source drops it. -/
structure Decision where
  minute : Int
  added : Int
  isSampled : Bool
  deriving DecidableEq, Repr

structure Shared where
  msr : SamplingRecord
  clock : Int
  decided : List Decision
  deriving DecidableEq, Repr

/-- Where a worker stands in `mo_ctrl_sampling`, with the `min` it has read. -/
inductive Phase
  | idle
  | timed (min : Int)
  | equal (min : Int)
  | differs (min : Int)
  | cleared (min : Int)
  | counted (min added : Int)
  deriving DecidableEq, Repr

def addAndFetch (num : Int) : Int := (num + 1).bmod (2 ^ 64)

theorem addAndFetch_of_lt {num : Int} (h0 : 0 ≤ num)
    (h : num + 1 < 2 ^ 63) :
    addAndFetch num = num + 1 := by
  unfold addAndFetch
  exact Int.bmod_eq_of_le (by omega) (by omega)

def advance (limit : Int) (s : Shared) : Phase → Shared × Phase
  | .idle => (s, .timed s.clock)
  | .timed min =>
      (s, if min = s.msr.lastMin then .equal min else .differs min)
  | .equal min =>
      let num := addAndFetch s.msr.requestNum
      ({ s with msr := { s.msr with requestNum := num } }, .counted min num)
  | .differs min =>
      ({ s with msr := { s.msr with requestNum := 0 } }, .cleared min)
  | .cleared min =>
      ({ s with msr := { s.msr with lastMin := min } }, .counted min 0)
  | .counted min added =>
      let decision :=
        { minute := min, added, isSampled := s.msr.requestNum < limit }
      ({ s with decided := decision :: s.decided }, .idle)

def sampling (limit : Int) : Protocol Shared Phase where
  move s p s' p' := advance limit s p = (s', p')
  beside _ _ _ _ := True
  drift s s' := ∃ clock, s.clock ≤ clock ∧ s' = { s with clock }

def sampledIn (minute : Int) (s : Shared) : List Decision :=
  s.decided.filter fun decision =>
    decision.isSampled ∧ decision.minute = minute

def Bounded (limit : Int) (s : Shared) : Prop :=
  ∀ minute, ((sampledIn minute s).length : Int) ≤ limit

structure Starts {ι : Type*} (pool : Pool ι Shared Phase) : Prop where
  lastMin : pool.shared.msr.lastMin ≤ pool.shared.clock
  requestNum : 0 ≤ pool.shared.msr.requestNum
  decided : pool.shared.decided = []
  idle : ∀ i, pool.procs i = .idle

theorem advance_alone (limit : Int) {s : Shared}
    (h0 : 0 ≤ s.msr.requestNum) (h : s.msr.requestNum + 1 < 2 ^ 63) :
    ∃ n, (fun worker : Shared × Phase =>
        advance limit worker.1 worker.2)^[n] (s, .idle) =
      ({ s with
          msr := s.msr.count s.clock
          decided :=
            ⟨s.clock, (s.msr.count s.clock).requestNum,
              (s.msr.count s.clock).requestNum < limit⟩ :: s.decided },
        .idle) := by
  by_cases hmin : s.clock = s.msr.lastMin
  · exact ⟨4, by
      simp [advance, SamplingRecord.count, hmin, addAndFetch_of_lt h0 h]⟩
  · exact ⟨5, by simp [advance, SamplingRecord.count, hmin]⟩

/-- A worker that nobody interrupts takes the decision of
`mo_ctrl_sampling`. -/
theorem advance_alone_decides {build : HeaderBuild} {input : RequestInput}
    {module : CtrlModule} {s : Shared}
    (hreceived : input.received build.recSampled = none)
    (htype : module.samplingType ≠ samplingRateType)
    (hminute : input.minute = s.clock) (h0 : 0 ≤ s.msr.requestNum)
    (h : s.msr.requestNum + 1 < 2 ^ 63) :
    ∃ n hit record,
      moCtrlSampling build input module s.msr = some (hit, record) ∧
      (fun worker : Shared × Phase =>
          advance module.samplingRequest worker.1 worker.2)^[n] (s, .idle) =
        ({ s with
            msr := record
            decided := ⟨s.clock, record.requestNum, hit⟩ :: s.decided },
          .idle) := by
  obtain ⟨n, hn⟩ := advance_alone module.samplingRequest h0 h
  refine ⟨n, _, _, moCtrlSampling_of_limit hreceived htype _, ?_⟩
  rw [hminute]
  exact hn

/-! Resets that nobody interferes with. -/

/-- A request that a reset for `min` leaves undisturbed. -/
def Phase.Waits (min : Int) : Phase → Prop
  | .idle => True
  | .timed min' | .equal min' | .differs min' => min ≤ min'
  | .cleared _ | .counted _ _ => False

def Phase.Apart : Phase → Phase → Prop
  | .cleared min, p => p.Waits min
  | .counted min added, .counted min' added' => min = min' → added ≠ added'
  | _, _ => True

def resetsAlone (limit : Int) : Protocol Shared Phase :=
  (sampling limit).guarded
    (fun s p _ =>
      match p with
      | .equal _ => s.msr.requestNum + 1 < 2 ^ 63
      | .differs min => s.msr.lastMin < min
      | _ => True)
    fun _ p _ q =>
      match p with
      | .differs min => q.Waits min
      | _ => True

/-- Every request of `min` that has its decision came before `num`. -/
def CountedTo (min num : Int) (decided : List Decision) : Prop :=
  ∀ decision ∈ decided, decision.minute = min → decision.added ≤ num

theorem CountedTo.mono {min num num' : Int} {decided : List Decision}
    (h : CountedTo min num decided) (hle : num ≤ num') :
    CountedTo min num' decided := fun decision hdecision hminute =>
  (h decision hdecision hminute).trans hle

theorem CountedTo.cons {min num : Int} {decision : Decision}
    {decided : List Decision} (h : CountedTo min num decided)
    (hle : decision.added ≤ num) :
    CountedTo min num (decision :: decided) := by
  rintro other (_ | ⟨_, hother⟩) hminute
  · exact hle
  · exact h other hother hminute

theorem CountedTo.of_earlier {min num : Int} {decided : List Decision}
    (h : ∀ decision ∈ decided, decision.minute < min) :
    CountedTo min num decided := fun decision hdecision hminute =>
  absurd hminute (h decision hdecision).ne

structure Common (limit : Int) (s : Shared) : Prop where
  lastMin : s.msr.lastMin ≤ s.clock
  requestNum : 0 ≤ s.msr.requestNum
  minute : ∀ decision ∈ s.decided, decision.minute ≤ s.msr.lastMin
  counted : s.msr.lastMin = s.clock →
    CountedTo s.clock s.msr.requestNum s.decided
  distinct : s.decided.Pairwise fun decision other =>
    decision.minute = other.minute → decision.added ≠ other.added
  sampled : ∀ decision ∈ s.decided, decision.isSampled →
    0 ≤ decision.added ∧ decision.added < limit

def Phase.Own (s : Shared) : Phase → Prop
  | .idle => True
  | .timed min | .differs min =>
      s.msr.lastMin ≤ min ∧ min ≤ s.clock ∧
        (min = s.msr.lastMin → CountedTo min s.msr.requestNum s.decided)
  | .equal min =>
      min = s.msr.lastMin ∧ CountedTo min s.msr.requestNum s.decided
  | .cleared min =>
      s.msr.lastMin < min ∧ min ≤ s.clock ∧ s.msr.requestNum = 0
  | .counted min added =>
      min = s.msr.lastMin ∧ 0 ≤ added ∧ added ≤ s.msr.requestNum ∧
        ∀ decision ∈ s.decided, decision.minute = min →
          decision.added ≠ added

def tickets (limit : Int) : Assertion Shared Phase where
  common := Common limit
  own := Phase.Own
  pair _ p q := p.Apart q ∧ q.Apart p

section Kept

variable {limit : Int} {s s' : Shared} {p p' : Phase}

theorem tickets_mover (hcommon : Common limit s) (hown : p.Own s)
    (hmove : (resetsAlone limit).move s p s' p') :
    Common limit s' ∧ p'.Own s' := by
  obtain ⟨hadvance, hallowed⟩ := hmove
  cases p with
  | idle =>
      cases hadvance
      exact ⟨hcommon, hcommon.lastMin, le_rfl, fun h => hcommon.counted h.symm⟩
  | timed min =>
      cases hadvance
      refine ⟨hcommon, ?_⟩
      by_cases hmin : min = s.msr.lastMin
      · rw [if_pos hmin]
        exact ⟨hmin, hown.2.2 hmin⟩
      · rw [if_neg hmin]
        exact hown
  | equal min =>
      obtain ⟨hmin, hcounted⟩ := hown
      have hadded := addAndFetch_of_lt hcommon.requestNum hallowed
      have hnum : s.msr.requestNum ≤ s.msr.requestNum + 1 := by omega
      cases hadvance
      rw [hadded]
      refine ⟨⟨hcommon.lastMin, hcommon.requestNum.trans hnum,
        hcommon.minute, fun hclock => (hcommon.counted hclock).mono hnum,
        hcommon.distinct, hcommon.sampled⟩, hmin,
        hcommon.requestNum.trans hnum, le_rfl, ?_⟩
      intro decision hdecision hminute
      have := hcounted decision hdecision hminute
      omega
  | differs min =>
      obtain ⟨hlast, hclock, -⟩ := hown
      have hlt : s.msr.lastMin < min := hallowed
      cases hadvance
      refine ⟨⟨hcommon.lastMin, le_rfl, hcommon.minute, ?_,
        hcommon.distinct, hcommon.sampled⟩, hlt, hclock, rfl⟩
      intro hmin
      have hmin : s.msr.lastMin = s.clock := hmin
      omega
  | cleared min =>
      obtain ⟨hlast, hclock, hnum⟩ := hown
      have hearlier : ∀ decision ∈ s.decided, decision.minute < min :=
        fun decision hdecision =>
          (hcommon.minute decision hdecision).trans_lt hlast
      cases hadvance
      refine ⟨⟨hclock, hcommon.requestNum, ?_, ?_, hcommon.distinct,
        hcommon.sampled⟩, rfl, le_rfl, hnum.ge, ?_⟩
      · exact fun decision hdecision => (hearlier decision hdecision).le
      · intro hmin
        exact .of_earlier fun decision hdecision =>
          (hearlier decision hdecision).trans_eq hmin
      · intro decision hdecision hminute
        exact absurd hminute (hearlier decision hdecision).ne
  | counted min added =>
      obtain ⟨hmin, h0, hnum, hfresh⟩ := hown
      cases hadvance
      refine ⟨⟨hcommon.lastMin, hcommon.requestNum, ?_,
        fun hclock => (hcommon.counted hclock).cons hnum, ?_, ?_⟩, trivial⟩
      · rintro decision (_ | ⟨_, hdecision⟩)
        · exact hmin.le
        · exact hcommon.minute decision hdecision
      · refine List.pairwise_cons.mpr ⟨?_, hcommon.distinct⟩
        intro decision hdecision hminute
        exact (hfresh decision hdecision hminute.symm).symm
      · rintro decision (_ | ⟨_, hdecision⟩) hsampled
        · have hsampled : s.msr.requestNum < limit := by simpa using hsampled
          exact ⟨h0, hnum.trans_lt hsampled⟩
        · exact hcommon.sampled decision hdecision hsampled

/-! Another request `q`, after each of the four stores. -/

section Beside

variable {q : Phase} {min added : Int}

theorem Phase.Own.beside_increment (hown : (Phase.equal min).Own s)
    (hother : q.Own s) (hpair : q.Apart (.equal min)) :
    q.Own { s with
        msr := { s.msr with requestNum := s.msr.requestNum + 1 } } ∧
      (Phase.counted min (s.msr.requestNum + 1)).Apart q ∧
      q.Apart (.counted min (s.msr.requestNum + 1)) := by
  have hnum : s.msr.requestNum ≤ s.msr.requestNum + 1 := by omega
  cases q with
  | idle => exact ⟨trivial, trivial, trivial⟩
  | timed min' | differs min' =>
      exact ⟨⟨hother.1, hother.2.1, fun hmin => (hother.2.2 hmin).mono hnum⟩,
        trivial, trivial⟩
  | equal min' =>
      exact ⟨⟨hother.1, hother.2.mono hnum⟩, trivial, trivial⟩
  | cleared min' =>
      have hmin : min = s.msr.lastMin := hown.1
      have hlt : s.msr.lastMin < min' := hother.1
      have hle : min' ≤ min := hpair
      omega
  | counted min' added' =>
      obtain ⟨hmin', h0, hadded, hfresh⟩ := hother
      exact ⟨⟨hmin', h0, hadded.trans hnum, hfresh⟩, fun _ => by omega,
        fun _ => by omega⟩

theorem Phase.Own.beside_reset (hlt : s.msr.lastMin < min)
    (hother : q.Own s) (hwaits : q.Waits min) :
    q.Own { s with msr := { s.msr with requestNum := 0 } } ∧
      (Phase.cleared min).Apart q ∧ q.Apart (.cleared min) := by
  cases q with
  | idle => exact ⟨trivial, trivial, trivial⟩
  | timed min' | differs min' =>
      have hle : min ≤ min' := hwaits
      refine ⟨⟨hother.1, hother.2.1, fun hmin => ?_⟩, hle, trivial⟩
      have hmin : min' = s.msr.lastMin := hmin
      omega
  | equal min' =>
      have hle : min ≤ min' := hwaits
      have hmin : min' = s.msr.lastMin := hother.1
      omega
  | cleared min' | counted min' added' => exact hwaits.elim

theorem Phase.Own.beside_dating (hcommon : Common limit s)
    (hlt : s.msr.lastMin < min) (hother : q.Own s)
    (hpair : (Phase.cleared min).Apart q) :
    q.Own { s with msr := { s.msr with lastMin := min } } ∧
      (Phase.counted min 0).Apart q ∧ q.Apart (.counted min 0) := by
  cases q with
  | idle => exact ⟨trivial, trivial, trivial⟩
  | timed min' | differs min' =>
      have hle : min ≤ min' := hpair
      refine ⟨⟨hle, hother.2.1, fun _ => .of_earlier ?_⟩, trivial, trivial⟩
      exact fun decision hdecision =>
        ((hcommon.minute decision hdecision).trans_lt hlt).trans_le hle
  | equal min' =>
      have hle : min ≤ min' := hpair
      have hmin : min' = s.msr.lastMin := hother.1
      omega
  | cleared min' | counted min' added' => exact hpair.elim

theorem Phase.Own.beside_decision (hown : (Phase.counted min added).Own s)
    (isSampled : Bool) (hother : q.Own s)
    (hpair : (Phase.counted min added).Apart q ∧
      q.Apart (.counted min added)) :
    q.Own { s with decided := ⟨min, added, isSampled⟩ :: s.decided } ∧
      Phase.idle.Apart q ∧ q.Apart .idle := by
  obtain ⟨hmin, h0, hnum, hfresh⟩ := hown
  cases q with
  | idle => exact ⟨trivial, trivial, trivial⟩
  | timed min' | differs min' =>
      exact ⟨⟨hother.1, hother.2.1, fun hlast => (hother.2.2 hlast).cons hnum⟩,
        trivial, trivial⟩
  | equal min' => exact ⟨⟨hother.1, hother.2.cons hnum⟩, trivial, trivial⟩
  | cleared min' => exact hpair.2.elim
  | counted min' added' =>
      obtain ⟨hmin', h0', hnum', hfresh'⟩ := hother
      refine ⟨⟨hmin', h0', hnum', ?_⟩, trivial, trivial⟩
      rintro decision (_ | ⟨_, hdecision⟩) hminute
      · exact hpair.1 hminute
      · exact hfresh' decision hdecision hminute

end Beside

theorem tickets_other {q : Phase} (hcommon : Common limit s)
    (hown : p.Own s) (hmove : (resetsAlone limit).move s p s' p')
    (hbeside : (resetsAlone limit).beside s p p' q) (hother : q.Own s)
    (hpair : p.Apart q ∧ q.Apart p) :
    q.Own s' ∧ p'.Apart q ∧ q.Apart p' := by
  obtain ⟨hadvance, hallowed⟩ := hmove
  obtain ⟨-, hapart⟩ := hbeside
  cases p with
  | idle =>
      cases hadvance
      refine ⟨hother, trivial, ?_⟩
      cases q with
      | cleared min' => exact hother.2.1
      | _ => trivial
  | timed min =>
      cases hadvance
      refine ⟨hother, ?_, ?_⟩
      · split <;> trivial
      · cases q with
        | cleared min' => split <;> exact hpair.2
        | _ => split <;> trivial
  | equal min =>
      have hadded := addAndFetch_of_lt hcommon.requestNum hallowed
      cases hadvance
      rw [hadded]
      exact hown.beside_increment hother hpair.2
  | differs min =>
      cases hadvance
      exact hother.beside_reset hallowed hapart
  | cleared min =>
      cases hadvance
      exact hother.beside_dating hcommon hown.1 hpair.1
  | counted min added =>
      cases hadvance
      exact hown.beside_decision _ hother hpair

theorem tickets_drift (hcommon : Common limit s)
    (hdrift : (resetsAlone limit).drift s s') :
    Common limit s' ∧ ∀ q : Phase, q.Own s → q.Own s' := by
  obtain ⟨clock, hle, rfl⟩ := hdrift
  refine ⟨⟨hcommon.lastMin.trans hle, hcommon.requestNum, hcommon.minute,
    ?_, hcommon.distinct, hcommon.sampled⟩, fun q hown => ?_⟩
  · intro hlast
    have hlast : s.msr.lastMin = clock := hlast
    have := hcommon.lastMin
    have hclock : clock = s.clock := by omega
    subst hclock
    exact hcommon.counted hlast
  · cases q with
    | timed min | differs min =>
        exact ⟨hown.1, hown.2.1.trans hle, hown.2.2⟩
    | cleared min => exact ⟨hown.1, hown.2.1.trans hle, hown.2.2⟩
    | _ => exact hown

theorem tickets_keptBy : (tickets limit).KeptBy (resetsAlone limit) where
  symm h := ⟨h.2, h.1⟩
  mover := tickets_mover
  other := tickets_other
  others _ _ _ _ _ hpair := hpair
  drift hcommon hdrift :=
    ⟨(tickets_drift hcommon hdrift).1, (tickets_drift hcommon hdrift).2,
      fun _ _ hpair => hpair⟩

end Kept

theorem tickets_starts {ι : Type*} {limit : Int}
    {pool : Pool ι Shared Phase} (h : Starts pool) :
    (tickets limit).Holds pool where
  common :=
    { lastMin := h.lastMin
      requestNum := h.requestNum
      minute := by simp [h.decided]
      counted := by simp [h.decided, CountedTo]
      distinct := by simp [h.decided]
      sampled := by simp [h.decided] }
  own i := by
    rw [h.idle i]
    trivial
  pair i j _ := by
    rw [h.idle i, h.idle j]
    exact ⟨trivial, trivial⟩

theorem Common.bounded {limit : Int} {s : Shared} (hlimit : 0 ≤ limit)
    (h : Common limit s) : Bounded limit s := by
  intro minute
  have hin : ∀ decision ∈ sampledIn minute s,
      decision ∈ s.decided ∧ decision.isSampled ∧
        decision.minute = minute := by
    simp [sampledIn]
  have hdistinct : ((sampledIn minute s).map Decision.added).Nodup := by
    refine List.pairwise_map.mpr ?_
    refine (h.distinct.filter _).imp_of_mem ?_
    intro decision other hdecision hother hadded
    apply hadded
    rw [(hin _ hdecision).2.2, (hin _ hother).2.2]
  have hsub : ((sampledIn minute s).map Decision.added).toFinset ⊆
      Finset.Ico 0 limit := by
    intro added hadded
    simp only [List.mem_toFinset, List.mem_map] at hadded
    obtain ⟨decision, hdecision, rfl⟩ := hadded
    obtain ⟨hdecided, hsampled, -⟩ := hin decision hdecision
    exact Finset.mem_Ico.mpr (h.sampled decision hdecided hsampled)
  have hcard := Finset.card_le_card hsub
  rw [List.toFinset_card_of_nodup hdistinct, List.length_map,
    Int.card_Ico] at hcard
  omega

/-- While every reset is made alone, no minute sees more sampled requests than
the limit. -/
theorem sampled_le_limit {ι : Type*} [DecidableEq ι] {limit : Int}
    {start last : Pool ι Shared Phase} (hlimit : 0 ≤ limit)
    (hstart : Starts start) (hrun : (resetsAlone limit).Run start last) :
    Bounded limit last.shared :=
  ((tickets_starts hstart).run tickets_keptBy hrun).common.bounded hlimit

/-- Two workers in minute six whose record is of minute five. -/
def minuteSix : Pool (Fin 2) Shared Phase where
  shared :=
    { msr := { lastMin := 5, requestNum := 0 }, clock := 6, decided := [] }
  procs _ := .idle

theorem minuteSix_starts : Starts minuteSix :=
  ⟨by decide, by decide, rfl, fun _ => rfl⟩

/-- The second worker reads the clock before the first one resets the record,
and counts its request after that. -/
theorem sampled_le_limit_minuteSix :
    Bounded 1
        (minuteSix.plays (advance 1) [0, 0, 1, 0, 0, 1, 0, 1, 1]).shared ∧
      (minuteSix.plays (advance 1) [0, 0, 1, 0, 0, 1, 0, 1, 1]).shared.decided =
        [⟨6, 1, false⟩, ⟨6, 0, true⟩] := by
  refine ⟨sampled_le_limit (by decide) minuteSix_starts ?_, by decide⟩
  refine .head (.move 0 ⟨rfl, trivial⟩ fun _ _ => ⟨trivial, trivial⟩) ?_
  refine .head (.move 0 ⟨rfl, trivial⟩ fun _ _ => ⟨trivial, trivial⟩) ?_
  refine .head (.move 1 ⟨rfl, trivial⟩ fun _ _ => ⟨trivial, trivial⟩) ?_
  refine .head (.move 0 ⟨rfl, show (5 : Int) < 6 by decide⟩ fun j hj => ?_) ?_
  · obtain rfl : j = 1 := by omega
    exact ⟨trivial, show (6 : Int) ≤ 6 by decide⟩
  refine .head (.move 0 ⟨rfl, trivial⟩ fun _ _ => ⟨trivial, trivial⟩) ?_
  refine .head (.move 1 ⟨rfl, trivial⟩ fun _ _ => ⟨trivial, trivial⟩) ?_
  refine .head (.move 0 ⟨rfl, trivial⟩ fun _ _ => ⟨trivial, trivial⟩) ?_
  refine .head (.move 1 ⟨rfl, show (0 : Int) + 1 < 2 ^ 63 by decide⟩
    fun _ _ => ⟨trivial, trivial⟩) ?_
  exact .head (.move 1 ⟨rfl, trivial⟩ fun _ _ => ⟨trivial, trivial⟩) .refl

theorem two_sampled_of_limit_one :
    ∃ start last : Pool (Fin 2) Shared Phase,
      Starts start ∧ (sampling 1).Run start last ∧
        ¬ Bounded 1 last.shared := by
  refine ⟨minuteSix,
    minuteSix.plays (advance 1) [0, 1, 0, 1, 0, 1, 0, 1, 0, 1],
    minuteSix_starts,
    Protocol.Run.plays (fun _ _ => rfl) (fun _ _ _ _ => trivial) _ _, ?_⟩
  intro hbounded
  exact absurd (hbounded 6) (by decide)

end Molten.Ctrl.MinuteLimit
