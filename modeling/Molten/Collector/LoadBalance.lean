import Mathlib.Algebra.Order.Field.Rat
import Mathlib.Data.Fin.Basic
import Mathlib.Tactic.FieldSimp
import Mathlib.Tactic.NormNum
import Molten.Data.Rotation
import Molten.Log.Buffer

namespace Molten.Collector

open Molten.Data Molten.Log

/-! The load balancer of the collector addresses, with the arithmetic of a
signed `int` of 32 bits. -/

def serverNameLen : Nat := 32

def defaultWeight : Int := 50

structure Server where
  weight : Int
  curWeight : Int
  name : Bytes

def memcpy (len : Nat) (memory : Memory) : Bytes := (List.range len).map memory

variable {n : Nat}

/-- `names` are the bytes from each `char *` on. -/
def initServers (names : Fin n → Memory) (weights : Fin n → Int) :
    Fin n → Server := fun i =>
  { weight := weights i
    curWeight := 0
    name := memcpy serverNameLen (names i) }

def initDefaultServers (names : Fin n → Memory) : Fin n → Server := fun i =>
  { weight := defaultWeight
    curWeight := 0
    name := memcpy serverNameLen (names i) }

def FitsInt (value : Int) : Prop := -2 ^ 31 ≤ value ∧ value < 2 ^ 31

instance (value : Int) : Decidable (FitsInt value) :=
  inferInstanceAs (Decidable (_ ∧ _))

/-- `none` is an overflow. -/
def checkedInt (value : Int) : Option Int :=
  if FitsInt value then some value else none

def entry (n : Nat) (index : Int) : Option (Fin n) :=
  if h : 0 ≤ index ∧ index.toNat < n then some ⟨index.toNat, h.2⟩ else none

/-- The variables of the loop of `getNextServerIndex`, with the list of all
that was stored in a `cur_weight` and in `total`. -/
structure Scan (n : Nat) where
  servers : Fin n → Server
  index : Int
  total : Int
  curWeights : List Int
  totals : List Int

def Scan.start (servers : Fin n → Server) : Scan n :=
  { servers, index := -1, total := 0, curWeights := [], totals := [0] }

def setCurWeight (servers : Fin n → Server) (i : Fin n) (curWeight : Int) :
    Fin n → Server :=
  Function.update servers i { servers i with curWeight }

/-- `index == -1 || ss[index].cur_weight < ss[i].cur_weight` decides. -/
def nextIndex (servers : Fin n → Server) (i : Fin n) (index : Int) :
    Option Int :=
  if index = -1 then some i
  else
    (entry n index).map fun best =>
      if (servers best).curWeight < (servers i).curWeight then i else index

def visit (i : Fin n) (scan : Scan n) : Option (Scan n) := do
  let curWeight ←
    checkedInt ((scan.servers i).curWeight + (scan.servers i).weight)
  let servers := setCurWeight scan.servers i curWeight
  let total ← checkedInt (scan.total + (scan.servers i).weight)
  let index ← nextIndex servers i scan.index
  return { servers, index, total,
           curWeights := scan.curWeights ++ [curWeight]
           totals := scan.totals ++ [total] }

/-- The loop up to the server of the given index. -/
def scanServers (servers : Fin n → Server) : (i : Nat) → i ≤ n → Option (Scan n)
  | 0, _ => some (Scan.start servers)
  | i + 1, h => do
      let scan ← scanServers servers i (Nat.le_of_succ_le h)
      visit ⟨i, h⟩ scan

structure Choice (n : Nat) where
  index : Int
  servers : Fin n → Server
  curWeights : List Int
  totals : List Int

def getNextServerIndex (servers : Fin n → Server) : Option (Choice n) := do
  let scan ← scanServers servers n le_rfl
  let i ← entry n scan.index
  let curWeight ← checkedInt ((scan.servers i).curWeight - scan.total)
  return { index := scan.index
           servers := setCurWeight scan.servers i curWeight
           curWeights := scan.curWeights ++ [curWeight]
           totals := scan.totals }

def serverIndex (i : Fin n) : Int := (i : Nat)

theorem serverIndex_injective : Function.Injective (@serverIndex n) :=
  fun _ _ h => Fin.ext (Int.ofNat.inj h)

structure Calls (n : Nat) where
  servers : Fin n → Server
  choices : List (Choice n)

def Calls.indices (calls : Calls n) : List Int := calls.choices.map (·.index)

def callTimes (servers : Fin n → Server) : Nat → Option (Calls n)
  | 0 => some ⟨servers, []⟩
  | t + 1 => do
      let calls ← callTimes servers t
      let choice ← getNextServerIndex calls.servers
      return ⟨choice.servers, calls.choices ++ [choice]⟩

theorem checkedInt_of_fits {value : Int} (h : FitsInt value) :
    checkedInt value = some value := if_pos h

@[simp] theorem entry_coe (i : Fin n) : entry n (i : Nat) = some i := by
  simp [entry]

/-! What a call keeps of the servers. -/

section Kept

variable {α : Type} {field : Server → α}
  (kept : ∀ (server : Server) (curWeight : Int),
    field { server with curWeight } = field server)

include kept

theorem field_setCurWeight (servers : Fin n → Server) (i : Fin n)
    (curWeight : Int) (j : Fin n) :
    field (setCurWeight servers i curWeight j) = field (servers j) := by
  by_cases h : j = i
  · subst h
    rw [setCurWeight, Function.update_self]
    exact kept _ _
  · rw [setCurWeight, Function.update_of_ne h]

theorem field_visit {i : Fin n} {scan scan' : Scan n}
    (h : visit i scan = some scan') (j : Fin n) :
    field (scan'.servers j) = field (scan.servers j) := by
  simp only [visit, Option.bind_eq_bind, Option.bind_eq_some_iff,
    Option.pure_def, Option.some.injEq] at h
  obtain ⟨_, -, _, -, _, -, rfl⟩ := h
  exact field_setCurWeight kept ..

theorem field_scanServers {servers : Fin n → Server} {i : Nat} {hi : i ≤ n}
    {scan : Scan n} (h : scanServers servers i hi = some scan) (j : Fin n) :
    field (scan.servers j) = field (servers j) := by
  induction i generalizing scan with
  | zero =>
      obtain rfl := Option.some.inj h
      rfl
  | succ i ih =>
      rw [scanServers, Option.bind_eq_bind, Option.bind_eq_some_iff] at h
      obtain ⟨scan', hscan', hvisit⟩ := h
      exact (field_visit kept hvisit j).trans (ih hscan')

theorem field_getNextServerIndex {servers : Fin n → Server}
    {choice : Choice n} (h : getNextServerIndex servers = some choice)
    (j : Fin n) : field (choice.servers j) = field (servers j) := by
  simp only [getNextServerIndex, Option.bind_eq_bind, Option.bind_eq_some_iff,
    Option.pure_def, Option.some.injEq] at h
  obtain ⟨scan, hscan, i, -, curWeight, -, rfl⟩ := h
  exact (field_setCurWeight kept ..).trans (field_scanServers kept hscan j)

end Kept

theorem getNextServerIndex_name {servers : Fin n → Server} {choice : Choice n}
    (h : getNextServerIndex servers = some choice) (j : Fin n) :
    (choice.servers j).name = (servers j).name :=
  field_getNextServerIndex (fun _ _ => rfl) h j

theorem getNextServerIndex_weight {servers : Fin n → Server}
    {choice : Choice n} (h : getNextServerIndex servers = some choice)
    (j : Fin n) : (choice.servers j).weight = (servers j).weight :=
  field_getNextServerIndex (fun _ _ => rfl) h j

/-! The choice is the first of the greatest. -/

def leader (value : Fin n → Int) : (i : Nat) → i < n → Fin n
  | 0, h => ⟨0, h⟩
  | i + 1, h =>
      let best := leader value i (Nat.lt_of_succ_lt h)
      if value best < value ⟨i + 1, h⟩ then ⟨i + 1, h⟩ else best

theorem leader_le (value : Fin n → Int) :
    ∀ (i : Nat) (h : i < n), (leader value i h : Nat) ≤ i
  | 0, _ => le_rfl
  | i + 1, h => by
      rw [leader]
      split
      · exact le_rfl
      · exact (leader_le value i _).trans (Nat.le_succ i)

theorem le_value_leader (value : Fin n → Int) (i : Nat) (h : i < n) (j : Fin n)
    (hj : (j : Nat) ≤ i) : value j ≤ value (leader value i h) := by
  induction i with
  | zero => exact (congrArg value (Fin.ext (Nat.le_zero.mp hj))).le
  | succ i ih =>
      rw [leader]
      have hbest := ih (Nat.lt_of_succ_lt h)
      obtain hlt | heq := Nat.lt_or_eq_of_le hj
      · have := hbest (Nat.le_of_lt_succ hlt)
        split <;> omega
      · obtain rfl : j = ⟨i + 1, h⟩ := Fin.ext heq
        split <;> omega

def rotation (weights : Fin n → Int) (hn : 0 < n) : Rotation (Fin n) where
  weight := weights
  pick credit := leader credit (n - 1) (by omega)
  credit_le_pick credit i :=
    le_value_leader credit (n - 1) _ i (Nat.le_sub_one_of_lt i.isLt)

/-! One call is one turn of the rotation. -/

def Holds (weights credit : Fin n → Int) (servers : Fin n → Server) : Prop :=
  ∀ i, (servers i).weight = weights i ∧ (servers i).curWeight = credit i

theorem Holds.setCurWeight {weights credit credit' : Fin n → Int}
    {servers : Fin n → Server} (hholds : Holds weights credit servers)
    {i : Fin n} (hothers : ∀ j, j ≠ i → credit' j = credit j) :
    Holds weights credit' (setCurWeight servers i (credit' i)) := by
  intro j
  by_cases hj : j = i
  · subst hj
    simpa [Collector.setCurWeight] using (hholds j).1
  · rw [Collector.setCurWeight, Function.update_of_ne hj, hothers j hj]
    exact hholds j

def partialTotal (weights : Fin n → Int) (i : Nat) : Int :=
  ∑ j : Fin n, if (j : Nat) < i then weights j else 0

theorem partialTotal_succ (weights : Fin n → Int) {i : Nat} (h : i < n) :
    partialTotal weights (i + 1) = partialTotal weights i + weights ⟨i, h⟩ := by
  have hsplit : ∀ j : Fin n, (if (j : Nat) < i + 1 then weights j else 0) =
      (if (j : Nat) < i then weights j else 0) +
        if j = ⟨i, h⟩ then weights j else 0 := by
    intro j
    simp only [Fin.ext_iff]
    split_ifs <;> omega
  simp only [partialTotal, hsplit, Finset.sum_add_distrib,
    Finset.sum_ite_eq', Finset.mem_univ, if_true]

theorem partialTotal_self (weights : Fin n → Int) :
    partialTotal weights n = ∑ i, weights i := by
  simp [partialTotal]

/-- `index` once the loop has passed the servers before `i`. -/
def leaderBefore (value : Fin n → Int) : (i : Nat) → i ≤ n → Int
  | 0, _ => -1
  | i + 1, h => (leader value i h : Nat)

def raisedBefore (weights credit : Fin n → Int) (i : Nat) : Fin n → Int :=
  fun j => if (j : Nat) < i then credit j + weights j else credit j

theorem raisedBefore_of_lt {weights credit : Fin n → Int} {i : Nat}
    (j : Fin n) (h : (j : Nat) < i) :
    raisedBefore weights credit i j = credit j + weights j := if_pos h

theorem raisedBefore_of_le {weights credit : Fin n → Int} {i : Nat}
    (j : Fin n) (h : i ≤ j) : raisedBefore weights credit i j = credit j :=
  if_neg (Nat.not_lt.mpr h)

/-- The loop has passed the servers before `i`. -/
structure Scanned (weights credit : Fin n → Int) (i : Nat) (h : i ≤ n)
    (scan : Scan n) : Prop where
  holds : Holds weights (raisedBefore weights credit i) scan.servers
  index : scan.index = leaderBefore (fun j => credit j + weights j) i h
  total : scan.total = partialTotal weights i
  curWeights : ∀ value ∈ scan.curWeights, ∃ j, value = credit j + weights j
  totals : ∀ value ∈ scan.totals, ∃ j ≤ n, value = partialTotal weights j

theorem nextIndex_eq {weights credit : Fin n → Int}
    {servers : Fin n → Server} {i : Nat} (h : i < n)
    (hholds : Holds weights (raisedBefore weights credit (i + 1)) servers) :
    nextIndex servers ⟨i, h⟩
        (leaderBefore (fun j => credit j + weights j) i h.le) =
      some (leaderBefore (fun j => credit j + weights j) (i + 1) h) := by
  cases i with
  | zero => rfl
  | succ i =>
      have hbest := leader_le (fun j => credit j + weights j) i
        (Nat.lt_of_succ_lt h)
      simp only [leaderBefore, leader]
      generalize leader (fun j => credit j + weights j) i
        (Nat.lt_of_succ_lt h) = best at hbest ⊢
      rw [nextIndex, if_neg (by omega), entry_coe, Option.map_some,
        (hholds best).2, (hholds ⟨i + 1, h⟩).2,
        raisedBefore_of_lt best (by omega),
        raisedBefore_of_lt ⟨i + 1, h⟩ (Nat.lt_succ_self _)]
      split <;> rfl

theorem Scanned.start {weights credit : Fin n → Int}
    {servers : Fin n → Server} (hholds : Holds weights credit servers) :
    Scanned weights credit 0 (Nat.zero_le n) (Scan.start servers) where
  holds j := by
    rw [raisedBefore_of_le j (Nat.zero_le _)]
    exact hholds j
  index := rfl
  total := by simp [Scan.start, partialTotal]
  curWeights := by simp [Scan.start]
  totals value hvalue := ⟨0, Nat.zero_le n, by
    simpa [Scan.start, partialTotal] using hvalue⟩

section Fits

variable {weights credit : Fin n → Int}
  (hraise : ∀ i, FitsInt (credit i + weights i))
  (htotals : ∀ i ≤ n, FitsInt (partialTotal weights i))

include hraise htotals

theorem Scanned.visit {i : Nat} {h : i < n} {scan : Scan n}
    (hscan : Scanned weights credit i h.le scan) :
    ∃ scan', visit ⟨i, h⟩ scan = some scan' ∧
      Scanned weights credit (i + 1) h scan' := by
  obtain ⟨hweight, hcredit⟩ := hscan.holds ⟨i, h⟩
  rw [raisedBefore_of_le ⟨i, h⟩ le_rfl] at hcredit
  have hsum : scan.total + weights ⟨i, h⟩ = partialTotal weights (i + 1) := by
    rw [hscan.total, partialTotal_succ]
  have hholds : Holds weights (raisedBefore weights credit (i + 1))
      (setCurWeight scan.servers ⟨i, h⟩ (credit ⟨i, h⟩ + weights ⟨i, h⟩)) := by
    rw [← raisedBefore_of_lt ⟨i, h⟩ (Nat.lt_succ_self i)]
    refine hscan.holds.setCurWeight fun j hj => ?_
    have hne : (j : Nat) ≠ i := fun heq => hj (Fin.ext heq)
    have hlt : (j : Nat) < i + 1 ↔ (j : Nat) < i := by omega
    simp only [raisedBefore, hlt]
  have hvisit : Collector.visit ⟨i, h⟩ scan = some
      { servers := setCurWeight scan.servers ⟨i, h⟩
          (credit ⟨i, h⟩ + weights ⟨i, h⟩)
        index := leaderBefore (fun j => credit j + weights j) (i + 1) h
        total := partialTotal weights (i + 1)
        curWeights := scan.curWeights ++ [credit ⟨i, h⟩ + weights ⟨i, h⟩]
        totals := scan.totals ++ [partialTotal weights (i + 1)] } := by
    simp only [Collector.visit, hweight, hcredit, hsum,
      checkedInt_of_fits (hraise ⟨i, h⟩), checkedInt_of_fits (htotals (i + 1) h),
      hscan.index, nextIndex_eq h hholds, Option.bind_eq_bind,
      Option.bind_some, Option.pure_def]
  refine ⟨_, hvisit, hholds, rfl, rfl, ?_, ?_⟩
  · intro value hvalue
    obtain hold | rfl := by simpa using hvalue
    · exact hscan.curWeights value hold
    · exact ⟨_, rfl⟩
  · intro value hvalue
    obtain hold | rfl := by simpa using hvalue
    · exact hscan.totals value hold
    · exact ⟨i + 1, h, rfl⟩

theorem scanServers_eq {servers : Fin n → Server}
    (hholds : Holds weights credit servers) (i : Nat) (h : i ≤ n) :
    ∃ scan, scanServers servers i h = some scan ∧
      Scanned weights credit i h scan := by
  induction i with
  | zero => exact ⟨_, rfl, Scanned.start hholds⟩
  | succ i ih =>
      obtain ⟨scan, heq, hscan⟩ := ih (Nat.le_of_succ_le h)
      obtain ⟨scan', hvisit, hscan'⟩ := hscan.visit hraise htotals
      refine ⟨scan', ?_, hscan'⟩
      rw [scanServers, heq, Option.bind_eq_bind, Option.bind_some, hvisit]

theorem getNextServerIndex_eq (hn : 0 < n)
    (hadvance : ∀ i, FitsInt ((rotation weights hn).advance credit i))
    {servers : Fin n → Server} (hholds : Holds weights credit servers) :
    ∃ choice, getNextServerIndex servers = some choice ∧
      choice.index = ((rotation weights hn).served credit : Nat) ∧
      Holds weights ((rotation weights hn).advance credit) choice.servers ∧
      (∀ value ∈ choice.curWeights, ∃ i,
        value = (rotation weights hn).raise credit i ∨
          value = (rotation weights hn).advance credit i) ∧
      ∀ value ∈ choice.totals, ∃ i ≤ n, value = partialTotal weights i := by
  obtain ⟨scan, hscan, hscanned⟩ :=
    scanServers_eq hraise htotals hholds n le_rfl
  let served := (rotation weights hn).served credit
  have hindex : scan.index = (served : Nat) := by
    rw [hscanned.index]
    obtain ⟨m, rfl⟩ := Nat.exists_eq_add_of_lt hn
    rfl
  obtain ⟨hweight, hcredit⟩ := hscanned.holds served
  rw [raisedBefore_of_lt served served.isLt] at hcredit
  have hpay : (scan.servers served).curWeight - scan.total =
      (rotation weights hn).advance credit served := by
    rw [hcredit, hscanned.total, partialTotal_self, Rotation.advance,
      if_pos rfl]
    rfl
  have hchoice : getNextServerIndex servers = some
      { index := scan.index
        servers := setCurWeight scan.servers served
          ((rotation weights hn).advance credit served)
        curWeights := scan.curWeights ++
          [(rotation weights hn).advance credit served]
        totals := scan.totals } := by
    simp only [getNextServerIndex, hscan, hindex, entry_coe, hpay,
      checkedInt_of_fits (hadvance served), Option.bind_eq_bind,
      Option.bind_some, Option.pure_def]
  refine ⟨_, hchoice, hindex, ?_, ?_, hscanned.totals⟩
  · refine hscanned.holds.setCurWeight fun i hi => ?_
    rw [raisedBefore_of_lt i i.isLt, Rotation.advance, if_neg hi, sub_zero]
    rfl
  · intro value hvalue
    obtain hold | rfl := by simpa using hvalue
    · obtain ⟨i, rfl⟩ := hscanned.curWeights value hold
      exact ⟨i, .inl rfl⟩
    · exact ⟨served, .inr rfl⟩

end Fits

/-! Runs from `initServers`. -/

/-- Nothing a call stored overflows, and it serves a server that is there. -/
structure Choice.Safe (weights : Fin n → Int) (choice : Choice n) : Prop where
  index : 0 ≤ choice.index ∧ choice.index < n
  curWeights : ∀ value ∈ choice.curWeights,
    FitsInt value ∧ -(∑ i, weights i) < value ∧ value ≤ n * ∑ i, weights i
  totals : ∀ value ∈ choice.totals, FitsInt value

section Runs

variable {weights : Fin n → Int} (hn : 0 < n) (hpos : ∀ i, 0 < weights i)

include hn hpos

theorem total_pos : 0 < ∑ i, weights i :=
  Finset.sum_pos (fun i _ => hpos i) ⟨⟨0, hn⟩, Finset.mem_univ _⟩

theorem total_le_mul : ∑ i, weights i ≤ n * ∑ i, weights i :=
  le_mul_of_one_le_left (total_pos hn hpos).le (by exact_mod_cast hn)

theorem raise_bounds (t : Nat) (i : Fin n) :
    -(∑ i, weights i) < (rotation weights hn).raise
        ((rotation weights hn).credit t) i ∧
      (rotation weights hn).raise ((rotation weights hn).credit t) i ≤
        n * ∑ i, weights i := by
  have hlow := (rotation weights hn).neg_total_lt_credit
    (fun j => (hpos j).le) (total_pos hn hpos) t i
  have hhigh := (rotation weights hn).raise_le
    (fun j => (hpos j).le) (total_pos hn hpos) t i
  rw [Fintype.card_fin] at hhigh
  refine ⟨hlow.trans ?_, hhigh⟩
  exact lt_add_of_pos_right _ (hpos i)

theorem credit_bounds (t : Nat) (i : Fin n) :
    -(∑ i, weights i) < (rotation weights hn).credit t i ∧
      (rotation weights hn).credit t i ≤ n * ∑ i, weights i := by
  have htotal := total_pos hn hpos
  refine ⟨(rotation weights hn).neg_total_lt_credit
    (fun j => (hpos j).le) htotal t i, ?_⟩
  have hraise := (raise_bounds hn hpos t i).2
  have := hpos i
  exact (le_add_of_nonneg_right this.le).trans hraise

omit hn in
theorem partialTotal_bounds (i : Nat) :
    0 ≤ partialTotal weights i ∧
      partialTotal weights i ≤ ∑ j, weights j := by
  constructor
  · refine Finset.sum_nonneg fun j _ => ?_
    split
    · exact (hpos j).le
    · exact le_rfl
  · refine Finset.sum_le_sum fun j _ => ?_
    split
    · exact le_rfl
    · exact (hpos j).le

variable (hfit : n * ∑ i, weights i < 2 ^ 31)

include hfit

theorem fitsInt_of_bounds {value : Int} (hlow : -(∑ i, weights i) < value)
    (hhigh : value ≤ n * ∑ i, weights i) : FitsInt value := by
  have := total_le_mul hn hpos
  constructor <;> omega

theorem callTimes_eq (names : Fin n → Memory) (t : Nat) :
    ∃ calls, callTimes (initServers names weights) t = some calls ∧
      calls.indices =
        ((rotation weights hn).turns t).map serverIndex ∧
      Holds weights ((rotation weights hn).credit t) calls.servers ∧
      ∀ choice ∈ calls.choices, choice.Safe weights := by
  induction t with
  | zero => exact ⟨_, rfl, rfl, fun i => ⟨rfl, rfl⟩, by simp⟩
  | succ t ih =>
      obtain ⟨calls, hcalls, hindices, hholds, hsafe⟩ := ih
      have hfits := fun value => @fitsInt_of_bounds n weights hn hpos hfit value
      have hraise i := raise_bounds hn hpos t i
      have hadvance i := credit_bounds hn hpos (t + 1) i
      have hpartial : ∀ i ≤ n, FitsInt (partialTotal weights i) := by
        intro i _
        have := partialTotal_bounds hpos i
        have := total_le_mul hn hpos
        have := total_pos hn hpos
        exact hfits _ (by omega) (by omega)
      obtain ⟨choice, hchoice, hindex, hholds', hstored, htotals⟩ :=
        getNextServerIndex_eq (fun i => hfits _ (hraise i).1 (hraise i).2)
          hpartial hn (fun i => hfits _ (hadvance i).1 (hadvance i).2) hholds
      refine ⟨⟨choice.servers, calls.choices ++ [choice]⟩, ?_, ?_, hholds', ?_⟩
      · simp [callTimes, hcalls, hchoice]
      · rw [Rotation.turns_succ, List.map_append, ← hindices, Calls.indices,
          List.map_append, List.map_singleton, List.map_singleton, hindex]
        rfl
      · intro other hother
        obtain hold | rfl := by simpa using hother
        · exact hsafe other hold
        refine ⟨by rw [hindex]; omega, ?_, ?_⟩
        · intro value hvalue
          obtain ⟨i, rfl | rfl⟩ := hstored value hvalue
          · exact ⟨hfits _ (hraise i).1 (hraise i).2, hraise i⟩
          · exact ⟨hfits _ (hadvance i).1 (hadvance i).2, hadvance i⟩
        · intro value hvalue
          obtain ⟨i, hi, rfl⟩ := htotals value hvalue
          exact hpartial i hi

end Runs

theorem getNextServerIndex_safe (hn : 0 < n) (names : Fin n → Memory)
    (weights : Fin n → Int) (hpos : ∀ i, 0 < weights i)
    (hfit : n * ∑ i, weights i ≤ 2 ^ 31 - 1) (t : Nat) :
    ∃ calls, callTimes (initServers names weights) t = some calls ∧
      calls.choices.length = t ∧
      ∀ choice ∈ calls.choices, choice.Safe weights := by
  obtain ⟨calls, hcalls, hindices, _, hsafe⟩ :=
    callTimes_eq hn hpos (Int.lt_of_le_sub_one hfit) names t
  refine ⟨calls, hcalls, ?_, hsafe⟩
  simpa [Calls.indices, Rotation.turns] using congrArg List.length hindices

theorem getNextServerIndex_safe_two :
    ∃ calls, callTimes (initServers (fun (_ : Fin 2) _ => 65)
        (fun i => if i = 0 then 3 else 1)) 5 = some calls ∧
      calls.choices.length = 5 ∧ ∀ choice ∈ calls.choices,
        choice.Safe (fun i => if i = 0 then 3 else 1) :=
  getNextServerIndex_safe (by decide) (fun (_ : Fin 2) _ => 65)
    (fun i => if i = 0 then 3 else 1) (by decide) (by decide) 5

/-- In a row of as many calls as the weights add up to, each server is
returned as often as its weight says, and never is it far ahead. -/
theorem getNextServerIndex_fair (hn : 0 < n) (names : Fin n → Memory)
    (weights : Fin n → Int) (hpos : ∀ i, 0 < weights i)
    (hfit : n * ∑ i, weights i < 2 ^ 31) (total : Nat)
    (htotal : total = ∑ i, weights i) (t : Nat) :
    ∃ calls, callTimes (initServers names weights) t = some calls ∧
      calls.indices.length = t ∧
      (∀ start, start + total ≤ t → ∀ i : Fin n,
        (((calls.indices.drop start).take total).count (serverIndex i) : Int) =
          weights i) ∧
      (total ∣ t → ∀ i, (calls.servers i).curWeight = 0) ∧
      ∀ i : Fin n, (calls.indices.count (serverIndex i) : ℚ) <
        t * weights i / total + 1 := by
  obtain ⟨calls, hcalls, hindices, hholds, -⟩ :=
    callTimes_eq hn hpos hfit names t
  have hnonneg : ∀ i, 0 ≤ (rotation weights hn).weight i :=
    fun i => (hpos i).le
  have hpos_total := total_pos hn hpos
  refine ⟨calls, hcalls, ?_, ?_, ?_, ?_⟩
  · simpa [Rotation.turns] using congrArg List.length hindices
  · intro start hstart i
    rw [hindices, ← List.map_drop, ← List.map_take,
      List.count_map_of_injective _ _ serverIndex_injective]
    exact (rotation weights hn).count_window hnonneg hpos_total htotal hstart i
  · intro hdvd i
    rw [(hholds i).2, (rotation weights hn).credit_of_dvd hnonneg hpos_total]
    · rfl
    · rw [← Int.natCast_dvd_natCast, htotal] at hdvd
      exact hdvd
  · intro i
    have hlt := (rotation weights hn).count_turns_lt hnonneg hpos_total t i
    rw [hindices, List.count_map_of_injective _ _ serverIndex_injective]
    have htotal' : (total : ℚ) = (rotation weights hn).total := by
      exact_mod_cast htotal
    have hpos' : (0 : ℚ) < total := by
      rw [htotal']
      exact_mod_cast hpos_total
    rw [div_add_one hpos'.ne', lt_div_iff₀ hpos', htotal']
    exact_mod_cast hlt

theorem getNextServerIndex_fair_two :
    ∃ calls, callTimes (initServers (fun (_ : Fin 2) _ => 65)
        (fun i => if i = 0 then 3 else 1)) 8 = some calls ∧
      calls.indices.length = 8 ∧
      (∀ start, start + 4 ≤ 8 → ∀ i : Fin 2,
        (((calls.indices.drop start).take 4).count (serverIndex i) : Int) =
          if i = 0 then 3 else 1) ∧
      (4 ∣ 8 → ∀ i, (calls.servers i).curWeight = 0) ∧
      ∀ i : Fin 2, (calls.indices.count (serverIndex i) : ℚ) <
        (8 : Nat) * (if i = 0 then 3 else 1 : Int) / (4 : Nat) + 1 :=
  getNextServerIndex_fair (by decide) (fun (_ : Fin 2) _ => 65)
    (fun i => if i = 0 then 3 else 1) (by decide) (by decide) 4 (by decide) 8

end Molten.Collector
