import Molten.Chain.Start

namespace Molten.Chain

open Molten.Ctrl
open Molten.Span

/-! The trace id a request generates: the clock seeds `random`, and what it
draws is written in hexadecimal. -/

def randMax : Nat := 2147483647

def loopCount : Nat :=
  if randMax / 256 ≥ 0xFFFFFFFFFFFFFF then 1
  else if randMax / 256 ≥ 0xFFFFFF then 2
  else if randMax / 256 ≥ 0x3FFFF then 3
  else if randMax / 256 ≥ 0x1FF then 4
  else 5

structure Timeval where
  tvSec : Int
  tvUsec : Int
  deriving DecidableEq, Repr

/-- The `int` that seeds `random`, when `gettimeofday` succeeds. -/
def randSeed (pid : Int) (tv : Timeval) : Int :=
  (tv.tvUsec * pid).bmod (2 ^ 32)

section Draw

-- `random seed i` is what the call `i` of `random` returns after
-- `srandom(seed)`
variable (random : Int → Nat → Nat)

def randUint64 (seed : Int) : Nat :=
  (List.range loopCount).foldl
    (fun r i => (r * (randMax + 1) + random seed i) % 2 ^ 64) 0

def littleEndian : Nat → Nat → List Nat
  | 0, _ => []
  | len + 1, word => word % 256 :: littleEndian len (word / 256)

def hexits : List Char := "0123456789abcdef".toList

def hexit (half : Nat) : Char := hexits.getD half '0'

def b2hex (input : List Nat) : String :=
  String.ofList (input.flatMap fun byte => [hexit (byte / 16), hexit (byte % 16)])

def bin2hex64 (input : Nat) : String := b2hex (littleEndian 8 input)

def rand64hex (seed : Int) : String := bin2hex64 (randUint64 random seed)

end Draw

theorem hexit_inj : ∀ half < 16, ∀ other < 16,
    hexit half = hexit other → half = other := by
  decide

theorem b2hex_inj {input other : List Nat} (hlength : input.length = other.length)
    (hinput : ∀ byte ∈ input, byte < 256) (hother : ∀ byte ∈ other, byte < 256)
    (h : b2hex input = b2hex other) : input = other := by
  unfold b2hex at h
  rw [String.ofList_inj] at h
  induction input generalizing other with
  | nil => exact (List.length_eq_zero_iff.mp hlength.symm).symm
  | cons byte input ih =>
      cases other with
      | nil => contradiction
      | cons byte' other =>
          rw [List.forall_mem_cons] at hinput hother
          simp only [List.flatMap_cons, List.cons_append, List.nil_append,
            List.cons.injEq] at h
          obtain ⟨hhigh, hlow, hrest⟩ := h
          have hhigh := hexit_inj _ (by omega) _ (by omega) hhigh
          have hlow := hexit_inj _ (by omega) _ (by omega) hlow
          have hbyte : byte = byte' := by omega
          rw [hbyte, ih (Nat.succ.inj hlength) hinput.2 hother.2 hrest]

theorem length_littleEndian (len word : Nat) :
    (littleEndian len word).length = len := by
  induction len generalizing word with
  | zero => rfl
  | succ len ih => rw [littleEndian, List.length_cons, ih]

theorem lt_of_mem_littleEndian {len word byte : Nat}
    (h : byte ∈ littleEndian len word) : byte < 256 := by
  induction len generalizing word with
  | zero => contradiction
  | succ len ih =>
      obtain rfl | hrest := List.mem_cons.mp h
      · exact Nat.mod_lt _ (by decide)
      · exact ih hrest

theorem littleEndian_inj {len word other : Nat}
    (h : littleEndian len word = littleEndian len other) :
    word % 256 ^ len = other % 256 ^ len := by
  induction len generalizing word other with
  | zero => simp [Nat.mod_one]
  | succ len ih =>
      obtain ⟨hbyte, hrest⟩ := List.cons.inj h
      rw [Nat.pow_succ', Nat.mod_mul, Nat.mod_mul, hbyte, ih hrest]

theorem bin2hex64_inj {word other : Nat} (hword : word < 2 ^ 64)
    (hother : other < 2 ^ 64) :
    bin2hex64 word = bin2hex64 other ↔ word = other := by
  constructor
  · intro h
    have hbytes := b2hex_inj (by simp only [length_littleEndian])
      (fun _ => lt_of_mem_littleEndian) (fun _ => lt_of_mem_littleEndian) h
    have hmod := littleEndian_inj hbytes
    have hsize : 256 ^ 8 = 2 ^ 64 := by decide
    rwa [hsize, Nat.mod_eq_of_lt hword, Nat.mod_eq_of_lt hother] at hmod
  · exact congrArg _

/-! What of the drawn numbers reaches the id. -/

section Kept

variable {random : Int → Nat → Nat}

/-- The two low bits of the first draw, and the other two draws. -/
def keptDraws (random : Int → Nat → Nat) (seed : Int) : Nat × Nat × Nat :=
  (random seed 0 % 4, random seed 1, random seed 2)

theorem randUint64_eq (hrange : ∀ seed i, random seed i ≤ randMax)
    (seed : Int) :
    randUint64 random seed =
      (random seed 0 % 4) * 2 ^ 62 + random seed 1 * 2 ^ 31 +
        random seed 2 := by
  have h1 := hrange seed 1
  have h2 := hrange seed 2
  have hloop : List.range loopCount = [0, 1, 2] := by decide
  have hbase : randMax + 1 = 2 ^ 31 := rfl
  rw [randUint64, hloop, List.foldl_cons, List.foldl_cons, List.foldl_cons,
    List.foldl_nil, hbase]
  generalize random seed 0 = first, random seed 1 = second,
    random seed 2 = third at h1 h2 ⊢
  omega

theorem randUint64_inj (hrange : ∀ seed i, random seed i ≤ randMax)
    {seed other : Int} :
    randUint64 random seed = randUint64 random other ↔
      keptDraws random seed = keptDraws random other := by
  have h1 := hrange seed 1
  have h2 := hrange seed 2
  have h1' := hrange other 1
  have h2' := hrange other 2
  rw [randUint64_eq hrange, randUint64_eq hrange]
  simp only [keptDraws, Prod.mk.injEq, randMax] at *
  omega

theorem rand64hex_inj (hrange : ∀ seed i, random seed i ≤ randMax)
    {seed other : Int} :
    rand64hex random seed = rand64hex random other ↔
      keptDraws random seed = keptDraws random other := by
  have hlt : ∀ seed, randUint64 random seed < 2 ^ 64 := by
    intro seed
    have h1 := hrange seed 1
    have h2 := hrange seed 2
    rw [randUint64_eq hrange]
    simp only [randMax] at *
    omega
  rw [rand64hex, rand64hex, bin2hex64_inj (hlt seed) (hlt other),
    randUint64_inj hrange]

end Kept

/-! Two requests of one worker. -/

/-- `state` is what a sampled request that received no trace id holds once it
has started at the instant `tv`. -/
def GeneratedAt (headers : HeaderBuild) (build : IdBuild)
    (random : Int → Nat → Nat) (pid : Int) (tv : Timeval)
    (state : ChainState) : Prop :=
  ∃ (input : RequestInput) (module : CtrlModule)
      (record record' : SamplingRecord) (prior : ChainState),
    input.rand64hex = rand64hex random (randSeed pid tv) ∧
    input.received headers.recTraceId = none ∧
    startChain headers build input module record prior =
      some (state, record') ∧
    state.isSampled = true

theorem GeneratedAt.traceId {headers : HeaderBuild} {build : IdBuild}
    {random : Int → Nat → Nat} {pid : Int} {tv : Timeval}
    {state : ChainState}
    (h : GeneratedAt headers build random pid tv state) :
    state.pch.traceId.val = some (rand64hex random (randSeed pid tv)) := by
  obtain ⟨input, module, record, record', prior, hdrawn, hreceived, hstart,
    hsampled⟩ := h
  obtain ⟨-, ip, port, hpch, -⟩ := startChain_sampled hstart hsampled
  rw [hpch, TraceContext.traceId_header, TraceContext.ofInput, hreceived,
    Option.getD_none, hdrawn]

def Ranged (random : Int → Nat → Nat) : Prop :=
  ∀ seed i, random seed i ≤ randMax

def SeedsApart (random : Int → Nat → Nat) : Prop :=
  ∀ pid tv pid' tv', randSeed pid tv ≠ randSeed pid' tv' →
    ∃ i < loopCount, random (randSeed pid tv) i ≠ random (randSeed pid' tv') i

/-- Two trace ids of a worker differ exactly when the microseconds of their
instants seed `random` differently, and the draws differ in what the id
keeps. -/
theorem traceId_ne_iff {headers : HeaderBuild} {build : IdBuild}
    {random : Int → Nat → Nat} (hrange : Ranged random) {pid : Int}
    {tv tv' : Timeval} {state state' : ChainState}
    (h : GeneratedAt headers build random pid tv state)
    (h' : GeneratedAt headers build random pid tv' state') :
    state.pch.traceId.val ≠ state'.pch.traceId.val ↔
      randSeed pid tv ≠ randSeed pid tv' ∧
        keptDraws random (randSeed pid tv) ≠
          keptDraws random (randSeed pid tv') := by
  rw [h.traceId, h'.traceId, Ne, Option.some.injEq, rand64hex_inj hrange]
  constructor
  · intro hkept
    exact ⟨fun hseed => hkept (by rw [hseed]), hkept⟩
  · exact fun hdiffer => hdiffer.2

def bareInput (rand64hex : String) : RequestInput :=
  ⟨false, fun _ => none, "10.0.0.1", 0, 7, rand64hex⟩

def allSampled : CtrlModule :=
  { enable := 1, samplingType := 1, samplingRate := 1, samplingRequest := 0 }

def freshChain : ChainState where
  isSampled := false
  pch := moInitChainHeader .molten "" 0
  span := { stack := [], step := 0 }

def bareStarted (random : Int → Nat → Nat) (pid : Int) (tv : Timeval) :
    ChainState :=
  moChainCtor .molten .random
    (bareInput (rand64hex random (randSeed pid tv)))
    { freshChain with isSampled := true }

theorem generatedAt_bareStarted (random : Int → Nat → Nat) (pid : Int)
    (tv : Timeval) :
    GeneratedAt .molten .random random pid tv (bareStarted random pid tv) :=
  ⟨bareInput _, allSampled, ⟨0, 0⟩, ⟨0, 0⟩, freshChain, rfl, rfl, rfl, rfl⟩

/-- What the C library draws for the seeds 6170 and 7404. -/
def libraryDraws : Int → Nat → Nat
  | 6170, 0 => 1468619818
  | 6170, 1 => 337994607
  | 6170, 2 => 1751170584
  | 7404, 0 => 1977513870
  | 7404, 1 => 833981669
  | 7404, 2 => 1672466541
  | _, _ => 0

theorem ranged_libraryDraws : Ranged libraryDraws := by
  intro seed i
  unfold libraryDraws
  split <;> decide

theorem traceId_ne_libraryDraws :
    (bareStarted libraryDraws 1234 ⟨100, 5⟩).pch.traceId.val ≠
      (bareStarted libraryDraws 1234 ⟨100, 6⟩).pch.traceId.val :=
  (traceId_ne_iff ranged_libraryDraws (generatedAt_bareStarted _ _ _)
    (generatedAt_bareStarted _ _ _)).mpr ⟨by decide, by decide⟩

def seedHalves (seed : Int) : Nat → Nat
  | 0 => (seed % 2 ^ 32).toNat / 2
  | 1 => (seed % 2 ^ 32).toNat % 2
  | _ => 0

theorem ranged_seedHalves : Ranged seedHalves := by
  intro seed i
  have hmax : randMax = 2 ^ 31 - 1 := rfl
  unfold seedHalves
  split <;> omega

theorem randSeed_bounds (pid : Int) (tv : Timeval) :
    -2 ^ 31 ≤ randSeed pid tv ∧ randSeed pid tv < 2 ^ 31 := by
  have hlow := Int.le_bmod (x := tv.tvUsec * pid) (m := 2 ^ 32) (by decide)
  have hhigh := Int.bmod_lt (x := tv.tvUsec * pid) (m := 2 ^ 32) (by decide)
  unfold randSeed
  omega

theorem seedsApart_seedHalves : SeedsApart seedHalves := by
  intro pid tv pid' tv' hne
  obtain ⟨hlow, hhigh⟩ := randSeed_bounds pid tv
  obtain ⟨hlow', hhigh'⟩ := randSeed_bounds pid' tv'
  by_cases hhalf : seedHalves (randSeed pid tv) 0 =
      seedHalves (randSeed pid' tv') 0
  · refine ⟨1, by decide, fun hlast => hne ?_⟩
    simp only [seedHalves] at hhalf hlast
    omega
  · exact ⟨0, by decide, hhalf⟩

theorem traceId_repeats :
    ¬ ∀ random, Ranged random → SeedsApart random →
      ∀ pid tv tv' state state', tv ≠ tv' →
        GeneratedAt .molten .random random pid tv state →
        GeneratedAt .molten .random random pid tv' state' →
        state.pch.traceId.val ≠ state'.pch.traceId.val := by
  intro h
  refine h seedHalves ranged_seedHalves seedsApart_seedHalves 1234 ⟨100, 5⟩
    ⟨101, 5⟩ _ _ (by decide) (generatedAt_bareStarted _ _ _)
    (generatedAt_bareStarted _ _ _) ?_
  rfl

end Molten.Chain
