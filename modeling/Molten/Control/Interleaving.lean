import Mathlib.Logic.Function.Basic
import Mathlib.Logic.Relation

namespace Molten.Control

/-! Processes that share one state and move one at a time. -/

structure Pool (ι σ π : Type*) where
  shared : σ
  procs : ι → π

structure Protocol (σ π : Type*) where
  move : σ → π → σ → π → Prop
  /-- What a move asks of every process other than the one that makes it. -/
  beside : σ → π → π → π → Prop
  /-- What may happen to the shared state between the moves. -/
  drift : σ → σ → Prop

section Steps

variable {ι σ π : Type*} [DecidableEq ι]

def Pool.moved (pool : Pool ι σ π) (i : ι) (shared : σ) (proc : π) :
    Pool ι σ π :=
  { shared, procs := Function.update pool.procs i proc }

@[simp] theorem Pool.moved_self (pool : Pool ι σ π) (i : ι) (shared : σ)
    (proc : π) :
    (pool.moved i shared proc).procs i = proc :=
  Function.update_self ..

theorem Pool.moved_other (pool : Pool ι σ π) {i j : ι} (h : j ≠ i)
    (shared : σ) (proc : π) :
    (pool.moved i shared proc).procs j = pool.procs j :=
  Function.update_of_ne h ..

inductive Protocol.Step (protocol : Protocol σ π) :
    Pool ι σ π → Pool ι σ π → Prop
  | move {pool : Pool ι σ π} (i : ι) {shared : σ} {proc : π}
      (hmove : protocol.move pool.shared (pool.procs i) shared proc)
      (hbeside : ∀ j, j ≠ i →
        protocol.beside pool.shared (pool.procs i) proc (pool.procs j)) :
      Step protocol pool (pool.moved i shared proc)
  | drift {pool : Pool ι σ π} {shared : σ}
      (hdrift : protocol.drift pool.shared shared) :
      Step protocol pool { pool with shared }

def Protocol.Run (protocol : Protocol σ π) :
    Pool ι σ π → Pool ι σ π → Prop :=
  Relation.ReflTransGen protocol.Step

/-- The processes of `schedule` move in turn, each as `advance` says. -/
def Pool.plays (advance : σ → π → σ × π) (pool : Pool ι σ π)
    (schedule : List ι) : Pool ι σ π :=
  schedule.foldl (fun pool i =>
    pool.moved i (advance pool.shared (pool.procs i)).1
      (advance pool.shared (pool.procs i)).2) pool

theorem Protocol.Run.plays {protocol : Protocol σ π}
    {advance : σ → π → σ × π}
    (hmove : ∀ s p, protocol.move s p (advance s p).1 (advance s p).2)
    (hbeside : ∀ s p p' q, protocol.beside s p p' q)
    (pool : Pool ι σ π) (schedule : List ι) :
    protocol.Run pool (pool.plays advance schedule) := by
  induction schedule generalizing pool with
  | nil => exact Relation.ReflTransGen.refl
  | cons i schedule ih =>
      exact .head (.move i (hmove _ _) fun _ _ => hbeside _ _ _ _) (ih _)

/-- What every move of a process makes less is less by the number of its
moves. -/
theorem Pool.measure_plays {advance : σ → π → σ × π} {measure : π → Nat}
    (hless : ∀ s p, measure (advance s p).2 ≤ measure p - 1)
    (pool : Pool ι σ π) (schedule : List ι) (i : ι) :
    measure ((pool.plays advance schedule).procs i) ≤
      measure (pool.procs i) - schedule.count i := by
  induction schedule generalizing pool with
  | nil => exact Nat.le_refl _
  | cons j schedule ih =>
      refine Nat.le_trans (ih (pool.moved j _ _)) ?_
      by_cases hj : i = j
      · subst hj
        have hmove := hless pool.shared (pool.procs i)
        rw [Pool.moved_self, List.count_cons_self]
        omega
      · apply Nat.le_of_eq
        rw [Pool.moved_other pool hj, List.count_cons_of_ne (Ne.symm hj)]

/-- The moves of `protocol` that are made under the condition `allowed` and
beside processes that all satisfy `apart`. -/
def Protocol.guarded (protocol : Protocol σ π) (allowed : σ → π → π → Prop)
    (apart : σ → π → π → π → Prop) : Protocol σ π where
  move s p s' p' := protocol.move s p s' p' ∧ allowed s p p'
  beside s p p' q := protocol.beside s p p' q ∧ apart s p p' q
  drift := protocol.drift

end Steps

/-! An assertion says something of the shared state, of each process, and of
each two processes.  It is kept when the process that moves keeps its own part
and does not interfere with the parts of the others. -/

structure Assertion (σ π : Type*) where
  common : σ → Prop
  own : σ → π → Prop
  pair : σ → π → π → Prop

namespace Assertion

variable {ι σ π : Type*} [DecidableEq ι]

structure Holds (assertion : Assertion σ π) (pool : Pool ι σ π) : Prop where
  common : assertion.common pool.shared
  own : ∀ i, assertion.own pool.shared (pool.procs i)
  pair : ∀ i j, i ≠ j →
    assertion.pair pool.shared (pool.procs i) (pool.procs j)

structure KeptBy (assertion : Assertion σ π) (protocol : Protocol σ π) :
    Prop where
  symm : ∀ {s p q}, assertion.pair s p q → assertion.pair s q p
  mover : ∀ {s p s' p'}, assertion.common s → assertion.own s p →
    protocol.move s p s' p' → assertion.common s' ∧ assertion.own s' p'
  other : ∀ {s p s' p' q}, assertion.common s → assertion.own s p →
    protocol.move s p s' p' → protocol.beside s p p' q →
    assertion.own s q → assertion.pair s p q →
    assertion.own s' q ∧ assertion.pair s' p' q
  others : ∀ {s p s' p' q r}, assertion.common s → assertion.own s p →
    protocol.move s p s' p' → assertion.own s q → assertion.own s r →
    assertion.pair s q r → assertion.pair s' q r
  drift : ∀ {s s'}, assertion.common s → protocol.drift s s' →
    assertion.common s' ∧ (∀ q, assertion.own s q → assertion.own s' q) ∧
      ∀ q r, assertion.pair s q r → assertion.pair s' q r

variable {assertion : Assertion σ π} {protocol : Protocol σ π}
  {pool next : Pool ι σ π}

theorem Holds.moved (hholds : assertion.Holds pool)
    (hkept : assertion.KeptBy protocol) {i : ι} {shared : σ} {proc : π}
    (hmove : protocol.move pool.shared (pool.procs i) shared proc)
    (hbeside : ∀ j, j ≠ i →
      protocol.beside pool.shared (pool.procs i) proc (pool.procs j)) :
    assertion.Holds (pool.moved i shared proc) := by
  obtain ⟨hcommon, hown⟩ :=
    hkept.mover hholds.common (hholds.own i) hmove
  have hother : ∀ j, j ≠ i → assertion.own shared (pool.procs j) ∧
      assertion.pair shared proc (pool.procs j) := fun j hj =>
    hkept.other hholds.common (hholds.own i) hmove (hbeside j hj)
      (hholds.own j) (hholds.pair i j hj.symm)
  refine ⟨hcommon, fun j => ?_, fun j k hjk => ?_⟩
  · by_cases hj : j = i
    · subst hj
      rw [Pool.moved_self]
      exact hown
    · rw [Pool.moved_other _ hj]
      exact (hother j hj).1
  · by_cases hj : j = i
    · subst hj
      rw [Pool.moved_self, Pool.moved_other _ hjk.symm]
      exact (hother k hjk.symm).2
    · by_cases hk : k = i
      · subst hk
        rw [Pool.moved_self, Pool.moved_other _ hj]
        exact hkept.symm (hother j hj).2
      · rw [Pool.moved_other _ hj, Pool.moved_other _ hk]
        exact hkept.others hholds.common (hholds.own i) hmove
          (hholds.own j) (hholds.own k) (hholds.pair j k hjk)

theorem Holds.step (hholds : assertion.Holds pool)
    (hkept : assertion.KeptBy protocol) (hstep : protocol.Step pool next) :
    assertion.Holds next := by
  cases hstep with
  | move i hmove hbeside => exact hholds.moved hkept hmove hbeside
  | drift hdrift =>
      obtain ⟨hcommon, hown, hpair⟩ := hkept.drift hholds.common hdrift
      exact ⟨hcommon, fun i => hown _ (hholds.own i),
        fun i j hij => hpair _ _ (hholds.pair i j hij)⟩

theorem Holds.run (hholds : assertion.Holds pool)
    (hkept : assertion.KeptBy protocol) (hrun : protocol.Run pool next) :
    assertion.Holds next := by
  induction hrun with
  | refl => exact hholds
  | tail _ hstep ih => exact ih.step hkept hstep

end Assertion

end Molten.Control
