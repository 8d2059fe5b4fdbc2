import Mathlib.Order.Basic
import Molten.Control.Interleaving

namespace Molten.Shm

open Molten.Control

/-! The `fcntl` lock that guards the start and the end of the shared memory.
Every process opens the lock path and unlinks it. -/

/-- The inode the lock path names, if any, and the first unused inode. -/
structure LockPath where
  linked : Option Nat
  unused : Nat
  deriving DecidableEq, Repr

/-- Where a process stands, with the inode its descriptor is open on. -/
inductive LockPhase
  | start
  | opened (inode : Nat)
  | ready (inode : Nat)
  | critical (inode : Nat)
  | closed
  deriving DecidableEq, Repr

namespace LockPhase

def inode : LockPhase → Option Nat
  | .start | .closed => none
  | .opened inode | .ready inode | .critical inode => some inode

def IsCritical : LockPhase → Prop
  | .critical _ => True
  | _ => False

end LockPhase

def LockPath.found (path : LockPath) : Nat := path.linked.getD path.unused

def LockPath.openCreate (path : LockPath) : LockPath where
  linked := some path.found
  unused := max path.unused (path.found + 1)

def LockPath.unlink (path : LockPath) : LockPath :=
  { path with linked := none }

/-- The system calls of a process: `mo_fcntl_locK_init` opens and unlinks, then
`mo_fcntl_wlock` and `mo_fcntl_wunlock` alternate, and
`mo_fcntl_lock_destroy` closes. -/
inductive LockMove : LockPath → LockPhase → LockPath → LockPhase → Prop
  | openCreate {path : LockPath} :
      LockMove path .start path.openCreate (.opened path.found)
  | unlink {path : LockPath} {inode : Nat} :
      LockMove path (.opened inode) path.unlink (.ready inode)
  | wlock {path : LockPath} {inode : Nat} :
      LockMove path (.ready inode) path (.critical inode)
  | wunlock {path : LockPath} {inode : Nat} :
      LockMove path (.critical inode) path (.ready inode)
  | destroy {path : LockPath} {inode : Nat} :
      LockMove path (.ready inode) path .closed

/-- `F_SETLKW` waits while another process has the lock on its inode. -/
def lockProtocol : Protocol LockPath LockPhase where
  move := LockMove
  beside _ _ p' q := ∀ inode, p' = .critical inode → q ≠ .critical inode
  drift _ _ := False

def LockStarts {ι : Type*} (pool : Pool ι LockPath LockPhase) : Prop :=
  ∀ i, pool.procs i = .start

def Exclusive {ι : Type*} (pool : Pool ι LockPath LockPhase) : Prop :=
  ∀ i j, i ≠ j → (pool.procs i).IsCritical → ¬ (pool.procs j).IsCritical

/-! Processes that open the same inode. -/

/-- Every `open` yields the inode on which every other process that holds the
file has it open. -/
def sameInode : Protocol LockPath LockPhase :=
  lockProtocol.guarded (fun _ _ _ => True) fun path p _ q =>
    p = .start → ∀ inode, q.inode = some inode → inode = path.found

def oneInode : Assertion LockPath LockPhase where
  common _ := True
  own _ _ := True
  pair _ p q :=
    (∀ inode inode', p.inode = some inode → q.inode = some inode' →
      inode = inode') ∧
    ¬ (p.IsCritical ∧ q.IsCritical)

theorem oneInode_other {path path' : LockPath} {p p' q : LockPhase}
    (hmove : sameInode.move path p path' p')
    (hbeside : sameInode.beside path p p' q)
    (hpair : oneInode.pair path p q) :
    oneInode.pair path' p' q := by
  obtain ⟨hmove, -⟩ := hmove
  obtain ⟨hfree, hsame⟩ := hbeside
  obtain ⟨hinode, hcritical⟩ := hpair
  cases hmove with
  | openCreate =>
      refine ⟨?_, fun h => h.1⟩
      rintro inode inode' ⟨⟩ hq
      exact (hsame rfl inode' hq).symm
  | unlink => exact ⟨hinode, fun h => h.1⟩
  | @wlock inode =>
      refine ⟨hinode, fun h => ?_⟩
      cases q with
      | critical inode' =>
          have heq : inode = inode' := hinode inode inode' rfl rfl
          exact hfree inode rfl (by rw [heq])
      | _ => exact h.2
  | wunlock => exact ⟨hinode, fun h => h.1⟩
  | destroy => exact ⟨nofun, fun h => h.1⟩

theorem oneInode_keptBy : oneInode.KeptBy sameInode where
  symm h := ⟨fun inode inode' hp hq => (h.1 inode' inode hq hp).symm,
    fun hcritical => h.2 hcritical.symm⟩
  mover _ _ _ := ⟨trivial, trivial⟩
  other _ _ hmove hbeside _ hpair :=
    ⟨trivial, oneInode_other hmove hbeside hpair⟩
  others _ _ _ _ _ hpair := hpair
  drift _ hdrift := hdrift.elim

theorem oneInode_starts {ι : Type*} {pool : Pool ι LockPath LockPhase}
    (h : LockStarts pool) : oneInode.Holds pool where
  common := trivial
  own _ := trivial
  pair i j _ := by
    rw [h i, h j]
    exact ⟨nofun, fun hcritical => hcritical.1⟩

/-- Processes whose opens all yield one inode exclude each other. -/
theorem exclusive_of_sameInode {ι : Type*} [DecidableEq ι]
    {start last : Pool ι LockPath LockPhase} (hstart : LockStarts start)
    (hrun : sameInode.Run start last) :
    Exclusive last :=
  fun i j hij hi hj =>
    (((oneInode_starts hstart).run oneInode_keptBy hrun).pair i j hij).2
      ⟨hi, hj⟩

/-- Two processes that are ready on different inodes can both enter. -/
theorem not_exclusive_of_ready {ι : Type*} [DecidableEq ι]
    {pool : Pool ι LockPath LockPhase} {inode inode' : Nat} (i j : ι)
    (hi : pool.procs i = .ready inode) (hj : pool.procs j = .ready inode')
    (hne : inode ≠ inode') (hfree : ∀ k, ¬ (pool.procs k).IsCritical) :
    ∃ last, lockProtocol.Run pool last ∧ ¬ Exclusive last := by
  have hij : i ≠ j := by
    rintro rfl
    rw [hi] at hj
    exact hne (LockPhase.ready.inj hj)
  have hfirst : lockProtocol.Step pool
      (pool.moved i pool.shared (.critical inode)) := by
    refine .move i ?_ fun k _ held _ hk => hfree k ?_
    · rw [hi]
      exact .wlock
    · rw [hk]
      trivial
  have hsecond : lockProtocol.Step (pool.moved i pool.shared (.critical inode))
      ((pool.moved i pool.shared (.critical inode)).moved j pool.shared
        (.critical inode')) := by
    refine .move j ?_ fun k hk held hheld => ?_
    · rw [Pool.moved_other _ hij.symm, hj]
      exact .wlock
    · obtain rfl := LockPhase.critical.inj hheld
      by_cases hki : k = i
      · subst hki
        rw [Pool.moved_self]
        exact fun h => hne (LockPhase.critical.inj h)
      · rw [Pool.moved_other _ hki]
        intro h
        exact hfree k (by rw [h]; trivial)
  refine ⟨_, .tail (.single hfirst) hsecond, fun hexclusive => ?_⟩
  refine hexclusive i j hij ?_ ?_
  · rw [Pool.moved_other _ hij, Pool.moved_self]
    trivial
  · rw [Pool.moved_self]
    trivial

def twoProcesses : Pool (Fin 2) LockPath LockPhase where
  shared := { linked := none, unused := 7 }
  procs _ := .start

theorem exclusive_twoProcesses :
    Exclusive ((((twoProcesses.moved 0 ⟨some 7, 8⟩ (.opened 7)).moved 1
      ⟨some 7, 8⟩ (.opened 7)).moved 0 ⟨none, 8⟩ (.ready 7)).moved 0
        ⟨none, 8⟩ (.critical 7)) := by
  have hstart : LockStarts twoProcesses := fun _ => rfl
  refine exclusive_of_sameInode hstart ?_
  refine .head (.move 0 ⟨.openCreate, trivial⟩ fun j hj => ?_) ?_
  · obtain rfl : j = 1 := by omega
    exact ⟨nofun, nofun⟩
  refine .head (.move 1 ⟨.openCreate, trivial⟩ fun j hj => ?_) ?_
  · obtain rfl : j = 0 := by omega
    exact ⟨nofun, fun _ inode hq => (Option.some.inj hq).symm⟩
  refine .head (.move 0 ⟨.unlink, trivial⟩ fun j hj => ?_) ?_
  · exact ⟨nofun, nofun⟩
  refine .head (.move 0 ⟨.wlock, trivial⟩ fun j hj => ?_) .refl
  obtain rfl : j = 1 := by omega
  exact ⟨nofun, nofun⟩

def onTwoInodes : Pool (Fin 2) LockPath LockPhase :=
  (((twoProcesses.moved 0 ⟨some 7, 8⟩ (.opened 7)).moved 0 ⟨none, 8⟩
    (.ready 7)).moved 1 ⟨some 8, 9⟩ (.opened 8)).moved 1 ⟨none, 9⟩ (.ready 8)

theorem onTwoInodes_reached : lockProtocol.Run twoProcesses onTwoInodes := by
  refine .head (.move 0 .openCreate fun j hj => nofun) ?_
  refine .head (.move 0 .unlink fun j hj => nofun) ?_
  refine .head (.move 1 .openCreate fun j hj => nofun) ?_
  exact .head (.move 1 .unlink fun j hj => nofun) .refl

theorem not_exclusive_twoProcesses :
    ∃ start last : Pool (Fin 2) LockPath LockPhase,
      LockStarts start ∧ lockProtocol.Run start last ∧ ¬ Exclusive last := by
  have hfree : ∀ k, ¬ (onTwoInodes.procs k).IsCritical := by
    intro k
    match k with
    | 0 => exact id
    | 1 => exact id
  obtain ⟨last, hrun, hlast⟩ :=
    not_exclusive_of_ready 0 1 rfl rfl (by decide) hfree
  exact ⟨twoProcesses, last, fun _ => rfl, onTwoInodes_reached.trans hrun,
    hlast⟩

end Molten.Shm
