import Mathlib.Algebra.Group.Int.Defs
import Mathlib.Algebra.Group.Nat.Defs
import Mathlib.Data.List.Infix
import Mathlib.Logic.Function.Basic
import Molten.Control.Machine

namespace Molten.Shm

open Molten.Control

/-! The shared segment: a header that counts the attached processes, and slots
that are filled once. -/

def payloadSize : Nat := 1024

abbrev moMaxSlot : Nat := 16

def moSlotMagic : UInt32 := 0xa78ac1d5

def moSlotHeaderMagic : UInt32 := 0xb77c81ba

abbrev Payload := { bytes : List UInt8 // bytes.length = payloadSize }

namespace Payload

def zero : Payload := ⟨List.replicate payloadSize 0, List.length_replicate⟩

/-- The payload cleared, and `data` copied to its start. -/
def filled (data : List UInt8) (h : data.length ≤ payloadSize) : Payload :=
  ⟨data ++ List.replicate (payloadSize - data.length) 0, by
    rw [List.length_append, List.length_replicate]
    omega⟩

end Payload

structure Slot where
  magic : UInt32
  init : Int
  lenght : Int
  payload : Payload

structure SlotHeader where
  init : Int
  attachNum : Int
  magic : UInt32
  slotNum : Int

structure Segment where
  header : SlotHeader
  slots : Fin moMaxSlot → Slot

def Segment.created : Segment where
  header := { init := 0, attachNum := 0, magic := 0, slotNum := 0 }
  slots _ := { magic := 0, init := 0, lenght := 0, payload := .zero }

def slotMagic (slot : Fin moMaxSlot) : UInt32 :=
  moSlotMagic + UInt32.ofNat slot

def Slot.IsInit (element : Slot) (slot : Fin moMaxSlot) : Prop :=
  element.init = 1 ∧ element.magic = slotMagic slot

instance (element : Slot) (slot : Fin moMaxSlot) :
    Decidable (element.IsInit slot) :=
  inferInstanceAs (Decidable (_ ∧ _))

/-- `mo_shm_ctor` once the segment is mapped and the lock is taken. -/
def moShmCtor (segment : Segment) : Segment :=
  let header :=
    if segment.header.magic ≠ moSlotHeaderMagic ∨ segment.header.init ≠ 1 then
      { segment.header with
        magic := moSlotHeaderMagic
        init := 1
        slotNum := moMaxSlot }
    else segment.header
  { segment with
    header :=
      { header with attachNum := (header.attachNum + 1).bmod (2 ^ 32) } }

/-- The payload returned, or `none` for `NULL`. -/
def moCreateSlot (segment : Segment) (slot : Fin moMaxSlot)
    (data : List UInt8) : Option Payload × Segment :=
  if h : data.length ≤ payloadSize then
    let slots :=
      if ¬ (segment.slots slot).IsInit slot then
        Function.update segment.slots slot
          { magic := slotMagic slot
            init := 1
            lenght := data.length
            payload := .filled data h }
      else segment.slots
    (some (slots slot).payload, { segment with slots })
  else (none, segment)

def moRealseSlot (slot : Fin moMaxSlot) (element : Slot) : Slot :=
  if ¬ element.IsInit slot then
    { magic := 0, init := 0, lenght := 0, payload := .zero }
  else element

/-- `mo_shm_dtor`, on a segment that other mappings keep. -/
def moShmDtor (segment : Segment) : Segment :=
  let attachNum := (segment.header.attachNum - 1).bmod (2 ^ 32)
  if attachNum = 0 then
    { header := { init := 0, attachNum, magic := 0, slotNum := 0 }
      slots := fun slot =>
        if (slot : Int) < segment.header.slotNum then
          moRealseSlot slot (segment.slots slot)
        else segment.slots slot }
  else { segment with header := { segment.header with attachNum } }

/-! Runs of complete calls, by any processes in any order. -/

inductive ShmCall
  | ctor
  | createSlot (slot : Fin moMaxSlot) (data : List UInt8)
  | dtor

/-- The segment, and whether any slot was created in it so far. -/
structure Host where
  segment : Segment
  slotCreated : Bool

def Host.next (host : Host) : ShmCall → Host
  | .ctor => { host with segment := moShmCtor host.segment }
  | .createSlot slot data =>
      { segment := (moCreateSlot host.segment slot data).2
        slotCreated := host.slotCreated || decide (data.length ≤ payloadSize) }
  | .dtor => { host with segment := moShmDtor host.segment }

def Host.created : Host := { segment := .created, slotCreated := false }

def Segment.KeepsPayloads (before after : Segment) : Prop :=
  ∀ slot, (after.slots slot).payload = (before.slots slot).payload

/-- The next `mo_create_slot` returns a payload that starts with its data. -/
def Segment.Reusable (segment : Segment) : Prop :=
  ∀ slot data, data.length ≤ payloadSize →
    ∃ payload, (moCreateSlot segment slot data).1 = some payload ∧
      data <+: payload.1

def LifeCycle (host : Host) (call : ShmCall) : Prop :=
  match call with
  | .ctor => True
  | .createSlot slot data =>
      (host.segment.slots slot).IsInit slot →
        host.segment.KeepsPayloads (moCreateSlot host.segment slot data).2
  | .dtor =>
      (0 < (moShmDtor host.segment).header.attachNum →
        host.segment.KeepsPayloads (moShmDtor host.segment)) ∧
      ((moShmDtor host.segment).header.attachNum = 0 →
        (∀ slot, ¬ ((moShmDtor host.segment).slots slot).IsInit slot) ∧
          (moShmDtor host.segment).Reusable)

/-- The last detach comes before any slot was created. -/
def NothingToRelease (host : Host) (call : ShmCall) : Prop :=
  match call with
  | .dtor =>
      (moShmDtor host.segment).header.attachNum = 0 →
        host.slotCreated = false
  | _ => True

section Calls

variable {segment : Segment} {slot : Fin moMaxSlot} {data : List UInt8}

theorem moCreateSlot_of_isInit (h : (segment.slots slot).IsInit slot)
    (data : List UInt8) :
    (moCreateSlot segment slot data).2 = segment := by
  unfold moCreateSlot
  by_cases hdata : data.length ≤ payloadSize
  · rw [dif_pos hdata]
    dsimp only
    rw [if_neg (not_not.mpr h)]
  · rw [dif_neg hdata]

theorem moCreateSlot_of_not_isInit
    (h : ¬ (segment.slots slot).IsInit slot)
    (hdata : data.length ≤ payloadSize) :
    (moCreateSlot segment slot data).1 = some (.filled data hdata) := by
  unfold moCreateSlot
  rw [dif_pos hdata]
  dsimp only
  rw [if_pos h, Function.update_self]

theorem prefix_filled (hdata : data.length ≤ payloadSize) :
    data <+: (Payload.filled data hdata).1 :=
  List.prefix_append _ _

theorem isInit_moCreateSlot (other : Fin moMaxSlot) :
    ((moCreateSlot segment slot data).2.slots other).IsInit other ↔
      (segment.slots other).IsInit other ∨
        other = slot ∧ data.length ≤ payloadSize := by
  unfold moCreateSlot
  by_cases hdata : data.length ≤ payloadSize
  · rw [dif_pos hdata]
    dsimp only
    by_cases hinit : (segment.slots slot).IsInit slot
    · rw [if_neg (not_not.mpr hinit)]
      constructor
      · exact .inl
      · rintro (h | ⟨rfl, -⟩)
        · exact h
        · exact hinit
    · rw [if_pos hinit]
      by_cases hother : other = slot
      · subst hother
        rw [Function.update_self]
        exact ⟨fun _ => .inr ⟨rfl, hdata⟩, fun _ => ⟨rfl, rfl⟩⟩
      · rw [Function.update_of_ne hother]
        simp [hother]
  · rw [dif_neg hdata]
    simp [hdata]

theorem isInit_moRealseSlot {element : Slot} :
    (moRealseSlot slot element).IsInit slot ↔ element.IsInit slot := by
  unfold moRealseSlot
  split
  · rename_i h
    exact ⟨fun hcleared => absurd hcleared.1 (by decide), fun hinit => absurd hinit h⟩
  · exact Iff.rfl

theorem isInit_moShmDtor :
    ((moShmDtor segment).slots slot).IsInit slot ↔
      (segment.slots slot).IsInit slot := by
  unfold moShmDtor
  dsimp only
  split
  · dsimp only
    split
    · exact isInit_moRealseSlot
    · exact Iff.rfl
  · exact Iff.rfl

theorem keepsPayloads_moShmDtor
    (h : (moShmDtor segment).header.attachNum ≠ 0) :
    segment.KeepsPayloads (moShmDtor segment) := by
  intro slot
  unfold moShmDtor at h ⊢
  dsimp only at h ⊢
  split
  · rename_i hzero
    rw [if_pos hzero] at h
    exact absurd hzero h
  · rfl

theorem reusable_of_not_isInit
    (h : ∀ slot, ¬ (segment.slots slot).IsInit slot) :
    segment.Reusable := fun slot _ hdata =>
  ⟨_, moCreateSlot_of_not_isInit (h slot) hdata, prefix_filled hdata⟩

end Calls

/-- Some slot is initialised exactly when one was created. -/
structure Host.Records (host : Host) : Prop where
  iff : host.slotCreated = true ↔
    ∃ slot, (host.segment.slots slot).IsInit slot

theorem records_created : Host.created.Records := by
  refine ⟨nofun, ?_⟩
  rintro ⟨slot, hinit, -⟩
  have hinit : (0 : Int) = 1 := hinit
  contradiction

theorem records_next {host : Host} (h : host.Records) (call : ShmCall) :
    (host.next call).Records := by
  cases call with
  | ctor => exact ⟨h.iff⟩
  | createSlot slot data =>
      refine ⟨?_⟩
      show (host.slotCreated || decide (data.length ≤ payloadSize)) = true ↔
        ∃ other, ((moCreateSlot host.segment slot data).2.slots other).IsInit
          other
      rw [Bool.or_eq_true, decide_eq_true_iff, h.iff]
      simp only [isInit_moCreateSlot, exists_or, exists_eq_left]
  | dtor =>
      refine ⟨?_⟩
      show host.slotCreated = true ↔
        ∃ slot, ((moShmDtor host.segment).slots slot).IsInit slot
      rw [h.iff]
      simp only [isInit_moShmDtor]

theorem lifeCycle_iff {host : Host} (h : host.Records) (call : ShmCall) :
    LifeCycle host call ↔ NothingToRelease host call := by
  cases call with
  | ctor => exact Iff.rfl
  | createSlot slot data =>
      refine ⟨fun _ => trivial, fun _ hinit other => ?_⟩
      rw [moCreateSlot_of_isInit hinit]
  | dtor =>
      constructor
      · rintro ⟨-, hreleased⟩ hzero
        rw [Bool.eq_false_iff, Ne, h.iff]
        rintro ⟨slot, hinit⟩
        exact (hreleased hzero).1 slot (isInit_moShmDtor.mpr hinit)
      · intro hnothing
        refine ⟨fun hpos => keepsPayloads_moShmDtor (Int.ne_of_gt hpos), fun hzero => ?_⟩
        have hfree : ∀ slot,
            ¬ ((moShmDtor host.segment).slots slot).IsInit slot := by
          intro slot hinit
          have hcreated := h.iff.mpr ⟨slot, isInit_moShmDtor.mp hinit⟩
          rw [hnothing hzero] at hcreated
          contradiction
        exact ⟨hfree, reusable_of_not_isInit hfree⟩

/-- A run keeps to the life cycle exactly when no slot was created before the
last detach. -/
theorem lifeCycle_along_iff (calls : List ShmCall) :
    Along Host.next LifeCycle .created calls ↔
      Along Host.next NothingToRelease .created calls :=
  along_congr Host.Records (fun _ call h => lifeCycle_iff h call)
    (fun _ call h _ => records_next h call) records_created calls

theorem slot_survives :
    ¬ Along Host.next LifeCycle .created
      [.ctor, .createSlot 0 [7], .dtor] := by
  rintro ⟨-, -, ⟨-, hreleased⟩, -⟩
  exact (hreleased (by decide)).1 0 (by decide)

end Molten.Shm
