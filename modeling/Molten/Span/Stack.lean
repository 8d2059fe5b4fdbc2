import Mathlib.Data.List.Induction
import Mathlib.Order.Basic
import Molten.Data.Lifo
import Molten.Span.Context
import Molten.Text.Block

namespace Molten.Span.Stack

open Molten.Data
open Molten.Text

/-! `mo_stack`, an array that grows by blocks of elements.  `none` is an access
outside of the array, or an `int` that overflows. -/

def int (value : Int) : Option Int :=
  if -2 ^ 31 ≤ value ∧ value < 2 ^ 31 then some value else none

def moStackBlockSize : Nat := 64

/-- `mo_stack`.  A pointer to an element is its distance from `elements`. -/
structure MoStack where
  size : Int
  top : Int
  max : Int
  elements : Option Block

def moStackInit (size : Int) : MoStack where
  size := size
  top := 0
  max := 0
  elements := none

namespace MoStack

/-- `STACK_ELE` -/
def stackEle (stack : MoStack) (m : Int) : Option Int := int (stack.size * m)

def read (stack : MoStack) (pointer : Int) : Option Block := do
  let elements ← stack.elements
  if 0 ≤ pointer then
    Block.load pointer.toNat stack.size.toNat elements
  else none

/-- `erealloc`, where `fresh` is what the memory holds that is new. -/
def erealloc (fresh : Nat → UInt8) (elements : Option Block) (bytes : Int) :
    Block :=
  let kept := (elements.getD []).take bytes.toNat
  kept ++ (List.range' kept.length (bytes.toNat - kept.length)).map fresh

def grow (fresh : Nat → UInt8) (stack : MoStack) : Option MoStack := do
  let max ← int (stack.max + moStackBlockSize)
  let bytes ← int (max * stack.size)
  return { stack with
    max := max
    elements := some (erealloc fresh stack.elements bytes) }

def put (stack : MoStack) (element : Block) : Option (MoStack × Int) := do
  let pointer ← stack.stackEle stack.top
  let bytes ← Block.load 0 stack.size.toNat element
  let elements ← stack.elements
  let elements ← Block.store pointer.toNat bytes elements
  let top ← int (stack.top + 1)
  return ({ stack with top := top, elements := some elements }, stack.top)

/-- The result is the place of the element. -/
def moStackPush (fresh : Nat → UInt8) (stack : MoStack) (element : Block) :
    Option (MoStack × Int) := do
  let stack ← if stack.max ≤ stack.top then stack.grow fresh else some stack
  stack.put element

def moStackTop (stack : MoStack) : Option (Option Int) :=
  if 0 < stack.top then (stack.stackEle (stack.top - 1)).map some
  else some none

def moStackElement (stack : MoStack) (offset : Int) : Option Int := do
  let m ← int (stack.top - 1 - offset)
  stack.stackEle m

def moStackSecElement (stack : MoStack) : Option (Option Int) :=
  if 1 < stack.top then (stack.moStackElement 1).map some
  else some none

/-- With the element that the destructor is called on. -/
def moStackDelTop (stack : MoStack) : Option (MoStack × Block) := do
  let pointer ← stack.stackEle (stack.top - 1)
  let element ← stack.read pointer
  return ({ stack with top := stack.top - 1 }, element)

/-- With what is copied to `element`, unless that is `NULL`, and the elements
that the destructor is called on. -/
def moStackPop (stack : MoStack) (wanted : Bool) :
    Option (MoStack × Option Block × List Block) :=
  if stack.top ≤ 0 then some (stack, none, [])
  else do
    let copied ←
      if wanted then do
        let pointer ← stack.stackEle (stack.top - 1)
        let element ← stack.read pointer
        some (some element)
      else some none
    let (stack, destroyed) ← stack.moStackDelTop
    return (stack, copied, [destroyed])

def moStackEmpty (stack : MoStack) : Int := if stack.top = 0 then 1 else 0

def moStackNum (stack : MoStack) : Int := stack.top

/-- With the elements that the destructor is called on. -/
def moStackDestroy (stack : MoStack) : Option (MoStack × List Block) :=
  match stack.elements with
  | none => some (stack, [])
  | some _ => do
      let destroyed ← (List.range stack.top.toNat).mapM fun (i : Nat) => do
        let pointer ← int (stack.size * i)
        stack.read pointer
      return ({ stack with max := 0, top := 0, elements := none }, destroyed)

end MoStack

/-! Calls in a row. -/

/-- The stack, and the elements that the destructor was called on. -/
structure StackRun where
  stack : MoStack
  destroyed : List Block

namespace StackRun

/-- What a caller sees through a pointer that may be `NULL`. -/
def seen (run : StackRun) : Option Int → Option (Option Block)
  | none => some none
  | some pointer => (run.stack.read pointer).map some

def next (fresh : Nat → UInt8) (run : StackRun) :
    Lifo.Op Block → Option (StackRun × Lifo.Answer Block)
  | .push element => do
      let (stack, place) ← run.stack.moStackPush fresh element
      return ({ run with stack := stack }, .number place)
  | .pop => do
      let (stack, _, destroyed) ← run.stack.moStackPop false
      return (⟨stack, run.destroyed ++ destroyed⟩, .nothing)
  | .top => do
      let pointer ← run.stack.moStackTop
      let element ← run.seen pointer
      return (run, .element element)
  | .second => do
      let pointer ← run.stack.moStackSecElement
      let element ← run.seen pointer
      return (run, .element element)
  | .count => some (run, .number run.stack.moStackNum)
  | .isEmpty => some (run, .number run.stack.moStackEmpty)

def calls (fresh : Nat → UInt8) (run : StackRun) :
    List (Lifo.Op Block) → Option (StackRun × List (Lifo.Answer Block))
  | [] => some (run, [])
  | op :: ops => do
      let (run, answer) ← run.next fresh op
      let (run, answers) ← run.calls fresh ops
      return (run, answer :: answers)

def destroy (run : StackRun) : Option StackRun := do
  let (stack, destroyed) ← run.stack.moStackDestroy
  return ⟨stack, run.destroyed ++ destroyed⟩

end StackRun

theorem int_of_lt {value : Nat} (fits : value < 2 ^ 31) :
    int value = some (value : Int) := by
  apply if_pos
  omega

theorem int_eq_some {value number : Int} (fits : int value = some number) :
    number = value ∧ value < 2 ^ 31 := by
  rw [int] at fits
  split at fits
  · cases fits
    exact ⟨rfl, (‹_ ∧ _›).2⟩
  · cases fits

/-- The array of `blocks` blocks holds the elements, first pushed first. -/
structure Holds (stack : MoStack) (size blocks : Nat) (held : List Block) :
    Prop where
  size_eq : stack.size = size
  top_eq : stack.top = held.length
  max_eq : stack.max = (blocks * moStackBlockSize : Nat)
  present : 0 < blocks → ∃ elements, stack.elements = some elements
  length_eq : (stack.elements.getD []).length =
    blocks * moStackBlockSize * size
  spelled : held.reverse.flatten <+: stack.elements.getD []
  within : held.length ≤ blocks * moStackBlockSize
  lengths : ∀ element ∈ held, element.length = size
  max_fits : blocks * moStackBlockSize < 2 ^ 31
  bytes_fit : blocks * moStackBlockSize * size < 2 ^ 31

theorem holds_init {size : Nat} : Holds (moStackInit size) size 0 [] where
  size_eq := rfl
  top_eq := rfl
  max_eq := rfl
  present := nofun
  length_eq := (Nat.zero_mul _).symm
  spelled := List.nil_prefix
  within := Nat.zero_le _
  lengths := nofun
  max_fits := by decide
  bytes_fit := by
    rw [Nat.zero_mul, Nat.zero_mul]
    decide

namespace Holds

variable {stack : MoStack} {size blocks : Nat} {held : List Block}

theorem stackEle_eq (holds : Holds stack size blocks held) {i : Nat}
    (within : i < blocks * moStackBlockSize) :
    stack.stackEle i = some ((size * i : Nat) : Int) := by
  have inside : size * i ≤ blocks * moStackBlockSize * size := by
    rw [Nat.mul_comm size]
    exact Nat.mul_le_mul_right size within.le
  rw [MoStack.stackEle, holds.size_eq, ← Int.natCast_mul]
  exact int_of_lt (inside.trans_lt holds.bytes_fit)

theorem elements_eq (holds : Holds stack size blocks held)
    (ne_nil : held ≠ []) :
    stack.elements = some (stack.elements.getD []) := by
  have positive : 0 < blocks := by
    have length := List.length_pos_of_ne_nil ne_nil
    exact Nat.pos_of_mul_pos_right (length.trans_le holds.within)
  obtain ⟨elements, present⟩ := holds.present positive
  rw [present]
  rfl

theorem read_eq (holds : Holds stack size blocks held) {i : Nat}
    {element : Block} (found : held.reverse[i]? = some element) :
    stack.stackEle i = some ((size * i : Nat) : Int) ∧
      stack.read ((size * i : Nat) : Int) = some element := by
  have inside : i < held.length := by
    rw [← List.length_reverse]
    exact (List.getElem?_eq_some_iff.mp found).1
  have ne_nil : held ≠ [] := List.ne_nil_of_length_pos (Nat.zero_lt_of_lt inside)
  refine ⟨holds.stackEle_eq (inside.trans_le holds.within), ?_⟩
  rw [MoStack.read, holds.elements_eq ne_nil, Option.bind_eq_bind,
    Option.bind_some, if_pos (Int.natCast_nonneg _), Int.toNat_natCast,
    holds.size_eq, Int.toNat_natCast]
  exact Block.load_element
    (fun element member => holds.lengths element (List.mem_reverse.mp member))
    holds.spelled found

theorem top_le_max (holds : Holds stack size blocks held) :
    stack.top ≤ stack.max := by
  rw [holds.top_eq, holds.max_eq]
  exact Int.ofNat_le.mpr holds.within

theorem filled (holds : Holds stack size blocks held)
    (full : held.length = blocks * moStackBlockSize) :
    stack.max ≤ stack.top := by
  apply Int.le_of_eq
  rw [holds.max_eq, holds.top_eq, full]

/-! A push. -/

theorem erealloc_eq (fresh : Nat → UInt8) {elements : Option Block}
    {bytes : Nat} (more : (elements.getD []).length ≤ bytes) :
    ∃ rest, MoStack.erealloc fresh elements bytes =
        elements.getD [] ++ rest ∧
      (elements.getD [] ++ rest).length = bytes := by
  refine ⟨_, congrArg (· ++ _) (List.take_of_length_le more), ?_⟩
  rw [List.length_append, List.length_map, List.length_range',
    Int.toNat_natCast, List.take_of_length_le more]
  omega

theorem grow_eq (holds : Holds stack size blocks held)
    (fresh : Nat → UInt8)
    (max_fits : (blocks + 1) * moStackBlockSize < 2 ^ 31)
    (bytes_fit : (blocks + 1) * moStackBlockSize * size < 2 ^ 31) :
    ∃ grown, stack.grow fresh = some grown ∧
      Holds grown size (blocks + 1) held := by
  have max_eq : stack.max + moStackBlockSize =
      ((blocks + 1) * moStackBlockSize : Nat) := by
    rw [holds.max_eq, Nat.succ_mul, Int.natCast_add]
  have more : (stack.elements.getD []).length ≤
      (blocks + 1) * moStackBlockSize * size := by
    rw [holds.length_eq]
    exact Nat.mul_le_mul_right _ (Nat.mul_le_mul_right _ (Nat.le_succ _))
  obtain ⟨rest, erealloc, length⟩ := erealloc_eq fresh more
  have grown : Holds { stack with
      max := ((blocks + 1) * moStackBlockSize : Nat)
      elements := some (stack.elements.getD [] ++ rest) }
      size (blocks + 1) held := {
    size_eq := holds.size_eq
    top_eq := holds.top_eq
    max_eq := rfl
    present := fun _ => ⟨_, rfl⟩
    length_eq := length
    spelled := holds.spelled.trans (List.prefix_append _ _)
    within := holds.within.trans
      (Nat.mul_le_mul_right _ (Nat.le_succ blocks))
    lengths := holds.lengths
    max_fits := max_fits
    bytes_fit := bytes_fit }
  refine ⟨_, ?_, grown⟩
  rw [MoStack.grow, max_eq, int_of_lt max_fits, Option.bind_eq_bind,
    Option.bind_some, holds.size_eq, ← Int.natCast_mul,
    int_of_lt bytes_fit, Option.bind_some, erealloc]
  rfl

theorem put_eq (holds : Holds stack size blocks held) {element : Block}
    (length : element.length = size)
    (room : held.length < blocks * moStackBlockSize) :
    ∃ after, stack.put element = some (after, (held.length : Int)) ∧
      Holds after size blocks (element :: held) := by
  obtain ⟨elements, present⟩ := holds.present
    (Nat.pos_of_mul_pos_right (Nat.zero_lt_of_lt room))
  have spelled := holds.spelled
  have length_eq := holds.length_eq
  rw [present, Option.getD_some] at spelled length_eq
  obtain ⟨rest, rfl⟩ := spelled
  have before : held.reverse.flatten.length = size * held.length := by
    rw [Block.length_flatten_of_forall fun element member =>
      holds.lengths element (List.mem_reverse.mp member), List.length_reverse]
  have fits : size * held.length + element.length ≤
      (held.reverse.flatten ++ rest).length := by
    rw [length_eq, length, ← Nat.mul_succ, Nat.mul_comm size]
    exact Nat.mul_le_mul_right size room
  have stored := Block.store_eq_some fits
  rw [← before, List.take_left] at stored
  have after : Holds { stack with
      top := ((held.length + 1 : Nat) : Int)
      elements := some (held.reverse.flatten ++ (element ++
        (held.reverse.flatten ++ rest).drop
          (held.reverse.flatten.length + element.length))) }
      size blocks (element :: held) := {
    size_eq := holds.size_eq
    top_eq := rfl
    max_eq := holds.max_eq
    present := fun _ => ⟨_, rfl⟩
    length_eq := (Block.length_store stored).trans length_eq
    spelled := by
      rw [List.reverse_cons, List.flatten_append, List.flatten_singleton,
        Option.getD_some, ← List.append_assoc]
      exact List.prefix_append _ _
    within := room
    lengths := List.forall_mem_cons.mpr ⟨length, holds.lengths⟩
    max_fits := holds.max_fits
    bytes_fit := holds.bytes_fit }
  refine ⟨_, ?_, after⟩
  have top : stack.top + 1 = ((held.length + 1 : Nat) : Int) := by
    rw [holds.top_eq]
    rfl
  rw [MoStack.put, holds.top_eq, holds.stackEle_eq room, present,
    holds.size_eq, ← holds.top_eq, top,
    int_of_lt (Nat.lt_of_le_of_lt room holds.max_fits)]
  simp only [Option.bind_eq_bind, Option.bind_some, Int.toNat_natCast,
    Block.load_self length, ← before, stored, Option.pure_def]

end Holds

/-! The bound on a run. -/

/-- How many blocks it takes to hold so many elements. -/
def blocksFor (depth : Nat) : Nat :=
  (depth + (moStackBlockSize - 1)) / moStackBlockSize

/-- The number of elements in the blocks, and their bytes, are `int`s. -/
def Fits (size depth : Nat) : Prop :=
  blocksFor depth * moStackBlockSize < 2 ^ 31 ∧
    blocksFor depth * moStackBlockSize * size < 2 ^ 31

instance (size depth : Nat) : Decidable (Fits size depth) :=
  inferInstanceAs (Decidable (_ ∧ _))

theorem blocksFor_le {depth blocks : Nat}
    (within : depth ≤ blocks * moStackBlockSize) :
    blocksFor depth ≤ blocks := by
  rw [moStackBlockSize] at within
  rw [blocksFor, moStackBlockSize]
  omega

theorem blocksFor_full (blocks : Nat) :
    blocksFor (blocks * moStackBlockSize + 1) = blocks + 1 := by
  rw [blocksFor, moStackBlockSize]
  omega

theorem Fits.mono {size depth deeper : Nat} (fits : Fits size deeper)
    (fewer : depth ≤ deeper) : Fits size depth := by
  have blocks : blocksFor depth ≤ blocksFor deeper :=
    Nat.div_le_div_right (Nat.add_le_add_right fewer _)
  have elements := Nat.mul_le_mul_right moStackBlockSize blocks
  exact ⟨elements.trans_lt fits.1,
    (Nat.mul_le_mul_right size elements).trans_lt fits.2⟩

namespace Holds

variable {stack : MoStack} {size blocks : Nat} {held : List Block}

theorem fits (holds : Holds stack size blocks held) :
    Fits size held.length := by
  have fewer := Nat.mul_le_mul_right moStackBlockSize
    (blocksFor_le holds.within)
  exact ⟨fewer.trans_lt holds.max_fits,
    (Nat.mul_le_mul_right size fewer).trans_lt holds.bytes_fit⟩

theorem push_eq (holds : Holds stack size blocks held) (fresh : Nat → UInt8)
    {element : Block} (length : element.length = size)
    (fits : Fits size (held.length + 1)) :
    ∃ after blocks, stack.moStackPush fresh element =
        some (after, (held.length : Int)) ∧
      Holds after size blocks (element :: held) := by
  rcases Nat.lt_or_eq_of_le holds.within with room | full
  · obtain ⟨after, put, holds'⟩ := holds.put_eq length room
    refine ⟨after, blocks, ?_, holds'⟩
    have roomy : ¬ stack.max ≤ stack.top := by
      rw [holds.max_eq, holds.top_eq, Int.ofNat_le]
      exact Nat.not_le_of_lt room
    rw [MoStack.moStackPush, if_neg roomy]
    exact put
  · rw [Fits, full, blocksFor_full] at fits
    obtain ⟨grown, grow, holds'⟩ := holds.grow_eq fresh fits.1 fits.2
    have room : held.length < (blocks + 1) * moStackBlockSize := by
      rw [full, Nat.succ_mul]
      exact Nat.lt_add_of_pos_right (by decide)
    obtain ⟨after, put, holds'⟩ := holds'.put_eq length room
    refine ⟨after, blocks + 1, ?_, holds'⟩
    rw [MoStack.moStackPush, if_pos (holds.filled full), grow]
    exact put

theorem fits_of_push (holds : Holds stack size blocks held)
    {fresh : Nat → UInt8} {element : Block} {pushed : MoStack × Int}
    (returned : stack.moStackPush fresh element = some pushed) :
    Fits size (held.length + 1) := by
  rcases Nat.lt_or_eq_of_le holds.within with room | full
  · have fewer := Nat.mul_le_mul_right moStackBlockSize (blocksFor_le room)
    exact ⟨fewer.trans_lt holds.max_fits,
      (Nat.mul_le_mul_right size fewer).trans_lt holds.bytes_fit⟩
  · rw [MoStack.moStackPush, if_pos (holds.filled full)] at returned
    obtain ⟨grown, grow, -⟩ := Option.bind_eq_some_iff.mp returned
    rw [MoStack.grow] at grow
    obtain ⟨max, max_int, grow⟩ := Option.bind_eq_some_iff.mp grow
    obtain ⟨bytes, bytes_int, -⟩ := Option.bind_eq_some_iff.mp grow
    obtain ⟨rfl, max_fits⟩ := int_eq_some max_int
    have bytes_fit := (int_eq_some bytes_int).2
    have max_eq : stack.max + moStackBlockSize =
        ((blocks + 1) * moStackBlockSize : Nat) := by
      rw [holds.max_eq, Nat.succ_mul, Int.natCast_add]
    rw [max_eq, holds.size_eq, ← Int.natCast_mul] at bytes_fit
    rw [max_eq] at max_fits
    rw [Fits, full, blocksFor_full]
    exact ⟨by exact_mod_cast max_fits, by exact_mod_cast bytes_fit⟩

/-! The element at the top, and the one below. -/

theorem top_read (holds : Holds stack size blocks held) {element : Block}
    {below : List Block} (spelled : held = element :: below) :
    stack.stackEle (stack.top - 1) =
        some ((size * below.length : Nat) : Int) ∧
      stack.read ((size * below.length : Nat) : Int) = some element := by
  have place : stack.top - 1 = (below.length : Int) := by
    rw [holds.top_eq, spelled, List.length_cons, Int.natCast_succ]
    exact Int.add_sub_cancel _ 1
  rw [place]
  apply holds.read_eq
  rw [spelled, List.reverse_cons, ← List.length_reverse]
  exact List.getElem?_concat_length

theorem moStackTop_eq (holds : Holds stack size blocks held)
    (destroyed : List Block) :
    ∃ pointer, stack.moStackTop = some pointer ∧
      StackRun.seen ⟨stack, destroyed⟩ pointer = some held.head? := by
  cases spelled : held with
  | nil =>
      refine ⟨none, ?_, rfl⟩
      rw [MoStack.moStackTop, holds.top_eq, spelled]
      rfl
  | cons element below =>
      obtain ⟨pointer, read⟩ := holds.top_read spelled
      refine ⟨some _, ?_, congrArg (Option.map some) read⟩
      have positive : 0 < stack.top := by
        rw [holds.top_eq, spelled, List.length_cons]
        exact Int.natCast_succ_pos _
      rw [MoStack.moStackTop, if_pos positive, pointer]
      rfl

theorem moStackSecElement_eq (holds : Holds stack size blocks held)
    (destroyed : List Block) :
    ∃ pointer, stack.moStackSecElement = some pointer ∧
      StackRun.seen ⟨stack, destroyed⟩ pointer = some held.tail.head? := by
  match spelled : held with
  | [] =>
      refine ⟨none, ?_, rfl⟩
      rw [MoStack.moStackSecElement, holds.top_eq]
      rfl
  | [_] =>
      refine ⟨none, ?_, rfl⟩
      rw [MoStack.moStackSecElement, holds.top_eq]
      rfl
  | top :: second :: below =>
      have found : (top :: second :: below).reverse[below.length]? =
          some second := by
        rw [List.reverse_cons, List.reverse_cons,
          List.getElem?_append_left (by simp), ← List.length_reverse]
        exact List.getElem?_concat_length
      obtain ⟨pointer, read⟩ := holds.read_eq found
      refine ⟨some _, ?_, congrArg (Option.map some) read⟩
      have depth : stack.top = ((below.length + 2 : Nat) : Int) :=
        holds.top_eq
      have place : int (stack.top - 1 - 1) = some (below.length : Int) := by
        have bound := holds.within.trans_lt holds.max_fits
        rw [List.length_cons, List.length_cons] at bound
        rw [depth, ← int_of_lt (by omega)]
        congr 1
        omega
      have several : 1 < stack.top := by
        rw [depth]
        omega
      rw [MoStack.moStackSecElement, if_pos several,
        MoStack.moStackElement, place, Option.bind_eq_bind,
        Option.bind_some, pointer]
      rfl

/-! A pop. -/

theorem moStackPop_nil (holds : Holds stack size blocks []) (wanted : Bool) :
    stack.moStackPop wanted = some (stack, none, []) := by
  have nothing : stack.top ≤ 0 := Int.le_of_eq holds.top_eq
  rw [MoStack.moStackPop, if_pos nothing]

theorem moStackPop_cons {element : Block} {below : List Block}
    (holds : Holds stack size blocks (element :: below)) :
    ∃ after, stack.moStackPop false = some (after, none, [element]) ∧
      Holds after size blocks below := by
  obtain ⟨pointer, read⟩ := holds.top_read rfl
  have positive : ¬ stack.top ≤ 0 := by
    rw [holds.top_eq, List.length_cons]
    omega
  have after : Holds { stack with top := stack.top - 1 } size blocks below := {
    size_eq := holds.size_eq
    top_eq := by
      show stack.top - 1 = below.length
      rw [holds.top_eq, List.length_cons]
      omega
    max_eq := holds.max_eq
    present := holds.present
    length_eq := holds.length_eq
    spelled := by
      refine List.IsPrefix.trans ?_ holds.spelled
      rw [List.reverse_cons, List.flatten_append]
      exact List.prefix_append _ _
    within := (Nat.le_succ _).trans holds.within
    lengths := (List.forall_mem_cons.mp holds.lengths).2
    max_fits := holds.max_fits
    bytes_fit := holds.bytes_fit }
  refine ⟨_, ?_, after⟩
  rw [MoStack.moStackPop, if_neg positive]
  simp only [Bool.false_eq_true, if_false, MoStack.moStackDelTop, pointer,
    read, Option.bind_eq_bind, Option.bind_some, Option.pure_def]

/-! The end. -/

theorem mapM_range {β : Type} {f : Nat → Option β} {found : List β}
    (finds : ∀ i element, found[i]? = some element → f i = some element) :
    (List.range found.length).mapM f = some found := by
  induction found using List.reverseRecOn with
  | nil => rfl
  | append_singleton found last induction =>
      have earlier : ∀ i element, found[i]? = some element →
          f i = some element := by
        intro i element member
        apply finds
        rw [List.getElem?_append_left (List.getElem?_eq_some_iff.mp member).1]
        exact member
      rw [List.length_append, List.length_singleton, List.range_succ,
        List.mapM_append, induction earlier, List.mapM_cons,
        finds found.length last List.getElem?_concat_length]
      rfl

theorem moStackDestroy_eq (holds : Holds stack size blocks held) :
    ∃ after, stack.moStackDestroy = some (after, held.reverse) := by
  cases present : stack.elements with
  | none =>
      have nothing : held = [] := by
        by_contra ne_nil
        rw [holds.elements_eq ne_nil] at present
        cases present
      refine ⟨stack, ?_⟩
      rw [MoStack.moStackDestroy, present, nothing]
      rfl
  | some elements =>
      have reads : (List.range held.reverse.length).mapM (fun (i : Nat) => do
          let pointer ← int (stack.size * i)
          stack.read pointer) = some held.reverse := by
        apply mapM_range
        intro i element found
        obtain ⟨pointer, read⟩ := holds.read_eq found
        rw [MoStack.stackEle] at pointer
        rw [pointer]
        exact read
      rw [List.length_reverse] at reads
      rw [MoStack.moStackDestroy, present, holds.top_eq, Int.toNat_natCast,
        reads]
      exact ⟨_, rfl⟩

end Holds

/-! The run of a stack against the list. -/

/-- The array holds what the list holds, and the destructor was called on what
the list let go. -/
structure Matches (size : Nat) (run : StackRun) (lifo : Lifo Block) : Prop where
  holds : ∃ blocks, Holds run.stack size blocks lifo.held
  destroyed : run.destroyed = lifo.released

section Calls

variable {size : Nat} {run : StackRun} {lifo : Lifo Block}

theorem Matches.next (same : Matches size run lifo) (fresh : Nat → UInt8)
    (op : Lifo.Op Block)
    (lengths : ∀ element ∈ op.pushed, element.length = size)
    (fits : Fits size (lifo.next op).1.held.length) :
    ∃ after, run.next fresh op = some (after, (lifo.next op).2) ∧
      Matches size after (lifo.next op).1 := by
  obtain ⟨blocks, holds⟩ := same.holds
  cases op with
  | push element =>
      obtain ⟨after, blocks, pushed, holds'⟩ :=
        holds.push_eq fresh (lengths element (.head [])) fits
      refine ⟨⟨after, run.destroyed⟩, ?_, ⟨blocks, holds'⟩, same.destroyed⟩
      rw [StackRun.next, pushed]
      rfl
  | pop =>
      match held : lifo.held with
      | [] =>
          rw [held] at holds
          refine ⟨run, ?_, ?_⟩
          · rw [StackRun.next, holds.moStackPop_nil, Lifo.next, held]
            simp
          · rw [Lifo.next, held]
            exact same
      | element :: below =>
          rw [held] at holds
          obtain ⟨after, popped, holds'⟩ := holds.moStackPop_cons
          refine ⟨⟨after, run.destroyed ++ [element]⟩, ?_, ?_⟩
          · rw [StackRun.next, popped, Lifo.next, held]
            rfl
          · rw [Lifo.next, held]
            exact ⟨⟨blocks, holds'⟩, congrArg (· ++ [element]) same.destroyed⟩
  | top =>
      obtain ⟨pointer, returned, seen⟩ := holds.moStackTop_eq run.destroyed
      refine ⟨run, ?_, same⟩
      rw [StackRun.next, returned, Option.bind_eq_bind, Option.bind_some, seen]
      rfl
  | second =>
      obtain ⟨pointer, returned, seen⟩ :=
        holds.moStackSecElement_eq run.destroyed
      refine ⟨run, ?_, same⟩
      rw [StackRun.next, returned, Option.bind_eq_bind, Option.bind_some, seen]
      rfl
  | count =>
      refine ⟨run, ?_, same⟩
      rw [StackRun.next, MoStack.moStackNum, holds.top_eq]
      rfl
  | isEmpty =>
      refine ⟨run, ?_, same⟩
      rw [StackRun.next, MoStack.moStackEmpty, holds.top_eq, Lifo.next]
      simp

theorem Matches.fits_of_next (same : Matches size run lifo)
    {fresh : Nat → UInt8} {op : Lifo.Op Block}
    {returned : StackRun × Lifo.Answer Block}
    (next : run.next fresh op = some returned) :
    Fits size (lifo.next op).1.held.length := by
  obtain ⟨blocks, holds⟩ := same.holds
  cases op with
  | push element =>
      rw [StackRun.next] at next
      obtain ⟨pushed, returns, -⟩ := Option.bind_eq_some_iff.mp next
      exact holds.fits_of_push returns
  | pop =>
      have fewer : (lifo.next .pop).1.held.length ≤ lifo.held.length := by
        rw [Lifo.next]
        split
        · exact le_rfl
        · rename_i held
          rw [held]
          exact Nat.le_succ _
      exact holds.fits.mono fewer
  | top => exact holds.fits
  | second => exact holds.fits
  | count => exact holds.fits
  | isEmpty => exact holds.fits

theorem Matches.init (size : Nat) :
    Matches size ⟨moStackInit size, []⟩ Lifo.empty :=
  ⟨⟨0, holds_init⟩, rfl⟩

theorem Matches.calls (same : Matches size run lifo) (fresh : Nat → UInt8)
    {ops : List (Lifo.Op Block)}
    (lengths : ∀ element ∈ ops.flatMap Lifo.Op.pushed, element.length = size)
    (fits : ∀ earlier, earlier <+: ops →
      Fits size (lifo.run earlier).1.held.length) :
    ∃ after, run.calls fresh ops = some (after, (lifo.run ops).2) ∧
      Matches size after (lifo.run ops).1 := by
  induction ops generalizing run lifo with
  | nil => exact ⟨run, rfl, same⟩
  | cons op ops induction =>
      have first : Fits size (lifo.next op).1.held.length :=
        fits [op] ⟨ops, rfl⟩
      obtain ⟨middle, next, same⟩ := same.next fresh op
        (fun element member =>
          lengths element (List.mem_append_left _ member)) first
      obtain ⟨after, calls, same⟩ := induction same
        (fun element member =>
          lengths element (List.mem_append_right _ member))
        (fun earlier early =>
          fits (op :: earlier) (List.cons_prefix_cons.mpr ⟨rfl, early⟩))
      refine ⟨after, ?_, same⟩
      rw [StackRun.calls, next, Option.bind_eq_bind, Option.bind_some]
      dsimp only
      rw [calls]
      rfl

theorem Matches.fits_of_calls (same : Matches size run lifo)
    {fresh : Nat → UInt8} {ops : List (Lifo.Op Block)}
    (lengths : ∀ element ∈ ops.flatMap Lifo.Op.pushed, element.length = size)
    {returned : StackRun × List (Lifo.Answer Block)}
    (calls : run.calls fresh ops = some returned) :
    Fits size (lifo.run ops).1.held.length := by
  induction ops generalizing run lifo returned with
  | nil =>
      obtain ⟨blocks, holds⟩ := same.holds
      exact holds.fits
  | cons op ops induction =>
      rw [StackRun.calls] at calls
      obtain ⟨first, next, calls⟩ := Option.bind_eq_some_iff.mp calls
      obtain ⟨rest, calls, -⟩ := Option.bind_eq_some_iff.mp calls
      have fits := same.fits_of_next next
      obtain ⟨after, next', same⟩ := same.next fresh op
        (fun element member =>
          lengths element (List.mem_append_left _ member)) fits
      cases next.symm.trans next'
      exact induction same
        (fun element member =>
          lengths element (List.mem_append_right _ member)) calls

end Calls

/-- A stack from its start, with elements of its size. -/
structure StackUse where
  size : Nat
  fresh : Nat → UInt8
  ops : List (Lifo.Op Block)
  lengths : ∀ element ∈ ops.flatMap Lifo.Op.pushed, element.length = size

namespace StackUse

def run (use : StackUse) (ops : List (Lifo.Op Block)) :
    Option (StackRun × List (Lifo.Answer Block)) :=
  StackRun.calls use.fresh ⟨moStackInit use.size, []⟩ ops

/-- After any calls the answers are those of the list, `top` is within `max`,
and the destructor was called on what was popped.  At the end it was called once
on each element that was pushed. -/
structure Refines (use : StackUse) : Prop where
  calls : ∀ earlier, earlier <+: use.ops → ∃ run,
    use.run earlier = some (run, (Lifo.empty.run earlier).2) ∧
      run.stack.top ≤ run.stack.max ∧
      run.destroyed = (Lifo.empty.run earlier).1.released
  destroy : ∃ run answers closed, use.run use.ops = some (run, answers) ∧
    run.destroy = some closed ∧
    closed.destroyed = (Lifo.empty.run use.ops).1.close ∧
    closed.destroyed.Perm (use.ops.flatMap Lifo.Op.pushed)

/-- The stack is never deeper than its blocks may be. -/
def StaysWithin (use : StackUse) : Prop :=
  ∀ earlier, earlier <+: use.ops →
    Fits use.size (Lifo.empty.run earlier).1.held.length

theorem lengths_earlier (use : StackUse) {earlier : List (Lifo.Op Block)}
    (early : earlier <+: use.ops) :
    ∀ element ∈ earlier.flatMap Lifo.Op.pushed,
      element.length = use.size := by
  intro element member
  obtain ⟨op, within, pushed⟩ := List.mem_flatMap.mp member
  exact use.lengths element
    (List.mem_flatMap.mpr ⟨op, early.subset within, pushed⟩)

theorem run_matches {use : StackUse} (within : use.StaysWithin)
    {earlier : List (Lifo.Op Block)} (early : earlier <+: use.ops) :
    ∃ run, use.run earlier = some (run, (Lifo.empty.run earlier).2) ∧
      Matches use.size run (Lifo.empty.run earlier).1 :=
  (Matches.init use.size).calls use.fresh (use.lengths_earlier early)
    fun _ before => within _ (before.trans early)

end StackUse

/-- The stack behaves as the list of what was pushed, just when the elements
of its blocks and their bytes can be counted by an `int` at its deepest. -/
theorem moStack_refines_iff (use : StackUse) :
    use.Refines ↔ use.StaysWithin := by
  constructor
  · intro refines earlier early
    obtain ⟨run, calls, -⟩ := refines.calls earlier early
    exact (Matches.init use.size).fits_of_calls (use.lengths_earlier early)
      calls
  · intro within
    constructor
    · intro earlier early
      obtain ⟨run, calls, ⟨blocks, holds⟩, destroyed⟩ :=
        StackUse.run_matches within early
      exact ⟨run, calls, holds.top_le_max, destroyed⟩
    · obtain ⟨run, calls, ⟨blocks, holds⟩, destroyed⟩ :=
        StackUse.run_matches within List.prefix_rfl
      obtain ⟨after, destroy⟩ := holds.moStackDestroy_eq
      have closed : run.destroyed ++
          (Lifo.empty.run use.ops).1.held.reverse =
          (Lifo.empty.run use.ops).1.close := by
        rw [destroyed]
        rfl
      refine ⟨run, _, ⟨after, run.destroyed ++ _⟩, calls, ?_, closed, ?_⟩
      · rw [StackRun.destroy, destroy]
        rfl
      · rw [closed]
        exact Lifo.perm_close use.ops

def hugeElement : StackUse where
  size := 2 ^ 25
  fresh := fun _ => 0
  ops := [.push (List.replicate (2 ^ 25) 0)]
  lengths := by
    intro element member
    obtain rfl := List.mem_singleton.mp member
    exact List.length_replicate

theorem not_refines_hugeElement : ¬ hugeElement.Refines := by
  intro refines
  obtain ⟨run, calls, -⟩ := refines.calls hugeElement.ops List.prefix_rfl
  have fits : Fits (2 ^ 25) 1 :=
    (Matches.init (2 ^ 25)).fits_of_calls hugeElement.lengths calls
  exact absurd fits (by decide)

/-! The span stack as such a list. -/

/-- `sizeof(mo_span_context)`, or that of a pointer. -/
def contextSize : IdBuild → Nat
  | .level => 16
  | .random => 8

theorem fits_contextSize (build : IdBuild) {depth : Nat}
    (within : depth ≤ 2 ^ 27 - 64) : Fits (contextSize build) depth := by
  rw [Fits, blocksFor, moStackBlockSize]
  cases build with
  | level =>
      rw [contextSize]
      omega
  | random =>
      rw [contextSize]
      omega

def idsLifo (state : SpanState) : Lifo String := ⟨state.ids, []⟩

theorem next_pushSpanContext (build : IdBuild) (state : SpanState) :
    ((idsLifo state).next (.push (state.nextSpanId build))).1 =
      idsLifo (state.pushSpanContext build) := by
  rw [idsLifo, idsLifo, SpanState.ids_pushSpanContext]
  rfl

theorem held_popSpanContext (state : SpanState) :
    ((idsLifo state).next .pop).1.held =
      (idsLifo state.popSpanContext).held := by
  rw [idsLifo, idsLifo, SpanState.ids_popSpanContext, Lifo.next]
  cases state.ids with
  | nil => rfl
  | cons top below => rfl

theorem top_retrieveSpanId (state : SpanState) :
    ((idsLifo state).next .top).2 = .element state.retrieveSpanId := by
  rw [SpanState.retrieveSpanId_eq]
  rfl

theorem second_retrieveParentSpanId (state : SpanState) :
    ((idsLifo state).next .second).2 =
      .element state.retrieveParentSpanId := by
  rw [SpanState.retrieveParentSpanId_eq]
  rfl

end Molten.Span.Stack
