import Mathlib.Data.List.Perm.Basic

namespace Molten.Data

/-! Last in, first out, with the list of all that was taken out. -/

/-- The elements that are held, last first, and those that were let go, first
first. -/
structure Lifo (α : Type*) where
  held : List α
  released : List α

namespace Lifo

variable {α : Type*}

inductive Op (α : Type*)
  | push (element : α)
  | pop
  | top
  | second
  | count
  | isEmpty

inductive Answer (α : Type*)
  | nothing
  | element (found : Option α)
  | number (value : Int)
  deriving DecidableEq

def empty : Lifo α := ⟨[], []⟩

/-- A push answers how many elements were held before. -/
def next (lifo : Lifo α) : Op α → Lifo α × Answer α
  | .push element =>
      ({ lifo with held := element :: lifo.held }, .number lifo.held.length)
  | .pop =>
      match lifo.held with
      | [] => (lifo, .nothing)
      | element :: held =>
          (⟨held, lifo.released ++ [element]⟩, .nothing)
  | .top => (lifo, .element lifo.held.head?)
  | .second => (lifo, .element lifo.held.tail.head?)
  | .count => (lifo, .number lifo.held.length)
  | .isEmpty => (lifo, .number (if lifo.held = [] then 1 else 0))

def run (lifo : Lifo α) : List (Op α) → Lifo α × List (Answer α)
  | [] => (lifo, [])
  | op :: ops =>
      let (rest, answers) := (lifo.next op).1.run ops
      (rest, (lifo.next op).2 :: answers)

/-- All that is held is let go, in the order in which it came. -/
def close (lifo : Lifo α) : List α := lifo.released ++ lifo.held.reverse

def Op.pushed : Op α → List α
  | .push element => [element]
  | _ => []

theorem perm_next (lifo : Lifo α) (op : Op α) :
    ((lifo.next op).1.released ++ (lifo.next op).1.held).Perm
      (lifo.released ++ lifo.held ++ op.pushed) := by
  obtain ⟨held, released⟩ := lifo
  cases op with
  | push element =>
      have moved : ([element] ++ held).Perm (held ++ [element]) :=
        List.perm_append_comm
      rw [List.append_assoc]
      exact moved.append_left released
  | pop =>
      cases held with
      | nil => simp [next, Op.pushed]
      | cons element held => simp [next, Op.pushed]
  | top => simp [next, Op.pushed]
  | second => simp [next, Op.pushed]
  | count => simp [next, Op.pushed]
  | isEmpty => simp [next, Op.pushed]

theorem perm_run (lifo : Lifo α) (ops : List (Op α)) :
    ((lifo.run ops).1.released ++ (lifo.run ops).1.held).Perm
      (lifo.released ++ lifo.held ++ ops.flatMap Op.pushed) := by
  induction ops generalizing lifo with
  | nil => simp [run]
  | cons op ops induction =>
      have first := (perm_next lifo op).append_right (ops.flatMap Op.pushed)
      rw [List.append_assoc _ op.pushed] at first
      exact (induction (lifo.next op).1).trans first

/-- Whatever is pushed is let go once, by a pop or at the end. -/
theorem perm_close (ops : List (Op α)) :
    ((empty.run ops).1.close).Perm (ops.flatMap Op.pushed) := by
  have all := perm_run empty ops
  exact ((List.reverse_perm _).append_left _).trans all

end Lifo

end Molten.Data
