import Mathlib.Data.List.Nodup
import Mathlib.Logic.Relation

namespace Molten.Data

universe u

variable {α : Type u}

/-! Lists of nodes that name a parent, where a parent stands behind its
children or outside the list. -/

/-- Every parent occurs further back, or is one of the nodes `outside`. -/
def ParentsBehind (outside : α → Prop) : List (α × Option α) → Prop
  | [] => True
  | (_, parent) :: log =>
      (∀ node ∈ parent, outside node ∨ node ∈ log.map Prod.fst) ∧
        ParentsBehind outside log

def ParentEdge (log : List (α × Option α)) (child parent : α) : Prop :=
  (child, some parent) ∈ log

namespace ParentsBehind

variable {outside outside' : α → Prop} {log log' : List (α × Option α)}

theorem parent_mem (h : ParentsBehind outside log) {child parent : α}
    (hedge : ParentEdge log child parent) :
    outside parent ∨ parent ∈ log.map Prod.fst := by
  induction log with
  | nil => exact absurd hedge List.not_mem_nil
  | cons entry log ih =>
      obtain ⟨node, above⟩ := entry
      obtain ⟨hparent, hlog⟩ := h
      rw [List.map_cons]
      have hbehind : outside parent ∨ parent ∈ log.map Prod.fst := by
        rcases List.mem_cons.mp hedge with heq | hedge
        · cases heq
          exact hparent parent rfl
        · exact ih hlog hedge
      exact hbehind.imp_right (List.mem_cons_of_mem _)

theorem parent_after {child parent : α}
    (h : ParentsBehind outside (log ++ (child, some parent) :: log')) :
    outside parent ∨ parent ∈ log'.map Prod.fst := by
  induction log with
  | nil => exact h.1 parent rfl
  | cons entry log ih => exact ih h.2

theorem append (h : ParentsBehind outside log)
    (h' : ParentsBehind outside' log')
    (hweak : ∀ node, outside node →
      outside' node ∨ node ∈ log'.map Prod.fst) :
    ParentsBehind outside' (log ++ log') := by
  induction log with
  | nil => exact h'
  | cons entry log ih =>
      obtain ⟨node, above⟩ := entry
      obtain ⟨hparent, hlog⟩ := h
      refine ⟨fun parent hmem => ?_, ih hlog⟩
      have hmap : (log ++ log').map Prod.fst =
          log.map Prod.fst ++ log'.map Prod.fst := List.map_append
      rw [List.append_eq, hmap, List.mem_append]
      rcases hparent parent hmem with hout | hlater
      · exact (hweak parent hout).imp_right .inr
      · exact .inr (.inl hlater)

theorem weaken (h : ParentsBehind outside log)
    (hweak : ∀ node, outside node → outside' node) :
    ParentsBehind outside' log := by
  have hnil : ParentsBehind outside' [] := trivial
  simpa using h.append hnil fun node hnode => .inl (hweak node hnode)

end ParentsBehind

section Age

variable [DecidableEq α]

/-- How long the list is from the first entry of a node on. -/
def age : List (α × Option α) → α → Nat
  | [], _ => 0
  | (node, _) :: log, other =>
      if other = node then log.length + 1 else age log other

theorem age_le_length (log : List (α × Option α)) (node : α) :
    age log node ≤ log.length := by
  induction log with
  | nil => exact Nat.le_refl 0
  | cons entry log ih =>
      rw [age, List.length_cons]
      split
      · exact Nat.le_refl _
      · exact Nat.le_succ_of_le ih

theorem ParentsBehind.age_lt {log : List (α × Option α)}
    (h : ParentsBehind (fun _ => False) log)
    (hnodup : (log.map Prod.fst).Nodup)
    {child parent : α} (hedge : ParentEdge log child parent) :
    age log parent < age log child := by
  induction log with
  | nil => exact absurd hedge List.not_mem_nil
  | cons entry log ih =>
      obtain ⟨node, above⟩ := entry
      obtain ⟨hparent, hlog⟩ := h
      rw [List.map_cons, List.nodup_cons] at hnodup
      obtain ⟨hfresh, hnodup⟩ := hnodup
      have hmem : ∀ {other}, False ∨ other ∈ log.map Prod.fst →
          other ∈ log.map Prod.fst := fun h => h.resolve_left id
      have hold : ∀ other ∈ log.map Prod.fst, other ≠ node :=
        fun other hmem heq => hfresh (heq ▸ hmem)
      rcases List.mem_cons.mp hedge with heq | hedge
      · cases heq
        rw [age, age, if_neg (hold parent (hmem (hparent parent rfl))),
          if_pos rfl]
        exact Nat.lt_succ_of_le (age_le_length log parent)
      · have hchild : child ∈ log.map Prod.fst :=
          List.mem_map_of_mem (f := Prod.fst) hedge
        rw [age, age, if_neg (hold parent (hmem (hlog.parent_mem hedge))),
          if_neg (hold child hchild)]
        exact ih hlog hnodup hedge

end Age

/-- Distinct nodes whose parents all stand behind them have no cycle. -/
theorem ParentsBehind.acyclic {log : List (α × Option α)}
    (h : ParentsBehind (fun _ => False) log)
    (hnodup : (log.map Prod.fst).Nodup) (node : α) :
    ¬ Relation.TransGen (ParentEdge log) node node := by
  classical
  intro hcycle
  have hage : ∀ {ancestor}, Relation.TransGen (ParentEdge log) node ancestor →
      age log ancestor < age log node := by
    intro ancestor hpath
    induction hpath with
    | single hedge => exact h.age_lt hnodup hedge
    | tail _ hedge ih => exact Nat.lt_trans (h.age_lt hnodup hedge) ih
  exact Nat.lt_irrefl _ (hage hcycle)

end Molten.Data
