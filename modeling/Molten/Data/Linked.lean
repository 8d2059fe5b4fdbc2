import Mathlib.Data.List.Nodup

namespace Molten.Data

/-! Lists of nodes that are linked both ways. -/

variable {Node : Type*}

/-- `nodes` are linked to each other, to the node before them and to the node
behind them. -/
def Linked (next prev : Node → Option Node) (before : Option Node) :
    List Node → Option Node → Prop
  | [], _ => True
  | node :: nodes, after =>
      prev node = before ∧ next node = nodes.head?.or after ∧
        Linked next prev (some node) nodes after

section

variable {next prev next' prev' : Node → Option Node}
variable {before after : Option Node} {nodes front back : List Node}

theorem linked_append :
    Linked next prev before (front ++ back) after ↔
      Linked next prev before front (back.head?.or after) ∧
        Linked next prev (front.getLast?.or before) back after := by
  induction front generalizing before with
  | nil => simp [Linked]
  | cons node front induction =>
      rw [List.cons_append, Linked, Linked, induction, List.head?_append]
      cases front with
      | nil => simp [and_assoc]
      | cons other front => simp [List.getLast?_cons, and_assoc]

theorem Linked.congr (linked : Linked next prev before nodes after)
    (sameNext : ∀ node ∈ nodes, next' node = next node)
    (samePrev : ∀ node ∈ nodes, prev' node = prev node) :
    Linked next' prev' before nodes after := by
  induction nodes generalizing before with
  | nil => trivial
  | cons node nodes induction =>
      obtain ⟨first, second, rest⟩ := linked
      refine ⟨?_, ?_, induction rest ?_ ?_⟩
      · rw [samePrev node List.mem_cons_self, first]
      · rw [sameNext node List.mem_cons_self, second]
      · exact fun other member =>
          sameNext other (List.mem_cons_of_mem node member)
      · exact fun other member =>
          samePrev other (List.mem_cons_of_mem node member)

theorem getLast?_ne_of_notMem {node : Node}
    (absent : node ∉ nodes) : nodes.getLast? ≠ some node :=
  fun last => absent (List.mem_of_getLast? last)

theorem head?_ne_of_notMem {node : Node}
    (absent : node ∉ nodes) : nodes.head? ≠ some node :=
  fun first => absent (List.mem_of_head? first)

end

/-! Writes. -/

variable [DecidableEq Node]

section

variable {α : Type*}

/-- A write to the node at a place, if there is one. -/
def setAt (f : Node → α) (place : Option Node) (value : α) : Node → α :=
  fun node => if place = some node then value else f node

@[simp] theorem setAt_none (f : Node → α) (value : α) :
    setAt f none value = f := rfl

@[simp] theorem setAt_self (f : Node → α) (node : Node) (value : α) :
    setAt f (some node) value node = value := if_pos rfl

theorem setAt_of_ne {f : Node → α} {place : Option Node} {value : α}
    {node : Node} (ne : place ≠ some node) :
    setAt f place value node = f node := if_neg ne

theorem setAt_eq_self {f : Node → α} {node : Node} {value : α}
    (same : f node = value) : setAt f (some node) value = f := by
  funext other
  by_cases here : some node = some other
  · cases here
    rw [setAt_self, same]
  · exact setAt_of_ne here

theorem setAt_setAt (f : Node → α) (place : Option Node) (value other : α) :
    setAt (setAt f place value) place other = setAt f place other := by
  funext node
  by_cases here : place = some node
  · rw [here, setAt_self, setAt_self]
  · rw [setAt_of_ne here, setAt_of_ne here, setAt_of_ne here]

/-- What is written over does not matter. -/
theorem setAt_over (f : Node → α) (place between : Option Node)
    (value value' other : α) :
    setAt (setAt (setAt f place value) between value') place other =
      setAt (setAt f between value') place other := by
  funext node
  by_cases here : place = some node
  · rw [here, setAt_self, setAt_self]
  · rw [setAt_of_ne here, setAt_of_ne here]
    by_cases there : between = some node
    · rw [there, setAt_self, setAt_self]
    · rw [setAt_of_ne there, setAt_of_ne there, setAt_of_ne here]

theorem setAt_comm (f : Node → α) {place place' : Option Node}
    (apart : ∀ node, place = some node → place' ≠ some node)
    (value value' : α) :
    setAt (setAt f place value) place' value' =
      setAt (setAt f place' value') place value := by
  funext node
  by_cases here : place = some node
  · rw [setAt_of_ne (apart node here), here, setAt_self, setAt_self]
  · rw [setAt_of_ne here]
    by_cases there : place' = some node
    · rw [there, setAt_self, setAt_self]
    · rw [setAt_of_ne there, setAt_of_ne there, setAt_of_ne here]

end

variable {next prev : Node → Option Node}
variable {before after : Option Node} {nodes front back : List Node}
variable {node item : Node}

theorem Linked.setAt_next (linked : Linked next prev before nodes after)
    {place : Option Node} (apart : ∀ node ∈ nodes, place ≠ some node)
    (value : Option Node) :
    Linked (setAt next place value) prev before nodes after :=
  linked.congr (fun _ member => setAt_of_ne (apart _ member)) fun _ _ => rfl

theorem Linked.setAt_prev (linked : Linked next prev before nodes after)
    {place : Option Node} (apart : ∀ node ∈ nodes, place ≠ some node)
    (value : Option Node) :
    Linked next (setAt prev place value) before nodes after :=
  linked.congr (fun _ _ => rfl) fun _ member => setAt_of_ne (apart _ member)

/-- The node behind is another one. -/
theorem Linked.relink_next (linked : Linked next prev before nodes after)
    (nodup : nodes.Nodup) (value : Option Node) :
    Linked (setAt next nodes.getLast? value) prev before nodes value := by
  induction nodes generalizing before with
  | nil => trivial
  | cons node nodes induction =>
      obtain ⟨absent, nodup⟩ := List.nodup_cons.mp nodup
      obtain ⟨first, second, rest⟩ := linked
      cases nodes with
      | nil => exact ⟨first, by simp, trivial⟩
      | cons other nodes =>
          refine ⟨first, ?_, induction rest nodup⟩
          rw [List.getLast?_cons_cons,
            setAt_of_ne (getLast?_ne_of_notMem absent), second]
          rfl

/-- The node before is another one. -/
theorem Linked.relink_prev (linked : Linked next prev before nodes after)
    (nodup : nodes.Nodup) (value : Option Node) :
    Linked next (setAt prev nodes.head? value) value nodes after := by
  cases nodes with
  | nil => trivial
  | cons node nodes =>
      obtain ⟨absent, -⟩ := List.nodup_cons.mp nodup
      obtain ⟨-, second, rest⟩ := linked
      refine ⟨setAt_self _ _ _, second, rest.setAt_prev ?_ _⟩
      rintro other member same
      cases same
      exact absent member

/-- A node is put between two others. -/
theorem Linked.insert (linked : Linked next prev none (front ++ back) none)
    (nodup : (front ++ item :: back).Nodup) :
    Linked
      (setAt (setAt next (some item) back.head?) front.getLast? (some item))
      (setAt (setAt prev (some item) front.getLast?) back.head? (some item))
      none (front ++ item :: back) none := by
  obtain ⟨nodupFront, nodupRest, apart⟩ := List.nodup_append.mp nodup
  obtain ⟨absent, nodupBack⟩ := List.nodup_cons.mp nodupRest
  have outside : item ∉ front := fun member =>
    apart item member item List.mem_cons_self rfl
  rw [linked_append] at linked ⊢
  obtain ⟨ahead, behind⟩ := linked
  refine ⟨?_, ?_, ?_, ?_⟩
  · have aside : ∀ other ∈ front, some item ≠ some other := by
      rintro other member same
      cases same
      exact outside member
    have kept := (ahead.setAt_next aside back.head?).relink_next nodupFront
      (some item)
    refine (kept.congr (fun _ _ => rfl) fun other member => ?_)
    rw [setAt_of_ne, setAt_of_ne]
    · rintro same
      cases same
      exact outside member
    · exact head?_ne_of_notMem fun found =>
        apart other member other (List.mem_cons_of_mem item found) rfl
  · rw [setAt_of_ne (head?_ne_of_notMem absent), setAt_self,
      Option.or_none]
  · rw [setAt_of_ne (getLast?_ne_of_notMem outside), setAt_self,
      Option.or_none]
  · have aside : ∀ other ∈ back, some item ≠ some other := by
      rintro other member same
      cases same
      exact absent member
    have kept := (behind.setAt_prev aside front.getLast?).relink_prev nodupBack
      (some item)
    refine (kept.congr (fun other member => ?_) fun _ _ => rfl)
    rw [setAt_of_ne, setAt_of_ne]
    · rintro same
      cases same
      exact absent member
    · exact getLast?_ne_of_notMem fun found =>
        apart other found other (List.mem_cons_of_mem item member) rfl

/-- A node is taken out. -/
theorem Linked.remove
    (linked : Linked next prev none (front ++ node :: back) none)
    (nodup : (front ++ node :: back).Nodup) :
    Linked (setAt next front.getLast? back.head?)
      (setAt prev back.head? front.getLast?) none (front ++ back) none := by
  obtain ⟨nodupFront, nodupRest, apart⟩ := List.nodup_append.mp nodup
  obtain ⟨absent, nodupBack⟩ := List.nodup_cons.mp nodupRest
  rw [linked_append] at linked ⊢
  obtain ⟨ahead, -, -, behind⟩ := linked
  rw [Option.or_none, Option.or_none]
  refine ⟨?_, ?_⟩
  · refine (ahead.relink_next nodupFront back.head?).congr (fun _ _ => rfl) ?_
    intro other member
    exact setAt_of_ne (head?_ne_of_notMem fun found =>
      apart other member other (List.mem_cons_of_mem node found) rfl)
  · refine (behind.relink_prev nodupBack front.getLast?).congr ?_ fun _ _ => rfl
    intro other member
    exact setAt_of_ne (getLast?_ne_of_notMem fun found =>
      apart other found other (List.mem_cons_of_mem node member) rfl)

end Molten.Data
