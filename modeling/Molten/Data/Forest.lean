import Mathlib.Data.List.Nodup
import Mathlib.Data.Set.Insert
import Mathlib.Logic.Relation

namespace Molten.Data

/-! Forests of ordered trees that grow, are cut and are put together again. -/

/-- The nodes that there are and the children of each, in their order. -/
@[ext] structure Forest (Node : Type*) where
  live : Set Node
  kids : Node → List Node
  parent_live : ∀ {parent child}, child ∈ kids parent → parent ∈ live
  child_live : ∀ {parent child}, child ∈ kids parent → child ∈ live
  nodup : ∀ parent, (kids parent).Nodup
  parent_unique : ∀ {parent other child}, child ∈ kids parent →
    child ∈ kids other → parent = other
  ranked : ∃ rank : Node → Nat, ∀ parent, ∀ child ∈ kids parent,
    rank child < rank parent

namespace Forest

variable {Node : Type*}

def empty : Forest Node where
  live := ∅
  kids := fun _ => []
  parent_live := fun member => absurd member List.not_mem_nil
  child_live := fun member => absurd member List.not_mem_nil
  nodup := fun _ => List.nodup_nil
  parent_unique := fun member => absurd member List.not_mem_nil
  ranked := ⟨fun _ => 0, fun _ _ member => absurd member List.not_mem_nil⟩

variable (forest : Forest Node)

def Root (node : Node) : Prop :=
  node ∈ forest.live ∧ ∀ parent, node ∉ forest.kids parent

/-- `low` is in the tree that `top` stands over. -/
def Under (top low : Node) : Prop :=
  Relation.ReflTransGen (fun parent child => child ∈ forest.kids parent) top low

variable {forest}

theorem kids_of_notMem_live {node : Node} (dead : node ∉ forest.live) :
    forest.kids node = [] :=
  List.eq_nil_iff_forall_not_mem.mpr fun _ member =>
    dead (forest.parent_live member)

theorem Under.live {top low : Node} (under : forest.Under top low)
    (live : top ∈ forest.live) : low ∈ forest.live := by
  cases under with
  | refl => exact live
  | tail _ member => exact forest.child_live member

theorem Under.parent {top parent child : Node}
    (under : forest.Under top child) (differs : child ≠ top)
    (member : child ∈ forest.kids parent) : forest.Under top parent := by
  cases under with
  | refl => exact absurd rfl differs
  | tail above edge => exact forest.parent_unique edge member ▸ above

theorem Under.rank_le {rank : Node → Nat}
    (ranked : ∀ parent, ∀ child ∈ forest.kids parent, rank child < rank parent)
    {top low : Node} (under : forest.Under top low) : rank low ≤ rank top := by
  induction under with
  | refl => exact Nat.le_refl _
  | tail _ member induction => exact (ranked _ _ member).le.trans induction

theorem not_under_parent {parent child : Node}
    (member : child ∈ forest.kids parent) : ¬ forest.Under child parent := by
  intro under
  obtain ⟨rank, ranked⟩ := forest.ranked
  exact absurd (ranked parent child member)
    (Nat.not_lt.mpr (under.rank_le ranked))

/-- Two nodes over one node stand one over the other. -/
theorem Under.total {top other low : Node} (under : forest.Under top low)
    (also : forest.Under other low) :
    forest.Under top other ∨ forest.Under other top := by
  induction under with
  | refl => exact .inr also
  | tail above member induction =>
      cases also with
      | refl => exact .inl (above.tail member)
      | tail upper edge =>
          exact induction (forest.parent_unique edge member ▸ upper)

theorem siblings_apart {parent child other low : Node}
    (member : child ∈ forest.kids parent) (also : other ∈ forest.kids parent)
    (differs : child ≠ other) (under : forest.Under child low) :
    ¬ forest.Under other low := by
  intro upper
  rcases under.total upper with above | below
  · exact not_under_parent member (above.parent differs.symm also)
  · exact not_under_parent also (below.parent differs member)

theorem Root.under_eq {top node : Node} (root : forest.Root node)
    (under : forest.Under top node) : node = top := by
  cases under with
  | refl => rfl
  | tail _ member => exact absurd member (root.2 _)

/-- What stands under some nodes. -/
def Below (forest : Forest Node) (nodes : List Node) : Set Node :=
  {low | ∃ top ∈ nodes, forest.Under top low}

theorem below_cons (node : Node) (nodes : List Node) :
    forest.Below (node :: nodes) =
      {low | forest.Under node low} ∪ forest.Below nodes := by
  ext low
  simp [Below]

theorem under_eq (node : Node) :
    {low | forest.Under node low} =
      forest.Below (forest.kids node) ∪ {node} := by
  ext low
  constructor
  · intro under
    rcases Relation.ReflTransGen.cases_head under with
      same | ⟨kid, member, rest⟩
    · exact .inr same.symm
    · exact .inl ⟨kid, member, rest⟩
  · intro either
    rcases either with ⟨kid, member, rest⟩ | same
    · exact rest.head member
    · exact same ▸ .refl

theorem notMem_below_kids (node : Node) :
    node ∉ forest.Below (forest.kids node) := by
  rintro ⟨kid, member, under⟩
  exact not_under_parent member under

/-- The trees of some nodes have nothing in common. -/
def Apart (forest : Forest Node) (nodes : List Node) : Prop :=
  nodes.Pairwise fun top other =>
    ∀ low, forest.Under top low → ¬ forest.Under other low

theorem apart_kids (parent : Node) : forest.Apart (forest.kids parent) :=
  (forest.nodup parent).imp_of_mem fun member also differs _ under =>
    siblings_apart member also differs under

/-- A new tree of one node. -/
def grow (forest : Forest Node) (node : Node) : Forest Node where
  live := insert node forest.live
  kids := forest.kids
  parent_live := fun member => .inr (forest.parent_live member)
  child_live := fun member => .inr (forest.child_live member)
  nodup := forest.nodup
  parent_unique := forest.parent_unique
  ranked := forest.ranked

theorem root_grow {node other : Node} (dead : node ∉ forest.live) :
    (forest.grow node).Root other ↔ other = node ∨ forest.Root other := by
  constructor
  · intro root
    obtain ⟨live, above⟩ := root
    exact live.imp_right fun live => ⟨live, above⟩
  · intro either
    rcases either with rfl | root
    · exact ⟨.inl rfl, fun _ member => dead (forest.child_live member)⟩
    · exact ⟨.inr root.1, root.2⟩

/-- What stands before and behind the node at a place. -/
theorem split_at {nodes : List Node} {i : Nat} {node : Node}
    (found : nodes[i]? = some node) :
    ∃ front back, nodes = front ++ node :: back ∧ front.length = i ∧
      nodes.eraseIdx i = front ++ back := by
  obtain ⟨within, rfl⟩ := List.getElem?_eq_some_iff.mp found
  refine ⟨nodes.take i, nodes.drop (i + 1), ?_, ?_, ?_⟩
  · rw [List.getElem_cons_drop, List.take_append_drop]
  · rw [List.length_take, Nat.min_eq_left within.le]
  · exact List.eraseIdx_eq_take_drop_succ nodes i

section Edits

variable [DecidableEq Node]

def spliced (kids : Node → List Node) (parent : Node) (i : Nat) (node : Node) :
    Node → List Node :=
  Function.update kids parent
    ((kids parent).take i ++ node :: (kids parent).drop i)

def removed (kids : Node → List Node) (parent : Node) (i : Nat) :
    Node → List Node :=
  Function.update kids parent ((kids parent).eraseIdx i)

variable {kids : Node → List Node} {parent other node child : Node} {i : Nat}

theorem spliced_of_ne (differs : other ≠ parent) :
    spliced kids parent i node other = kids other :=
  Function.update_of_ne differs _ _

@[simp] theorem spliced_self :
    spliced kids parent i node parent =
      (kids parent).take i ++ node :: (kids parent).drop i :=
  Function.update_self _ _ _

theorem removed_of_ne (differs : other ≠ parent) :
    removed kids parent i other = kids other :=
  Function.update_of_ne differs _ _

@[simp] theorem removed_self :
    removed kids parent i parent = (kids parent).eraseIdx i :=
  Function.update_self _ _ _

theorem mem_spliced :
    child ∈ spliced kids parent i node other ↔
      child ∈ kids other ∨ (other = parent ∧ child = node) := by
  by_cases same : other = parent
  · have split : child ∈ kids parent ↔
        child ∈ (kids parent).take i ∨ child ∈ (kids parent).drop i := by
      rw [← List.mem_append, List.take_append_drop]
    rw [same, spliced_self, List.mem_append, List.mem_cons, split]
    tauto
  · rw [spliced_of_ne same]
    exact ⟨.inl, fun either => either.resolve_right fun new => same new.1⟩

theorem sublist_removed :
    (removed kids parent i other).Sublist (kids other) := by
  by_cases same : other = parent
  · rw [same, removed_self]
    exact List.eraseIdx_sublist _ _
  · rw [removed_of_ne same]

/-- The tree of `node` becomes the child at a place, or the last one. -/
def splice (forest : Forest Node) (parent : Node) (i : Nat) (node : Node)
    (live : parent ∈ forest.live) (root : forest.Root node)
    (apart : ¬ forest.Under node parent) : Forest Node where
  live := forest.live
  kids := spliced forest.kids parent i node
  parent_live := by
    intro other child member
    rcases mem_spliced.mp member with old | new
    · exact forest.parent_live old
    · exact new.1 ▸ live
  child_live := by
    intro other child member
    rcases mem_spliced.mp member with old | new
    · exact forest.child_live old
    · exact new.2 ▸ root.1
  nodup := by
    intro other
    by_cases same : other = parent
    · rw [same, spliced_self, List.nodup_middle, List.take_append_drop]
      exact List.nodup_cons.mpr ⟨root.2 parent, forest.nodup parent⟩
    · rw [spliced_of_ne same]
      exact forest.nodup other
  parent_unique := by
    intro other another child member also
    rcases mem_spliced.mp member with old | new
    · rcases mem_spliced.mp also with old' | new'
      · exact forest.parent_unique old old'
      · exact absurd (new'.2 ▸ old) (root.2 other)
    · rcases mem_spliced.mp also with old' | new'
      · exact absurd (new.2 ▸ old') (root.2 another)
      · rw [new.1, new'.1]
  ranked := by
    classical
    -- What stands over the new child goes up by its rank.
    obtain ⟨rank, ranked⟩ := forest.ranked
    refine ⟨fun low => if forest.Under low parent then rank low + rank node + 1
      else rank low, fun other child member => ?_⟩
    dsimp only
    rcases mem_spliced.mp member with old | new
    · have below := ranked other child old
      by_cases above : forest.Under child parent
      · have upper : forest.Under other parent := above.head old
        rw [if_pos above, if_pos upper]
        omega
      · rw [if_neg above]
        split <;> omega
    · have upper : forest.Under parent parent := .refl
      rw [new.1, new.2, if_neg apart, if_pos upper]
      omega

/-- The child at a place becomes a tree of its own. -/
def remove (forest : Forest Node) (parent : Node) (i : Nat) : Forest Node where
  live := forest.live
  kids := removed forest.kids parent i
  parent_live := fun member =>
    forest.parent_live (sublist_removed.subset member)
  child_live := fun member => forest.child_live (sublist_removed.subset member)
  nodup := fun other => (forest.nodup other).sublist sublist_removed
  parent_unique := fun member also =>
    forest.parent_unique (sublist_removed.subset member)
      (sublist_removed.subset also)
  ranked := by
    obtain ⟨rank, ranked⟩ := forest.ranked
    exact ⟨rank, fun other child member =>
      ranked other child (sublist_removed.subset member)⟩

theorem root_splice {live : parent ∈ forest.live} {root : forest.Root node}
    {apart : ¬ forest.Under node parent} :
    (forest.splice parent i node live root apart).Root other ↔
      forest.Root other ∧ other ≠ node := by
  constructor
  · intro above
    refine ⟨⟨above.1, fun upper member => ?_⟩, ?_⟩
    · exact above.2 upper (mem_spliced.mpr (.inl member))
    · rintro rfl
      exact above.2 parent (mem_spliced.mpr (.inr ⟨rfl, rfl⟩))
  · intro above
    refine ⟨above.1.1, fun upper member => ?_⟩
    rcases mem_spliced.mp member with old | new
    · exact above.1.2 upper old
    · exact above.2 new.2

theorem mem_kids_remove (found : (forest.kids parent)[i]? = some node) :
    child ∈ (forest.remove parent i).kids other ↔
      child ∈ forest.kids other ∧ child ≠ node := by
  have member : node ∈ forest.kids parent := List.mem_of_getElem? found
  obtain ⟨front, back, kids, -, rest⟩ := split_at found
  have nodup := forest.nodup parent
  rw [kids, List.nodup_middle, List.nodup_cons] at nodup
  change child ∈ removed forest.kids parent i other ↔ _
  by_cases same : other = parent
  · rw [same, removed_self, rest, kids, List.mem_append, List.mem_append,
      List.mem_cons]
    constructor
    · intro kept
      refine ⟨kept.imp_right .inr, ?_⟩
      rintro rfl
      exact nodup.1 (List.mem_append.mpr kept)
    · intro either
      exact either.1.imp_right fun late => late.resolve_left either.2
  · rw [removed_of_ne same]
    refine ⟨fun old => ⟨old, ?_⟩, And.left⟩
    rintro rfl
    exact same (forest.parent_unique old member)

theorem root_remove (found : (forest.kids parent)[i]? = some node) :
    (forest.remove parent i).Root other ↔ forest.Root other ∨ other = node := by
  constructor
  · intro root
    by_cases same : other = node
    · exact .inr same
    · exact .inl ⟨root.1, fun upper old =>
        root.2 upper ((mem_kids_remove found).mpr ⟨old, same⟩)⟩
  · intro either
    rcases either with root | same
    · exact ⟨root.1, fun upper kept =>
        root.2 upper ((mem_kids_remove found).mp kept).1⟩
    · refine ⟨?_, fun upper kept => ((mem_kids_remove found).mp kept).2 same⟩
      exact same ▸ forest.child_live (List.mem_of_getElem? found)

theorem Under.of_remove {top low : Node}
    (under : (forest.remove parent i).Under top low) :
    forest.Under top low := by
  induction under with
  | refl => exact .refl
  | tail _ member induction =>
      exact induction.tail (sublist_removed.subset member)

end Edits

open Classical in
/-- A tree is gone. -/
noncomputable def prune (forest : Forest Node) (node : Node)
    (root : forest.Root node) : Forest Node where
  live := {other ∈ forest.live | ¬ forest.Under node other}
  kids := fun other => if forest.Under node other then [] else forest.kids other
  parent_live := by
    intro parent child member
    by_cases under : forest.Under node parent
    · rw [if_pos under] at member
      exact absurd member List.not_mem_nil
    · rw [if_neg under] at member
      exact ⟨forest.parent_live member, under⟩
  child_live := by
    intro parent child member
    by_cases under : forest.Under node parent
    · rw [if_pos under] at member
      exact absurd member List.not_mem_nil
    · rw [if_neg under] at member
      refine ⟨forest.child_live member, fun below => ?_⟩
      refine under (below.parent ?_ member)
      rintro rfl
      exact root.2 parent member
  nodup := by
    intro parent
    split
    · exact List.nodup_nil
    · exact forest.nodup parent
  parent_unique := by
    intro parent other child member also
    split at member
    · exact absurd member List.not_mem_nil
    · split at also
      · exact absurd also List.not_mem_nil
      · exact forest.parent_unique member also
  ranked := by
    obtain ⟨rank, ranked⟩ := forest.ranked
    refine ⟨rank, fun parent child member => ?_⟩
    split at member
    · exact absurd member List.not_mem_nil
    · exact ranked parent child member

theorem root_prune {node other : Node} {root : forest.Root node} :
    (forest.prune node root).Root other ↔ forest.Root other ∧ other ≠ node := by
  classical
  constructor
  · intro above
    obtain ⟨⟨live, apart⟩, upper⟩ := above
    refine ⟨⟨live, fun parent member => ?_⟩, ?_⟩
    · have kept : other ∈ if forest.Under node parent then []
          else forest.kids parent := by
        rw [if_neg fun under => apart (under.tail member)]
        exact member
      exact upper parent kept
    · rintro rfl
      exact apart .refl
  · intro above
    obtain ⟨⟨live, upper⟩, differs⟩ := above
    refine ⟨⟨live, fun under => ?_⟩, fun parent kept => ?_⟩
    · exact differs (Root.under_eq ⟨live, upper⟩ under)
    · have member : other ∈ if forest.Under node parent then []
          else forest.kids parent := kept
      split at member
      · exact absurd member List.not_mem_nil
      · exact upper parent member

end Forest

end Molten.Data
