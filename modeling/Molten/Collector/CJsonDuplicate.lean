import Molten.Collector.CJsonCalls

namespace Molten.Collector.CJson

open Molten.Data Molten.Text

/-! `cJSON_Duplicate`, as far as no node is a reference. -/

def Heap.readKind (heap : Heap) (pointer : Option Address) : Option Kind :=
  (heap.deref pointer).map heap.kind

/-- `if (item->field) {newitem->field=cJSON_strdup(item->field);…}`, and
whether there is no `NULL` in the copy now. -/
def Heap.duplicateField (malloc : Malloc) (field : Field)
    (item newitem : Option Address) (heap : Heap) : Option (Bool × Heap) := do
  match ← heap.readField field item with
  | none => some (true, heap)
  | some string =>
      let string ← heap.text string
      let heap ← heap.setCopy malloc string field newitem
      let copy ← heap.readField field newitem
      some (copy.isSome, heap)

/-- Crosswires the copies, or sets the first one. -/
def Heap.linkCopy (newitem nptr newchild : Option Address) (heap : Heap) :
    Option Heap :=
  if nptr.isSome then suffixObject nptr newchild heap
  else heap.setChild newitem newchild

/-- `cJSON_Delete(newitem);return 0` -/
def giveUp (fuel : Nat) (newitem : Option Address) (heap : Heap) :
    Option (Option Address × Heap) :=
  (cJSONDelete fuel newitem heap).map (none, ·)

mutual

def cJSONDuplicate (malloc : Malloc) (recurse : Bool) (fuel : Nat)
    (item : Option Address) (heap : Heap) : Option (Option Address × Heap) :=
  match fuel, item with
  | _, none => some (none, heap)
  | 0, some _ => none
  | fuel + 1, some item => do
      let kind ← heap.readKind (some item)
      let (newitem, heap) := cJSONNewItem malloc kind heap
      if newitem.isNone then some (none, heap)
      else do
        let (done, heap) ←
          heap.duplicateField malloc .valuestring (some item) newitem
        if !done then giveUp fuel newitem heap
        else do
          let (done, heap) ←
            heap.duplicateField malloc .string (some item) newitem
          if !done then giveUp fuel newitem heap
          else if !recurse then some (newitem, heap)
          else do
            let cptr ← heap.readChild (some item)
            duplicateChildren malloc fuel newitem none cptr heap

/-- The loop along the children, behind a copy. -/
def duplicateChildren (malloc : Malloc) (fuel : Nat)
    (newitem nptr cptr : Option Address) (heap : Heap) :
    Option (Option Address × Heap) :=
  match fuel, cptr with
  | _, none => some (newitem, heap)
  | 0, some _ => none
  | fuel + 1, some cptr => do
      let (newchild, heap) ←
        cJSONDuplicate malloc true fuel (some cptr) heap
      if newchild.isNone then giveUp fuel newitem heap
      else do
        let heap ← heap.linkCopy newitem nptr newchild
        let next ← heap.readNext (some cptr)
        duplicateChildren malloc fuel newitem newchild next heap

end

/-! What stands at a node. -/

/-- A tree with its strings, wherever its nodes are. -/
inductive Tree
  | node (kind : Kind) (value : Field → Option Block) (kids : List Tree)

namespace Trees

mutual

def At (trees : Trees) (node : Address) : Tree → Prop
  | .node kind value kids =>
      trees.kind node = kind ∧ (∀ field, trees.value field node = value field) ∧
        trees.AllAt (trees.forest.kids node) kids

def AllAt (trees : Trees) (nodes : List Address) : List Tree → Prop
  | [] => nodes = []
  | tree :: kids =>
      ∃ node others, nodes = node :: others ∧ trees.At node tree ∧
        trees.AllAt others kids

end

/-- The second trees have one tree more, that of `top`. -/
structure Grown (trees trees' : Trees) (top : Address) : Prop where
  live : ∀ {node}, node ∈ trees.forest.live → node ∈ trees'.forest.live
  kids : ∀ {node}, node ∈ trees.forest.live →
    trees'.forest.kids node = trees.forest.kids node
  kind : ∀ {node}, node ∈ trees.forest.live →
    trees'.kind node = trees.kind node
  value : ∀ {node}, node ∈ trees.forest.live → ∀ field,
    trees'.value field node = trees.value field node
  lost : trees'.lost = trees.lost
  root : trees'.forest.Root top
  under : ∀ {node}, node ∈ trees'.forest.live →
    (node ∉ trees.forest.live ↔ trees'.forest.Under top node)

end Trees

section Frames

variable {trees trees' trees'' : Trees} {node top : Address}

mutual

theorem Trees.At.congr {tree : Tree} {node : Address}
    (stands : trees.At node tree)
    (same : ∀ low, trees.forest.Under node low →
      trees'.forest.kids low = trees.forest.kids low ∧
        trees'.kind low = trees.kind low ∧
        ∀ field, trees'.value field low = trees.value field low) :
    trees'.At node tree := by
  obtain ⟨kind, value, kids⟩ := tree
  obtain ⟨rfl, values, all⟩ := stands
  obtain ⟨sameKids, sameKind, sameValue⟩ := same node .refl
  refine ⟨sameKind, fun field => (sameValue field).trans (values field), ?_⟩
  rw [sameKids]
  exact all.congr fun kid member low under => same low (under.head member)

theorem Trees.AllAt.congr {kids : List Tree} {nodes : List Address}
    (all : trees.AllAt nodes kids)
    (same : ∀ node ∈ nodes, ∀ low, trees.forest.Under node low →
      trees'.forest.kids low = trees.forest.kids low ∧
        trees'.kind low = trees.kind low ∧
        ∀ field, trees'.value field low = trees.value field low) :
    trees'.AllAt nodes kids := by
  cases kids with
  | nil => exact all
  | cons tree kids =>
      obtain ⟨node, others, rfl, first, rest⟩ := all
      exact ⟨node, others, rfl, first.congr (same node List.mem_cons_self),
        rest.congr fun other member =>
          same other (List.mem_cons_of_mem node member)⟩

end

theorem Trees.AllAt.append {kids : List Tree} {nodes : List Address}
    (all : trees.AllAt nodes kids) {tree : Tree} (last : trees.At node tree) :
    trees.AllAt (nodes ++ [node]) (kids ++ [tree]) := by
  induction kids generalizing nodes with
  | nil =>
      obtain rfl : nodes = [] := all
      exact ⟨node, [], rfl, last, rfl⟩
  | cons first kids induction =>
      obtain ⟨other, others, rfl, here, rest⟩ := all
      exact ⟨other, others ++ [node], rfl, here, induction rest⟩

/-- There is a tree at every node. -/
theorem Trees.exists_at (trees : Trees) (node : Address) :
    ∃ tree, trees.At node tree := by
  obtain ⟨rank, ranked⟩ := trees.forest.ranked
  have all : ∀ nodes : List Address,
      (∀ kid ∈ nodes, ∃ tree, trees.At kid tree) →
        ∃ kids, trees.AllAt nodes kids := by
    intro nodes found
    induction nodes with
    | nil => exact ⟨[], rfl⟩
    | cons kid nodes induction =>
        obtain ⟨first, rest⟩ := List.forall_mem_cons.mp found
        obtain ⟨tree, here⟩ := first
        obtain ⟨kids, others⟩ := induction rest
        exact ⟨tree :: kids, kid, nodes, rfl, here, others⟩
  induction low : rank node using Nat.strongRecOn generalizing node with
  | ind bound induction =>
      obtain ⟨kids, found⟩ := all (trees.forest.kids node) fun kid member =>
        induction _ (low ▸ ranked node kid member) kid rfl
      exact ⟨.node (trees.kind node) (fun field => trees.value field node) kids,
        rfl, fun field => rfl, found⟩

namespace Trees.Grown

theorem new (grown : trees.Grown trees' top) : top ∉ trees.forest.live :=
  (grown.under grown.root.1).mpr .refl

theorem ne_top (grown : trees.Grown trees' top)
    (live : node ∈ trees.forest.live) : node ≠ top := by
  rintro rfl
  exact grown.new live

/-- What stands under an old node is as it was. -/
theorem under_iff (grown : trees.Grown trees' top)
    (live : node ∈ trees.forest.live) {low : Address} :
    trees'.forest.Under node low ↔ trees.forest.Under node low := by
  constructor
  · intro under
    induction under with
    | refl => exact .refl
    | tail _ member induction =>
        rw [grown.kids (induction.live live)] at member
        exact induction.tail member
  · intro under
    induction under with
    | refl => exact .refl
    | tail above member induction =>
        rw [← grown.kids (Forest.Under.live above live)] at member
        exact induction.tail member

theorem at_old (grown : trees.Grown trees' top)
    (live : node ∈ trees.forest.live) {tree : Tree}
    (stands : trees.At node tree) : trees'.At node tree :=
  stands.congr fun _ under =>
    have inside := under.live live
    ⟨grown.kids inside, grown.kind inside, grown.value inside⟩

theorem root_old (grown : trees.Grown trees' top)
    (root : trees.forest.Root node) : trees'.forest.Root node := by
  refine ⟨grown.live root.1, fun parent member => ?_⟩
  have inside := trees'.forest.parent_live member
  by_cases old : parent ∈ trees.forest.live
  · rw [grown.kids old] at member
    exact root.2 parent member
  · have under := (grown.under inside).mp old
    exact (grown.under (grown.live root.1)).mpr (under.tail member) root.1

theorem create {kind : Kind} (dead : node ∉ trees.forest.live) :
    trees.Grown (trees.create node kind) node where
  live := .inr
  kids _ := rfl
  kind inside := setAt_of_ne (by
    rintro same
    cases same
    exact dead inside)
  value inside _ := setAt_of_ne (by
    rintro same
    cases same
    exact dead inside)
  lost := rfl
  root := (Forest.root_grow dead).mpr (.inl rfl)
  under := by
    intro low inside
    constructor
    · intro new
      exact inside.resolve_right new ▸ .refl
    · intro under old
      rcases Relation.ReflTransGen.cases_head under with same |
        ⟨kid, member, -⟩
      · exact dead (same ▸ old)
      · exact dead (trees.forest.parent_live member)

theorem setValue (grown : trees.Grown trees' top) (field : Field)
    (value : Option Block) :
    trees.Grown (trees'.setValue field top value) top where
  live := grown.live
  kids := grown.kids
  kind := grown.kind
  value := by
    intro node inside other
    have apart : ¬ (field = other ∧ top = node) := fun both =>
      grown.ne_top inside both.2.symm
    refine (setAt_field trees'.value field top value other node).trans ?_
    rw [if_neg apart]
    exact grown.value inside other
  lost := grown.lost
  root := grown.root
  under := grown.under

/-- Without the new tree they are the old ones. -/
theorem prune_forest (grown : trees.Grown trees' top) :
    trees'.forest.prune top grown.root = trees.forest := by
  classical
  have live : (trees'.forest.prune top grown.root).live =
      trees.forest.live := by
    ext node
    constructor
    · intro kept
      by_contra new
      exact kept.2 ((grown.under kept.1).mp new)
    · intro old
      exact ⟨grown.live old, fun under =>
        (grown.under (grown.live old)).mpr under old⟩
  have kids : (trees'.forest.prune top grown.root).kids =
      trees.forest.kids := by
    funext node
    by_cases old : node ∈ trees.forest.live
    · refine (if_neg fun under => ?_).trans (grown.kids old)
      exact (grown.under (grown.live old)).mpr under old
    · rw [Forest.kids_of_notMem_live old]
      exact Forest.kids_of_notMem_live (live ▸ old)
  exact Forest.ext live kids

/-- Under the new node stand the tree that it gets and what stood there. -/
theorem under_splice {copy low : Address} {i : Nat}
    {live : top ∈ trees.forest.live} {root : trees.forest.Root copy}
    {apart : ¬ trees.forest.Under copy top} :
    (trees.splice top i copy live root apart).forest.Under top low ↔
      trees.forest.Under top low ∨ trees.forest.Under copy low := by
  have edges : ∀ {parent child},
      child ∈ (trees.splice top i copy live root apart).forest.kids parent ↔
        child ∈ trees.forest.kids parent ∨ parent = top ∧ child = copy :=
    Forest.mem_spliced
  have kept : ∀ {first low}, trees.forest.Under first low →
      (trees.splice top i copy live root apart).forest.Under first low := by
    intro first low under
    induction under with
    | refl => exact .refl
    | tail _ member induction =>
        exact induction.tail (edges.mpr (.inl member))
  constructor
  · intro under
    induction under with
    | refl => exact .inl .refl
    | tail _ member induction =>
        rcases edges.mp member with old | ⟨-, rfl⟩
        · exact induction.imp (·.tail old) (·.tail old)
        · exact .inr .refl
  · intro either
    rcases either with under | under
    · exact kept under
    · exact (kept under).head (edges.mpr (.inr ⟨rfl, rfl⟩))

/-- A new tree becomes a part of the tree that was new before. -/
theorem splice {copy : Address} (grown : trees.Grown trees' top)
    (more : trees'.Grown trees'' copy) (i : Nat)
    (live : top ∈ trees''.forest.live) (root : trees''.forest.Root copy)
    (apart : ¬ trees''.forest.Under copy top) :
    trees.Grown (trees''.splice top i copy live root apart) top where
  live inside := more.live (grown.live inside)
  kids inside := (Forest.spliced_of_ne (grown.ne_top inside)).trans
    ((more.kids (grown.live inside)).trans (grown.kids inside))
  kind inside := (more.kind (grown.live inside)).trans (grown.kind inside)
  value inside field :=
    (more.value (grown.live inside) field).trans (grown.value inside field)
  lost := more.lost.trans grown.lost
  root := by
    have above : (trees''.forest.splice top i copy live root apart).Root top :=
      Forest.root_splice.mpr
        ⟨more.root_old grown.root, more.ne_top grown.root.1⟩
    exact above
  under := by
    intro node inside
    rw [under_splice, more.under_iff grown.root.1]
    by_cases old : node ∈ trees'.forest.live
    · rw [grown.under old]
      exact (or_iff_left fun under => (more.under inside).mpr under old).symm
    · exact iff_of_true (fun first => old (grown.live first))
        (.inr ((more.under inside).mp old))

end Trees.Grown

end Frames

/-! The parts of the call. -/

/-- With enough steps the run comes back. -/
def Ends {α : Type} (run : Nat → Option α) (result : α) : Prop :=
  ∃ least, ∀ fuel, least ≤ fuel → run fuel = some result

theorem ends_succ {α : Type} {run : Nat → Option α} {result : α}
    (later : Ends (fun fuel => run (fuel + 1)) result) : Ends run result := by
  obtain ⟨least, run_eq⟩ := later
  refine ⟨least + 1, fun fuel enough => ?_⟩
  obtain ⟨fuel, rfl⟩ := Nat.exists_eq_add_of_le' enough
  exact run_eq (fuel + least) (Nat.le_add_left least fuel)

section Parts

variable {malloc : Malloc} {trees trees' : Trees} {heap : Heap}
variable {item newitem : Address} {field : Field}

theorem Heap.readKind_eq (live : heap.live item = true) :
    heap.readKind (some item) = some (heap.kind item) := by
  simp [Heap.readKind, live]

/-- Memory does not tell what the trees say of nodes that are not there. -/
theorem Stands.of_same (stands : Stands trees' heap)
    (forest : trees'.forest = trees.forest)
    (kind : ∀ node ∈ trees.forest.live, trees'.kind node = trees.kind node)
    (value : ∀ node ∈ trees.forest.live, ∀ field,
      trees'.value field node = trees.value field node)
    (lost : trees'.lost = trees.lost) : Stands trees heap := by
  obtain ⟨shaped, holder, cells, owned⟩ := stands
  obtain ⟨kinds, held, holder_live, whole, values, apart, nodup, losses,
    mem_cells⟩ := owned
  rw [forest] at shaped kinds held holder_live values apart
  rw [lost] at losses
  exact ⟨shaped, holder, cells,
    fun node live => (kinds node live).trans (kind node live), held,
    holder_live, whole,
    fun node live field =>
      (values node live field).trans (value node live field),
    apart, nodup, losses, mem_cells⟩

theorem Stands.giveUp (stands : Stands trees' heap)
    (grown : trees.Grown trees' newitem) :
    ∃ heap', heap'.refusals = heap.refusals ∧ Stands trees heap' ∧
      Ends (fun fuel => giveUp fuel (some newitem) heap) (none, heap') := by
  obtain ⟨shaped, holder, cells, owned⟩ := stands
  obtain ⟨least, deleted⟩ := cJSONDelete_root shaped owned grown.root
  have pruned : Stands (trees'.prune newitem grown.root) _ :=
    ⟨shaped.prune grown.root, _, cells, owned.prune grown.root⟩
  refine ⟨_, by rfl, pruned.of_same grown.prune_forest
    (fun _ live => grown.kind live) (fun _ live => grown.value live)
    grown.lost, least, fun fuel enough => ?_⟩
  change (cJSONDelete fuel (some newitem) heap).map (none, ·) = _
  rw [deleted fuel enough]
  rfl

theorem Stands.unset (stands : Stands trees heap)
    (live : item ∈ trees.forest.live) (empty : trees.value field item = none) :
    heap.field field item = none := by
  obtain ⟨-, holder, cells, owned⟩ := stands
  have value := owned.value item live field
  rw [empty, Heap.string] at value
  cases found : heap.field field item with
  | none => rfl
  | some string =>
      have text := owned.text_of_field live found
      rw [found, Option.bind_some] at value
      rw [value] at text
      cases text

theorem Stands.setCopy (stands : Stands trees heap)
    (live : newitem ∈ trees.forest.live)
    (empty : trees.value field newitem = none) (malloc : Malloc)
    (string : Block) :
    heap.setCopy malloc string field (some newitem) = some heap.refuse ∨
      ∃ heap', heap.setCopy malloc string field (some newitem) = some heap' ∧
        heap'.refusals = heap.refusals ∧
        (heap'.readField field (some newitem)).map Option.isSome = some true ∧
        Stands (trees.setValue field newitem (some string)) heap' := by
  have unset := stands.unset live empty
  obtain ⟨shaped, holder, cells, owned⟩ := stands
  have alive := shaped.live.mpr live
  rw [Heap.setCopy, cJSONStrdup]
  cases answer : malloc.answer heap with
  | none =>
      exact .inl ((@Heap.setField_eq heap.refuse _ field none alive).trans
        (congrArg some (@Heap.withField_eq_self heap.refuse _ _ _ unset)))
  | some copy =>
      obtain ⟨dead, fresh⟩ := malloc.fresh answer
      have outside : copy ∉ trees.forest.live := fun inside =>
        Bool.false_ne_true (dead.symm.trans (shaped.live.mpr inside))
      refine .inr ⟨_, Heap.setField_eq field (some copy) alive, by rfl, ?_,
        ⟨shaped.live, shaped.child, shaped.linked, shaped.root⟩, _, cells,
        owned.assign live unset string fresh outside⟩
      rw [Heap.readField_eq field (by exact alive), Heap.withField_self]
      rfl

theorem Trees.setValue_value (trees : Trees) (field other : Field)
    (node place : Address) (value : Option Block) :
    (trees.setValue field node value).value other place =
      if field = other ∧ node = place then value
      else trees.value other place :=
  setAt_field trees.value field node value other place

theorem Trees.setValue_none (empty : trees.value field newitem = none) :
    trees.setValue field newitem none = trees := by
  rw [Trees.setValue, setAt_eq_self empty, setAt_eq_self rfl]

theorem Stands.duplicateField (stands : Stands trees heap)
    (item_live : item ∈ trees.forest.live)
    (live : newitem ∈ trees.forest.live)
    (empty : trees.value field newitem = none) (malloc : Malloc) :
    heap.duplicateField malloc field (some item) (some newitem) =
        some (false, heap.refuse) ∨
      ∃ heap', heap.duplicateField malloc field (some item) (some newitem) =
          some (true, heap') ∧ heap'.refusals = heap.refusals ∧
        Stands (trees.setValue field newitem (trees.value field item))
          heap' := by
  have unset := stands.unset live empty
  obtain ⟨shaped, holder, cells, owned⟩ := id stands
  have value := owned.value item item_live field
  rw [Heap.string] at value
  rw [Heap.duplicateField,
    Heap.readField_eq field (shaped.live.mpr item_live)]
  cases found : heap.field field item with
  | none =>
      rw [found] at value
      refine .inr ⟨heap, rfl, rfl, ?_⟩
      rw [← value]
      exact (Trees.setValue_none empty).symm ▸ stands
  | some string =>
      obtain ⟨text, here⟩ :=
        Option.isSome_iff_exists.mp (owned.text_of_field item_live found)
      rw [found, Option.bind_some, here] at value
      simp only [bind, Option.bind_some, here]
      rcases stands.setCopy live empty malloc text with
        set | ⟨heap', set, kept, copied, stands'⟩
      · refine .inl ?_
        rw [set, Option.bind_some,
          Heap.readField_eq field (by exact shaped.live.mpr live)]
        simp [Heap.refuse, unset]
      · refine .inr ⟨heap', ?_, kept, value ▸ stands'⟩
        obtain ⟨copy, read, isSome⟩ := Option.map_eq_some_iff.mp copied
        rw [set, Option.bind_some, read, Option.bind_some, isSome]

theorem Shaped.linkCopy {forest : Forest Address} (shaped : Shaped forest heap)
    (live : newitem ∈ forest.live) {copy : Address} (root : forest.Root copy) :
    heap.linkCopy (some newitem) (forest.kids newitem).getLast? (some copy) =
      some (heap.spliced newitem copy (forest.kids newitem) []) := by
  have copy_live := shaped.live.mpr root.1
  obtain ⟨noNext, noPrev⟩ := shaped.root root
  have child := shaped.child live
  cases kids : forest.kids newitem with
  | nil =>
      simp [Heap.linkCopy, Heap.setChild_eq _ (shaped.live.mpr live),
        Heap.spliced, setAt_eq_self noNext, setAt_eq_self noPrev]
  | cons first rest =>
      obtain ⟨last, atLast⟩ := exists_getLast first rest
      have member : last ∈ forest.kids newitem :=
        kids ▸ List.mem_of_getLast? atLast
      have first_child : heap.child newitem = some first := by
        rw [child, kids]
        rfl
      have last_live := shaped.kids_live newitem last member
      simp [Heap.linkCopy, suffixObject, Heap.setNext, Heap.setPrev, last_live,
        copy_live, Heap.spliced, atLast, setAt_eq_self noNext,
        setAt_eq_self first_child]

end Parts

/-! The whole call. -/

/-- A tree without its children. -/
def Tree.top : Tree → Tree
  | .node kind value _ => .node kind value []

/-- What comes of a copy of a tree: `malloc` refused since, and all that was
allocated is freed again, or it did not, and there is a tree more. -/
inductive Copied (trees : Trees) (before : Heap) (tree : Tree) :
    Option Address → Heap → Prop
  | refused {heap : Heap} (refused : before.refusals < heap.refusals)
      (stands : Stands trees heap) : Copied trees before tree none heap
  | made {copy : Address} {trees' : Trees} {heap : Heap}
      (kept : heap.refusals = before.refusals) (stands : Stands trees' heap)
      (grown : trees.Grown trees' copy) (same : trees'.At copy tree) :
      Copied trees before tree (some copy) heap

section Whole

variable {malloc : Malloc} {trees trees' : Trees} {heap : Heap}
variable {item newitem : Address}

theorem Copied.of_kept {before : Heap} {tree : Tree}
    {result : Option Address} {heap' : Heap}
    (copied : Copied trees heap tree result heap')
    (kept : heap.refusals = before.refusals) :
    Copied trees before tree result heap' := by
  cases copied with
  | refused refused stands => exact .refused (kept ▸ refused) stands
  | made same stands grown stood =>
      exact .made (same.trans kept) stands grown stood

theorem cJSONDuplicate_null (answer : malloc.answer heap = none)
    (live : heap.live item = true) (recurse : Bool) (fuel : Nat) :
    cJSONDuplicate malloc recurse (fuel + 1) (some item) heap =
      some (none, heap.refuse) := by
  rw [cJSONDuplicate, Heap.readKind_eq live]
  simp [cJSONNewItem, answer]

theorem cJSONDuplicate_new (answer : malloc.answer heap = some newitem)
    (live : heap.live item = true) (recurse : Bool) (fuel : Nat) :
    cJSONDuplicate malloc recurse (fuel + 1) (some item) heap = (do
      let (done, heap) ← (heap.withItem newitem
        (heap.kind item)).duplicateField malloc .valuestring (some item)
          (some newitem)
      if !done then giveUp fuel (some newitem) heap
      else do
        let (done, heap) ← heap.duplicateField malloc .string (some item)
          (some newitem)
        if !done then giveUp fuel (some newitem) heap
        else if !recurse then some (some newitem, heap)
        else do
          let cptr ← heap.readChild (some item)
          duplicateChildren malloc fuel (some newitem) none cptr heap) := by
  rw [cJSONDuplicate, Heap.readKind_eq live]
  simp only [bind, Option.bind_some, cJSONNewItem, answer]
  rfl

/-- The node alone: it is not copied, or the copy has no children yet. -/
theorem Stands.duplicateTop (stands : Stands trees heap)
    (live : item ∈ trees.forest.live) (malloc : Malloc) :
    (∃ heap', heap.refusals < heap'.refusals ∧ Stands trees heap' ∧
        ∀ recurse, Ends (fun fuel =>
          cJSONDuplicate malloc recurse fuel (some item) heap) (none, heap')) ∨
      ∃ newitem trees' heap', heap'.refusals = heap.refusals ∧
        Stands trees' heap' ∧ trees.Grown trees' newitem ∧
        trees'.At newitem (.node (trees.kind item)
          (fun field => trees.value field item) []) ∧
        ∀ recurse fuel,
          cJSONDuplicate malloc recurse (fuel + 1) (some item) heap =
            if recurse then
              duplicateChildren malloc fuel (some newitem)
                none (trees.forest.kids item).head? heap'
            else some (some newitem, heap') := by
  have alive := stands.1.live.mpr live
  have kind : heap.kind item = trees.kind item := by
    obtain ⟨-, holder, cells, owned⟩ := stands
    exact owned.kind item live
  cases answer : malloc.answer heap with
  | none =>
      exact .inl ⟨heap.refuse, Nat.lt_succ_self _, stands.refuse,
        fun recurse => ends_succ ⟨0, fun fuel _ =>
          cJSONDuplicate_null answer alive recurse fuel⟩⟩
  | some newitem =>
      have new := cJSONDuplicate_new answer alive
      rw [kind] at new
      have dead := stands.notMem_live answer
      have first := stands.create answer (trees.kind item)
      have grown : trees.Grown (trees.create newitem (trees.kind item))
          newitem := .create dead
      have unset : ∀ field, (trees.create newitem (trees.kind item)).value field
          newitem = none := fun _ => setAt_self _ _ _
      have copied := first.duplicateField (grown.live live) grown.root.1
        (unset .valuestring) malloc
      rw [grown.value live] at copied
      rcases copied with copied | ⟨heap₁, copied, same, second⟩
      · obtain ⟨heap', refusals, kept, least, run⟩ :=
          first.refuse.giveUp grown
        refine .inl ⟨heap', refusals ▸ Nat.lt_succ_self _, kept, fun recurse =>
          ends_succ ⟨least, fun fuel enough => ?_⟩⟩
        refine (new recurse fuel).trans ?_
        rw [copied]
        exact run fuel enough
      · have grown' := grown.setValue .valuestring
          (trees.value .valuestring item)
        have unset' : ((trees.create newitem (trees.kind item)).setValue
            .valuestring newitem (trees.value .valuestring item)).value .string
            newitem = none := by
          rw [Trees.setValue_value, if_neg (by simp), unset]
        have copied' := second.duplicateField (grown'.live live) grown'.root.1
          unset' malloc
        rw [grown'.value live] at copied'
        rcases copied' with copied' | ⟨heap₂, copied', same', third⟩
        · obtain ⟨heap', refusals, kept, least, run⟩ :=
            second.refuse.giveUp grown'
          have refused : heap.refusals < heap'.refusals := by
            rw [refusals]
            exact same ▸ Nat.lt_succ_self heap₁.refusals
          refine .inl ⟨heap', refused, kept, fun recurse =>
            ends_succ ⟨least, fun fuel enough => ?_⟩⟩
          refine (new recurse fuel).trans ?_
          simp only [copied, copied', bind, Option.bind_some]
          exact run fuel enough
        · have grown'' := grown'.setValue .string (trees.value .string item)
          have child := third.1.child (grown''.live live)
          rw [grown''.kids live] at child
          refine .inr ⟨newitem, _, heap₂, same'.trans same, third, grown'',
            ⟨setAt_self _ _ _, fun field => ?_, ?_⟩, fun recurse fuel => ?_⟩
          · rw [Trees.setValue_value, Trees.setValue_value]
            cases field with
            | valuestring => rw [if_neg (by simp), if_pos ⟨rfl, rfl⟩]
            | string => rw [if_pos ⟨rfl, rfl⟩]
          · exact @Forest.kids_of_notMem_live _ trees.forest _ dead
          · refine (new recurse fuel).trans ?_
            simp only [copied, copied', bind, Option.bind_some]
            rw [Heap.readChild_eq (third.1.live.mpr (grown''.live live)), child]
            cases recurse <;> rfl

/-- The copy of a child stands behind the copies that were made before. -/
theorem Trees.At.splice {kind : Kind} {value : Field → Option Block}
    {done : List Tree} {child : Tree} {copy : Address}
    (stands : trees.At newitem (.node kind value done))
    (last : trees.At copy child) (live : newitem ∈ trees.forest.live)
    (root : trees.forest.Root copy)
    (apart : ¬ trees.forest.Under copy newitem) :
    (trees.splice newitem (trees.forest.kids newitem).length copy live root
      apart).At newitem (.node kind value (done ++ [child])) := by
  obtain ⟨same, values, all⟩ := stands
  have frame : ∀ low, low ≠ newitem →
      (trees.splice newitem (trees.forest.kids newitem).length copy live root
        apart).forest.kids low = trees.forest.kids low :=
    fun low differs => Forest.spliced_of_ne differs
  have kids : (trees.splice newitem (trees.forest.kids newitem).length copy live
      root apart).forest.kids newitem =
        trees.forest.kids newitem ++ [copy] := by
    refine Forest.spliced_self.trans ?_
    rw [List.take_length, List.drop_length]
  refine ⟨same, values, ?_⟩
  rw [kids]
  refine (all.congr fun kid member low under => ?_).append
    (last.congr fun low under => ?_)
  · refine ⟨frame low ?_, rfl, fun field => rfl⟩
    rintro rfl
    exact Forest.not_under_parent member under
  · refine ⟨frame low ?_, rfl, fun field => rfl⟩
    rintro rfl
    exact apart under

/-- One turn of the loop, where the child was copied. -/
theorem Stands.linkCopy {trees'' : Trees} {kind : Kind} {copy : Address}
    {value : Field → Option Block} {done : List Tree} {child : Tree}
    (stands : Stands trees'' heap) (grown : trees.Grown trees' newitem)
    (more : trees'.Grown trees'' copy)
    (here : trees'.At newitem (.node kind value done))
    (same : trees''.At copy child) :
    ∃ heap' after, heap.linkCopy (some newitem)
        (trees'.forest.kids newitem).getLast? (some copy) = some heap' ∧
      heap'.refusals = heap.refusals ∧ Stands after heap' ∧
      trees.Grown after newitem ∧
      after.At newitem (.node kind value (done ++ [child])) ∧
      (after.forest.kids newitem).getLast? = some copy := by
  have live := more.live grown.root.1
  have apart : ¬ trees''.forest.Under copy newitem := fun under =>
    (more.under live).mpr under grown.root.1
  obtain ⟨shaped, holder, cells, owned⟩ := stands
  have linked := shaped.linkCopy live more.root
  have shaped' := shaped.spliced live more.root apart
    (trees''.forest.kids newitem).length
  rw [List.take_length, List.drop_length] at shaped'
  rw [more.kids grown.root.1] at linked
  refine ⟨_, trees''.splice newitem (trees''.forest.kids newitem).length copy
    live more.root apart, linked, by rfl, ⟨?_, holder, cells, ?_⟩,
    grown.splice more _ live more.root apart,
    (more.at_old grown.root.1 here).splice same live more.root apart, ?_⟩
  · rw [← more.kids grown.root.1]
    exact shaped'
  · exact owned.spliced _ _ _ live more.root apart
  · refine (congrArg List.getLast? Forest.spliced_self).trans ?_
    rw [List.take_length, List.drop_length, List.getLast?_append]
    rfl

theorem Stands.next_of_kids (stands : Stands trees heap) {cptr : Address}
    {front back : List Address}
    (split : trees.forest.kids item = front ++ cptr :: back) :
    heap.readNext (some cptr) = some back.head? := by
  obtain ⟨-, live, -, next, -⟩ := stands.1.array_facts split
  rw [Heap.readNext_eq live, next]

mutual

theorem Stands.duplicate (tree : Tree) {trees : Trees} {heap : Heap}
    {item : Address} (stands : Stands trees heap)
    (live : item ∈ trees.forest.live) (same : trees.At item tree)
    (malloc : Malloc) :
    ∃ result heap',
      Ends (fun fuel => cJSONDuplicate malloc true fuel (some item) heap)
        (result, heap') ∧ Copied trees heap tree result heap' := by
  obtain ⟨kind, value, kids⟩ := tree
  obtain ⟨rfl, values, all⟩ := same
  obtain rfl : (fun field => trees.value field item) = value := funext values
  rcases stands.duplicateTop live malloc with ⟨heap', refused, kept, run⟩ |
    ⟨newitem, trees', heap', same, stands', grown, top, run⟩
  · exact ⟨none, heap', run true, .refused refused kept⟩
  · have noKids : trees'.forest.kids newitem = [] := top.2.2
    obtain ⟨result, heap'', ⟨least, ends⟩, copied⟩ :=
      Stands.duplicateChildren kids stands' grown top live
        (List.nil_append _).symm all malloc
    rw [noKids] at ends
    exact ⟨result, heap'', ends_succ ⟨least, fun fuel enough =>
      (run true fuel).trans (ends fuel enough)⟩, copied.of_kept same⟩

theorem Stands.duplicateChildren (kids : List Tree) {trees trees' : Trees}
    {heap : Heap} {item newitem : Address} {kind : Kind}
    {value : Field → Option Block} {done : List Tree}
    {front back : List Address} (stands : Stands trees' heap)
    (grown : trees.Grown trees' newitem)
    (here : trees'.At newitem (.node kind value done))
    (live : item ∈ trees.forest.live)
    (split : trees.forest.kids item = front ++ back)
    (all : trees.AllAt back kids) (malloc : Malloc) :
    ∃ result heap', Ends (fun fuel =>
        CJson.duplicateChildren malloc fuel (some newitem)
          (trees'.forest.kids newitem).getLast? back.head? heap)
        (result, heap') ∧
      Copied trees heap (.node kind value (done ++ kids)) result heap' := by
  cases kids with
  | nil =>
      obtain rfl : back = [] := all
      refine ⟨some newitem, heap, ⟨0, fun fuel _ => ?_⟩,
        .made rfl stands grown ((List.append_nil done).symm ▸ here)⟩
      cases fuel <;> rfl
  | cons child kids =>
      obtain ⟨cptr, others, rfl, first, rest⟩ := all
      have member : cptr ∈ trees.forest.kids item :=
        split ▸ List.mem_append_right front List.mem_cons_self
      have cptr_live := trees.forest.child_live member
      obtain ⟨newchild, heap', ⟨least, run⟩, copied⟩ :=
        Stands.duplicate child stands (grown.live cptr_live)
          (grown.at_old cptr_live first) malloc
      cases copied with
      | refused refused kept =>
          obtain ⟨heap'', refusals, kept', least', freed⟩ := kept.giveUp grown
          refine ⟨none, heap'', ends_succ ⟨max least least',
            fun fuel enough => ?_⟩, .refused (refusals ▸ refused) kept'⟩
          have copy := run fuel ((Nat.le_max_left _ _).trans enough)
          simp only [List.head?_cons, CJson.duplicateChildren, bind, copy,
            Option.bind_some]
          exact freed fuel ((Nat.le_max_right _ _).trans enough)
      | made refusals kept more same =>
          obtain ⟨heap'', after, linked, refusals', stands', grown', here',
            last⟩ := kept.linkCopy grown more here same
          have split' : after.forest.kids item =
              front ++ cptr :: others := (grown'.kids live).trans split
          have next := stands'.next_of_kids split'
          obtain ⟨result, heap''', ⟨least', ends⟩, copied⟩ :=
            Stands.duplicateChildren kids stands' grown' here' live
              (split.trans (List.append_cons front cptr others)) rest malloc
          rw [last] at ends
          refine ⟨result, heap''', ends_succ ⟨max least least',
            fun fuel enough => ?_⟩, ?_⟩
          · have copy := run fuel ((Nat.le_max_left _ _).trans enough)
            simp only [List.head?_cons, CJson.duplicateChildren, bind, copy,
              Option.bind_some, linked, next]
            exact ends fuel ((Nat.le_max_right _ _).trans enough)
          · rw [List.append_cons]
            exact copied.of_kept (refusals'.trans refusals)

end

/-- The copy of a tree in any memory that calls make: all its nodes and strings
are new, and nothing that was there before is another one.  There is none where
`malloc` refuses on the way, and then nothing of it stays allocated. -/
theorem copied_of_reached (reached : Reached heap) :
    ∃ trees, Stands trees heap ∧
      ∀ item ∈ trees.forest.live, ∃ tree, trees.At item tree ∧
        ∀ malloc recurse, ∃ result heap',
          Ends (fun fuel => cJSONDuplicate malloc recurse fuel (some item) heap)
            (result, heap') ∧
          Copied trees heap (if recurse then tree else tree.top) result
            heap' := by
  obtain ⟨trees, stands⟩ := reached.stands
  refine ⟨trees, stands, fun item live => ?_⟩
  obtain ⟨tree, same⟩ := trees.exists_at item
  refine ⟨tree, same, fun malloc recurse => ?_⟩
  cases recurse with
  | true => exact stands.duplicate tree live same malloc
  | false =>
      obtain ⟨kind, value, kids⟩ := tree
      obtain ⟨rfl, values, -⟩ := same
      obtain rfl : (fun field => trees.value field item) = value :=
        funext values
      rcases stands.duplicateTop live malloc with ⟨heap', refused, kept, run⟩ |
        ⟨newitem, trees', heap', same, stands', grown, top, run⟩
      · exact ⟨none, heap', run false, .refused refused kept⟩
      · exact ⟨some newitem, heap', ends_succ ⟨0, fun fuel _ => run false fuel⟩,
          .made same stands' grown top⟩

/-- The whole copy of the object has six parts, and there is none without room
for the last of them. -/
theorem pair_copied :
    ((cJSONDuplicate (firstFree 12) true 6 (some 0) pair).map fun copied =>
        (copied.1, copied.2.child 6, copied.2.next 7,
          copied.2.string .valuestring 7, copied.2.string .string 10)) =
        some (some 6, some 7, some 10, some (Block.ofString "b"),
          some (Block.ofString "y")) ∧
      ((cJSONDuplicate (firstFree 11) true 6 (some 0) pair).map fun copied =>
        (copied.1, copied.2.refusals)) = some (none, 1) ∧
      ∃ trees, Stands trees pair ∧
        ∀ item ∈ trees.forest.live, ∃ tree, trees.At item tree ∧
          ∀ malloc recurse, ∃ result heap',
            Ends (fun fuel =>
              cJSONDuplicate malloc recurse fuel (some item) pair)
              (result, heap') ∧
            Copied trees pair (if recurse then tree else tree.top) result
              heap' :=
  ⟨rfl, rfl, copied_of_reached pair_reached⟩

end Whole

end Molten.Collector.CJson
