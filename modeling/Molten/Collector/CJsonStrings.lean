import Molten.Collector.CJsonTrees

namespace Molten.Collector.CJson

open Molten.Data Molten.Text

/-! The nodes and strings that trees have in memory. -/

/-- Trees of nodes with their strings, and the strings that no node has any
more. -/
structure Trees where
  forest : Forest Address
  kind : Address → Kind
  value : Field → Address → Option Block
  lost : List Block

namespace Trees

def empty : Trees where
  forest := .empty
  kind := fun _ => .null
  value := fun _ _ => none
  lost := []

variable (trees : Trees)

def create (node : Address) (kind : Kind) : Trees where
  forest := trees.forest.grow node
  kind := setAt trees.kind (some node) kind
  value := fun field => setAt (trees.value field) (some node) none
  lost := trees.lost

def setValue (field : Field) (node : Address) (value : Option Block) : Trees :=
  { trees with
    value := setAt trees.value (some field)
      (setAt (trees.value field) (some node) value) }

/-- The string of a field is overwritten without being freed. -/
def lose (field : Field) (node : Address) : Trees :=
  { trees.setValue field node none with
    lost := trees.lost ++ (trees.value field node).toList }

def splice (array : Address) (i : Nat) (item : Address)
    (live : array ∈ trees.forest.live) (root : trees.forest.Root item)
    (apart : ¬ trees.forest.Under item array) : Trees :=
  { trees with forest := trees.forest.splice array i item live root apart }

def remove (array : Address) (i : Nat) : Trees :=
  { trees with forest := trees.forest.remove array i }

noncomputable def prune (node : Address) (root : trees.forest.Root node) :
    Trees :=
  { trees with forest := trees.forest.prune node root }

end Trees

/-- The nodes have their strings, all strings are held by one node or lost. -/
structure Owned (trees : Trees) (heap : Heap)
    (holder : Address → Option (Address × Field)) (cells : List Address) :
    Prop where
  kind : ∀ node ∈ trees.forest.live, heap.kind node = trees.kind node
  held : ∀ node ∈ trees.forest.live, ∀ field string,
    heap.field field node = some string ↔ holder string = some (node, field)
  holder_live : ∀ {string node field}, holder string = some (node, field) →
    node ∈ trees.forest.live
  whole : ∀ {string node field}, holder string = some (node, field) →
    (heap.text string).isSome
  value : ∀ node ∈ trees.forest.live, ∀ field,
    heap.string field node = trees.value field node
  apart : ∀ node ∈ trees.forest.live, heap.text node = none
  nodup : cells.Nodup
  lost : cells.map heap.text = trees.lost.map some
  mem_cells : ∀ {string}, string ∈ cells ↔
    (heap.text string).isSome ∧ holder string = none

/-- What is allocated is what the trees say and what was lost. -/
def Stands (trees : Trees) (heap : Heap) : Prop :=
  Shaped trees.forest heap ∧ ∃ holder cells, Owned trees heap holder cells

section Strings

variable {trees : Trees} {heap : Heap} {cells : List Address}
variable {holder : Address → Option (Address × Field)}
variable {field : Field} {node : Address}

theorem setAt_field {α : Type*} (f : Field → Address → α) (field : Field)
    (node : Address) (value : α) (other : Field) (place : Address) :
    setAt f (some field) (setAt (f field) (some node) value) other place =
      if field = other ∧ node = place then value else f other place := by
  by_cases here : field = other
  · subst here
    rw [setAt_self]
    by_cases there : node = place
    · rw [there, setAt_self, if_pos ⟨rfl, rfl⟩]
    · rw [setAt_of_ne (by simpa using there), if_neg fun both => there both.2]
  · rw [setAt_of_ne (by simpa using here), if_neg fun both => here both.1]

theorem Owned.text_of_field (owned : Owned trees heap holder cells)
    (live : node ∈ trees.forest.live) {string : Address}
    (found : heap.field field node = some string) :
    (heap.text string).isSome :=
  owned.whole ((owned.held node live field string).mp found)

/-- A field without a string gets one. -/
theorem Owned.assign (owned : Owned trees heap holder cells)
    (live : node ∈ trees.forest.live) (unset : heap.field field node = none)
    {copy : Address} (string : Block) (fresh : heap.text copy = none)
    (dead : copy ∉ trees.forest.live) :
    Owned (trees.setValue field node (some string))
      { heap.withField field node (some copy) with
        text := setAt heap.text (some copy) (some string) }
      (setAt holder (some copy) (some (node, field))) cells := by
  have new : ∀ {other place}, place ∈ trees.forest.live →
      heap.field other place ≠ some copy := by
    intro other place inside found
    have text := owned.text_of_field inside found
    rw [fresh] at text
    exact Bool.false_ne_true text
  have outside : copy ∉ cells := by
    intro member
    have text := (owned.mem_cells.mp member).1
    rw [fresh] at text
    exact Bool.false_ne_true text
  refine ⟨owned.kind, ?_, ?_, ?_, ?_, ?_, owned.nodup, ?_, ?_⟩
  · intro place inside other string
    dsimp only [Heap.withField]
    rw [setAt_field]
    by_cases here : copy = string
    · subst here
      rw [setAt_self]
      split
      · rename_i same
        simp [same.1, same.2]
      · rename_i differs
        refine ⟨fun found => absurd found (new inside), fun same => ?_⟩
        cases same
        exact absurd ⟨rfl, rfl⟩ differs
    · rw [setAt_of_ne (by simpa using here)]
      split
      · rename_i same
        obtain ⟨rfl, rfl⟩ := same
        rw [← owned.held node live field string, unset]
        simpa using here
      · exact owned.held place inside other string
  · intro string place other found
    by_cases here : copy = string
    · rw [here, setAt_self] at found
      cases found
      exact live
    · rw [setAt_of_ne (by simpa using here)] at found
      exact owned.holder_live found
  · intro string place other found
    dsimp only
    by_cases here : copy = string
    · rw [here, setAt_self]
      rfl
    · rw [setAt_of_ne (by simpa using here)] at found ⊢
      exact owned.whole found
  · intro place inside other
    have old := owned.value place inside other
    simp only [Heap.string, Heap.withField, Trees.setValue, setAt_field]
      at old ⊢
    split
    · exact setAt_self _ _ _
    · rw [← old]
      cases found : heap.field other place with
      | none => rfl
      | some string =>
          refine setAt_of_ne ?_
          rintro same
          cases same
          exact new inside found
  · intro place inside
    refine (setAt_of_ne ?_).trans (owned.apart place inside)
    rintro same
    cases same
    exact dead inside
  · refine Eq.trans ?_ owned.lost
    refine List.map_congr_left fun string member => setAt_of_ne ?_
    rintro same
    cases same
    exact outside member
  · intro string
    dsimp only
    by_cases here : copy = string
    · subst here
      simp [outside]
    · rw [setAt_of_ne (by simpa using here), setAt_of_ne (by simpa using here)]
      exact owned.mem_cells

/-- A field gives up its string, whatever becomes of it. -/
theorem Owned.release (owned : Owned trees heap holder cells)
    (live : node ∈ trees.forest.live) {text : Address → Option Block}
    {cells' : List Address} {lost : List Block}
    (same : ∀ string, heap.field field node ≠ some string →
      text string = heap.text string)
    (apart : ∀ node ∈ trees.forest.live, text node = none)
    (nodup : cells'.Nodup) (texts : cells'.map text = lost.map some)
    (mem_cells : ∀ {string}, string ∈ cells' ↔ (text string).isSome ∧
      setAt holder (heap.field field node) none string = none) :
    Owned { trees.setValue field node none with lost := lost }
      { heap.withField field node none with text := text }
      (setAt holder (heap.field field node) none) cells' := by
  have kept : ∀ {string place other},
      setAt holder (heap.field field node) none string = some (place, other) →
      heap.field field node ≠ some string ∧
        holder string = some (place, other) := by
    intro string place other found
    by_cases here : heap.field field node = some string
    · rw [here, setAt_self] at found
      cases found
    · rw [setAt_of_ne here] at found
      exact ⟨here, found⟩
  have held : ∀ place ∈ trees.forest.live, ∀ other string,
      ¬ (field = other ∧ node = place) →
        heap.field other place = some string →
        heap.field field node ≠ some string := by
    intro place inside other string differs found also
    have first := (owned.held place inside other string).mp found
    rw [(owned.held node live field string).mp also] at first
    cases first
    exact differs ⟨rfl, rfl⟩
  refine ⟨owned.kind, ?_, ?_, ?_, ?_, apart, nodup, texts, mem_cells⟩
  · intro place inside other string
    dsimp only [Heap.withField]
    rw [setAt_field]
    constructor
    · intro found
      split at found
      · cases found
      · rename_i differs
        rw [setAt_of_ne (held place inside other string differs found)]
        exact (owned.held place inside other string).mp found
    · intro found
      obtain ⟨differs, found⟩ := kept found
      have has := (owned.held place inside other string).mpr found
      rw [if_neg]
      · exact has
      · rintro ⟨rfl, rfl⟩
        exact differs has
  · exact fun found => owned.holder_live (kept found).2
  · intro string place other found
    dsimp only
    rw [same string (kept found).1]
    exact owned.whole (kept found).2
  · intro place inside other
    have old := owned.value place inside other
    simp only [Heap.string, Heap.withField, Trees.setValue, setAt_field]
      at old ⊢
    split
    · rfl
    · rename_i differs
      rw [← old]
      cases found : heap.field other place with
      | none => rfl
      | some string =>
          exact same string (held place inside other string differs found)

theorem Owned.unassign (owned : Owned trees heap holder cells)
    (live : node ∈ trees.forest.live) :
    Owned (trees.setValue field node none)
      { heap.withField field node none with
        text := setAt heap.text (heap.field field node) none }
      (setAt holder (heap.field field node) none) cells := by
  have outside : ∀ string ∈ cells, heap.field field node ≠ some string := by
    intro string member found
    have free := (owned.mem_cells.mp member).2
    rw [(owned.held node live field string).mp found] at free
    cases free
  refine owned.release live (fun string differs => setAt_of_ne differs) ?_
    owned.nodup ?_ ?_
  · intro place inside
    by_cases here : heap.field field node = some place
    · rw [here, setAt_self]
    · rw [setAt_of_ne here, owned.apart place inside]
  · refine Eq.trans ?_ owned.lost
    exact List.map_congr_left fun string member =>
      setAt_of_ne (outside string member)
  · intro string
    by_cases here : heap.field field node = some string
    · rw [here, setAt_self, setAt_self]
      simp only [Option.isSome_none, Bool.false_eq_true, false_and, iff_false]
      exact fun member => outside string member here
    · rw [setAt_of_ne here, setAt_of_ne here]
      exact owned.mem_cells

theorem Owned.lose (owned : Owned trees heap holder cells)
    (live : node ∈ trees.forest.live) :
    Owned (trees.lose field node) (heap.withField field node none)
      (setAt holder (heap.field field node) none)
      (cells ++ (heap.field field node).toList) := by
  have value := owned.value node live field
  rw [Heap.string] at value
  have release := @Owned.release _ _ _ _ field node owned live
  cases found : heap.field field node with
  | none =>
      rw [found] at value release
      refine release (fun _ _ => rfl) owned.apart (by simpa using owned.nodup)
        ?_ ?_
      · rw [← value]
        simpa using owned.lost
      · intro string
        simpa using owned.mem_cells
  | some old =>
      have holds := (owned.held node live field old).mp found
      have outside : old ∉ cells := by
        intro member
        have free := (owned.mem_cells.mp member).2
        rw [holds] at free
        cases free
      obtain ⟨text, stands⟩ := Option.isSome_iff_exists.mp (owned.whole holds)
      rw [found, Option.bind_some, stands] at value
      rw [found] at release
      refine release (fun _ _ => rfl) owned.apart ?_ ?_ ?_
      · refine List.nodup_append.mpr ⟨owned.nodup, List.nodup_singleton old, ?_⟩
        rintro string member other also rfl
        exact outside (List.mem_singleton.mp also ▸ member)
      · simp [← value, stands, owned.lost]
      · intro string
        by_cases here : old = string
        · subst here
          simp [stands]
        · rw [setAt_of_ne (by simpa using here), ← owned.mem_cells]
          simp [Ne.symm here]

end Strings

/-! Nodes that come and go. -/

section Nodes

variable {trees : Trees} {heap : Heap} {cells : List Address}
variable {holder : Address → Option (Address × Field)} {node : Address}

theorem Shaped.create {forest : Forest Address} (shaped : Shaped forest heap)
    (dead : node ∉ forest.live) (kind : Kind) :
    Shaped (forest.grow node) (heap.withItem node kind) := by
  have apart : ∀ {other}, other ∈ forest.live → some node ≠ some other := by
    rintro other inside same
    cases same
    exact dead inside
  have no_kids := Forest.kids_of_notMem_live dead
  refine ⟨?_, ?_, ?_, ?_⟩
  · intro other
    by_cases here : node = other
    · subst here
      simp [Heap.withItem, Forest.grow]
    · have differs : some node ≠ some other := by simpa using here
      change setAt heap.live (some node) true other = true ↔
        other ∈ insert node forest.live
      rw [setAt_of_ne differs, shaped.live]
      exact ⟨.inr, fun member => member.resolve_left (Ne.symm here)⟩
  · intro other inside
    rcases inside with rfl | inside
    · change setAt heap.child (some other) none other =
        (forest.kids other).head?
      rw [setAt_self, no_kids]
      rfl
    · exact (setAt_of_ne (apart inside)).trans (shaped.child inside)
  · intro other
    exact (shaped.linked other).congr
      (fun kid member => setAt_of_ne (apart (forest.child_live member)))
      fun kid member => setAt_of_ne (apart (forest.child_live member))
  · intro other root
    rcases (Forest.root_grow dead).mp root with rfl | old
    · exact ⟨setAt_self _ _ _, setAt_self _ _ _⟩
    · obtain ⟨next, prev⟩ := shaped.root old
      exact ⟨(setAt_of_ne (apart old.1)).trans next,
        (setAt_of_ne (apart old.1)).trans prev⟩

theorem Owned.create (owned : Owned trees heap holder cells)
    (dead : node ∉ trees.forest.live) (fresh : heap.text node = none)
    (kind : Kind) :
    Owned (trees.create node kind) (heap.withItem node kind) holder cells := by
  have apart : ∀ {other}, other ∈ trees.forest.live →
      some node ≠ some other := by
    rintro other inside same
    cases same
    exact dead inside
  refine ⟨?_, ?_, ?_, owned.whole, ?_, ?_, owned.nodup, owned.lost,
    owned.mem_cells⟩
  · rintro other (rfl | inside)
    · exact (setAt_self _ _ _).trans (setAt_self _ _ _).symm
    · exact (setAt_of_ne (apart inside)).trans
        ((owned.kind other inside).trans (setAt_of_ne (apart inside)).symm)
  · rintro other (rfl | inside) field string
    · change setAt (heap.field field) (some other) none other = _ ↔ _
      rw [setAt_self]
      refine ⟨fun found => absurd found (by simp), fun found => ?_⟩
      exact absurd (owned.holder_live found) dead
    · change setAt (heap.field field) (some node) none other = _ ↔ _
      rw [setAt_of_ne (apart inside)]
      exact owned.held other inside field string
  · exact fun found => .inr (owned.holder_live found)
  · rintro other (rfl | inside) field
    · change (setAt (heap.field field) (some other) none other).bind heap.text =
        setAt (trees.value field) (some other) none other
      rw [setAt_self, setAt_self]
      rfl
    · change (setAt (heap.field field) (some node) none other).bind heap.text =
        setAt (trees.value field) (some node) none other
      rw [setAt_of_ne (apart inside), setAt_of_ne (apart inside)]
      exact owned.value other inside field
  · rintro other (rfl | inside)
    · exact fresh
    · exact owned.apart other inside

theorem Shaped.prune {forest : Forest Address} (shaped : Shaped forest heap)
    (root : forest.Root node) :
    Shaped (forest.prune node root)
      (heap.without holder {low | forest.Under node low}) := by
  classical
  refine ⟨?_, ?_, ?_, ?_⟩
  · intro other
    change clear heap.live false _ other = true ↔
      other ∈ forest.live ∧ ¬ forest.Under node other
    by_cases under : forest.Under node other
    · rw [clear_of_mem (by exact under)]
      simp [under]
    · rw [clear_of_notMem (by exact under), shaped.live]
      simp [under]
  · rintro other ⟨inside, apart⟩
    change heap.child other =
      (if forest.Under node other then [] else forest.kids other).head?
    rw [if_neg apart]
    exact shaped.child inside
  · intro other
    change Linked heap.next heap.prev none
      (if forest.Under node other then [] else forest.kids other) none
    split
    · trivial
    · exact shaped.linked other
  · intro other above
    exact shaped.root (Forest.root_prune.mp above).1

theorem Owned.prune (owned : Owned trees heap holder cells)
    (root : trees.forest.Root node) :
    Owned (trees.prune node root)
      (heap.without holder {low | trees.forest.Under node low})
      (clear holder none (heldBy holder {low | trees.forest.Under node low}))
      cells := by
  have kept : ∀ {string other field},
      clear holder none (heldBy holder {low | trees.forest.Under node low})
        string = some (other, field) →
      string ∉ heldBy holder {low | trees.forest.Under node low} ∧
        holder string = some (other, field) := by
    intro string other field found
    by_cases inside :
        string ∈ heldBy holder {low | trees.forest.Under node low}
    · rw [clear_of_mem inside] at found
      cases found
    · rw [clear_of_notMem inside] at found
      exact ⟨inside, found⟩
  have lost : ∀ string ∈ cells,
      string ∉ heldBy holder {low | trees.forest.Under node low} := by
    rintro string member ⟨other, -, field, found⟩
    rw [(owned.mem_cells.mp member).2] at found
    cases found
  refine ⟨?_, ?_, ?_, ?_, ?_, ?_, owned.nodup, ?_, ?_⟩
  · exact fun other inside => owned.kind other inside.1
  · rintro other ⟨inside, apart⟩ field string
    constructor
    · intro found
      have holds := (owned.held other inside field string).mp found
      exact (clear_of_notMem (notMem_heldBy holds apart)).trans holds
    · exact fun found =>
        (owned.held other inside field string).mpr (kept found).2
  · intro string other field found
    obtain ⟨outside, holds⟩ := kept found
    exact ⟨owned.holder_live holds,
      fun under => outside ⟨other, under, field, holds⟩⟩
  · intro string other field found
    obtain ⟨outside, holds⟩ := kept found
    change (clear heap.text none _ string).isSome
    rw [clear_of_notMem outside]
    exact owned.whole holds
  · rintro other ⟨inside, apart⟩ field
    refine Eq.trans ?_ (owned.value other inside field)
    change (heap.field field other).bind (clear heap.text none _) =
      (heap.field field other).bind heap.text
    cases found : heap.field field other with
    | none => rfl
    | some string =>
        have holds := (owned.held other inside field string).mp found
        exact clear_of_notMem (notMem_heldBy holds apart)
  · rintro other ⟨inside, apart⟩
    change clear heap.text none _ other = none
    by_cases member : other ∈ heldBy holder {low | trees.forest.Under node low}
    · exact clear_of_mem member
    · exact (clear_of_notMem member).trans (owned.apart other inside)
  · refine Eq.trans ?_ owned.lost
    exact List.map_congr_left fun string member =>
      clear_of_notMem (lost string member)
  · intro string
    change string ∈ cells ↔ (clear heap.text none _ string).isSome ∧
      clear holder none _ string = none
    by_cases inside :
        string ∈ heldBy holder {low | trees.forest.Under node low}
    · rw [clear_of_mem inside, clear_of_mem inside]
      simp only [Option.isSome_none, Bool.false_eq_true, false_and, iff_false]
      exact fun member => lost string member inside
    · rw [clear_of_notMem inside, clear_of_notMem inside]
      exact owned.mem_cells

theorem Shaped.deletable (shaped : Shaped trees.forest heap)
    (owned : Owned trees heap holder cells) {nodes : Set Address}
    (live : nodes ⊆ trees.forest.live) : Deletable heap holder nodes where
  live := fun _ member => shaped.live.mpr (live member)
  text := by
    rintro string ⟨other, -, field, found⟩
    exact owned.whole found

theorem cJSONDelete_root (shaped : Shaped trees.forest heap)
    (owned : Owned trees heap holder cells) (root : trees.forest.Root node) :
    ∃ least, ∀ fuel, least ≤ fuel →
      cJSONDelete fuel (some node) heap =
        some (heap.without holder {low | trees.forest.Under node low}) := by
  obtain ⟨rank, ranked⟩ := trees.forest.ranked
  obtain ⟨next, prev⟩ := shaped.root root
  have below : trees.forest.Below [node] =
      {low | trees.forest.Under node low} := by
    ext low
    simp [Forest.Below]
  have inside : trees.forest.Below [node] ⊆ trees.forest.live := by
    rw [below]
    exact fun low under => Forest.Under.live under root.1
  have deleted := cJSONDelete_siblings shaped owned.held ranked (rank node + 1)
    [node] none ⟨prev, next, trivial⟩ (List.pairwise_singleton _ _)
    (by simp) (by simpa using root.1) heap.live heap.text
    (shaped.deletable owned inside)
  rw [below] at deleted
  exact deleted

end Nodes

/-! Copies of strings. -/

section Copies

variable {trees : Trees} {heap : Heap} {cells : List Address}
variable {holder : Address → Option (Address × Field)}
variable {field : Field} {node : Address}

theorem Heap.withField_self (value : Option Address) :
    (heap.withField field node value).field field node = value := by
  simp [Heap.withField]

theorem Heap.withField_withField (value other : Option Address) :
    (heap.withField field node value).withField field node other =
      heap.withField field node other := by
  simp only [Heap.withField, setAt_setAt, setAt_self]

theorem Heap.withField_eq_self {value : Option Address}
    (same : heap.field field node = value) :
    heap.withField field node value = heap := by
  rw [Heap.withField, setAt_eq_self same, setAt_eq_self rfl]

/-- What `cJSON_strdup` makes of a string. -/
def copyOf (refused : Bool) (string : Block) : Option Block :=
  if refused then none else some string

theorem Shaped.refuse {forest : Forest Address} (shaped : Shaped forest heap) :
    Shaped forest heap.refuse :=
  ⟨shaped.live, shaped.child, shaped.linked, shaped.root⟩

theorem Owned.refuse (owned : Owned trees heap holder cells) :
    Owned trees heap.refuse holder cells :=
  ⟨owned.kind, owned.held, owned.holder_live, owned.whole, owned.value,
    owned.apart, owned.nodup, owned.lost, owned.mem_cells⟩

theorem Stands.refuse (stands : Stands trees heap) :
    Stands trees heap.refuse := by
  obtain ⟨shaped, holder, cells, owned⟩ := stands
  exact ⟨shaped.refuse, holder, cells, owned.refuse⟩

/-- The string of a field is a new one, whatever became of the old one. -/
theorem Owned.setCopy
    (owned : Owned trees (heap.withField field node none) holder cells)
    (shaped : Shaped trees.forest heap) (live : node ∈ trees.forest.live)
    (malloc : Malloc) (string : Block) :
    ∃ heap', heap.setCopy malloc string field (some node) = some heap' ∧
      Shaped trees.forest heap' ∧
      ∃ refused holder', heap'.refusals = heap.refusals + refused.toNat ∧
        Owned (trees.setValue field node (copyOf refused string)) heap' holder'
          cells := by
  have unset : (heap.withField field node none).field field node = none :=
    Heap.withField_self none
  rw [Heap.setCopy, cJSONStrdup]
  cases answer : malloc.answer heap with
  | none =>
      have released := @Owned.unassign _ _ _ _ field _ owned live
      rw [unset, Heap.withField_withField] at released
      refine ⟨_, Heap.setField_eq field none (shaped.live.mpr live), ?_,
        true, _, rfl, released.refuse⟩
      exact ⟨shaped.live, shaped.child, shaped.linked, shaped.root⟩
  | some copy =>
      obtain ⟨dead, fresh⟩ := malloc.fresh answer
      have outside : copy ∉ trees.forest.live := fun inside =>
        Bool.false_ne_true (dead.symm.trans (shaped.live.mpr inside))
      have assigned := owned.assign live unset string fresh outside
      rw [Heap.withField_withField] at assigned
      refine ⟨_, Heap.setField_eq field (some copy) (shaped.live.mpr live), ?_,
        false, _, rfl, assigned⟩
      exact ⟨shaped.live, shaped.child, shaped.linked, shaped.root⟩

end Copies

end Molten.Collector.CJson
