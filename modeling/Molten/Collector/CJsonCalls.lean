import Molten.Collector.CJsonStrings

namespace Molten.Collector.CJson

open Molten.Data Molten.Text

/-! Whole runs of calls that build, cut and delete trees. -/

/-- A child is told by its place or by its name. -/
inductive Which
  | index (which : Int)
  | name (string : Block)

inductive Call
  | create (malloc : Malloc) (kind : Kind)
  | createString (malloc : Malloc) (string : Block)
  | addItemToArray (array : Address) (item : Option Address)
  | addItemToObject (malloc : Malloc) (object : Address) (string : Block)
      (item : Option Address)
  | insertItem (array : Address) (which : Int) (newitem : Address)
  | detachItem (array : Address) (which : Which)
  | deleteItem (array : Address) (which : Which)
  | replaceItem (array : Address) (which : Int) (newitem : Address)
  | replaceNamed (malloc : Malloc) (object : Address) (string : Block)
      (newitem : Address)
  | delete (c : Option Address)

def Call.run (fuel : Nat) (heap : Heap) : Call → Option (Option Address × Heap)
  | create malloc kind => some (cJSONNewItem malloc kind heap)
  | createString malloc string => cJSONCreateString malloc string heap
  | addItemToArray array item =>
      (cJSONAddItemToArray fuel array item heap).map (none, ·)
  | addItemToObject malloc object string item =>
      (cJSONAddItemToObject fuel malloc object string item heap).map (none, ·)
  | insertItem array which newitem =>
      (cJSONInsertItemInArray fuel array which newitem heap).map (none, ·)
  | detachItem array (.index which) => cJSONDetachItemFromArray array which heap
  | detachItem object (.name string) =>
      cJSONDetachItemFromObject fuel object string heap
  | deleteItem array (.index which) =>
      (cJSONDeleteItemFromArray fuel array which heap).map (none, ·)
  | deleteItem object (.name string) =>
      (cJSONDeleteItemFromObject fuel object string heap).map (none, ·)
  | replaceItem array which newitem =>
      (cJSONReplaceItemInArray fuel array which newitem heap).map (none, ·)
  | replaceNamed malloc object string newitem =>
      (cJSONReplaceItemInObject fuel malloc object string newitem heap).map
        (none, ·)
  | delete c => (cJSONDelete fuel c heap).map (none, ·)

/-- With enough steps the call comes back. -/
def Call.Returns (call : Call) (heap : Heap) (result : Option Address)
    (heap' : Heap) : Prop :=
  ∃ least, ∀ fuel, least ≤ fuel → call.run fuel heap = some (result, heap')

theorem Call.Returns.unique {call : Call} {heap heap' heap'' : Heap}
    {result result' : Option Address} (returns : call.Returns heap result heap')
    (also : call.Returns heap result' heap'') :
    result = result' ∧ heap' = heap'' := by
  obtain ⟨least, run⟩ := returns
  obtain ⟨least', run'⟩ := also
  have same := (run (max least least') (Nat.le_max_left _ _)).symm.trans
    (run' (max least least') (Nat.le_max_right _ _))
  simpa using same

namespace Trees

variable (trees : Trees)

/-- The place of a child that is asked for. -/
def find (array : Address) : Which → Option Nat
  | .index which =>
      if which.toNat < (trees.forest.kids array).length then some which.toNat
      else none
  | .name string =>
      (trees.forest.kids array).findIdx? fun node =>
        sameName (trees.value .string node) string

variable {trees} {array item : Address}

theorem root_remove (i : Nat) (root : trees.forest.Root item) :
    (trees.remove array i).forest.Root item :=
  ⟨root.1, fun upper kept => root.2 upper (Forest.sublist_removed.subset kept)⟩

theorem apart_remove (i : Nat) (apart : ¬ trees.forest.Under item array) :
    ¬ (trees.remove array i).forest.Under item array :=
  fun under => apart (Forest.Under.of_remove under)

/-- Another item stands where the item at a place stood. -/
def exchange (trees : Trees) (array : Address) (i : Nat) (item : Address)
    (live : array ∈ trees.forest.live) (root : trees.forest.Root item)
    (apart : ¬ trees.forest.Under item array) : Trees :=
  (trees.remove array i).splice array i item live (root_remove i root)
    (apart_remove i apart)

end Trees

/-- What a call does to the trees, where it is allowed, and whether `malloc`
refuses in it.  An item that is put into a tree is the root of a tree that the
call does not put it into, and what is deleted is a root. -/
inductive Step (trees : Trees) : Call → Bool → Option Address → Trees → Prop
  | notCreated {malloc kind} : Step trees (.create malloc kind) true none trees
  | created {malloc kind node} (dead : node ∉ trees.forest.live) :
      Step trees (.create malloc kind) false (some node)
        (trees.create node kind)
  | stringNotCreated {malloc string} :
      Step trees (.createString malloc string) true none trees
  | stringCreated {malloc string node refused}
      (dead : node ∉ trees.forest.live) :
      Step trees (.createString malloc string) refused (some node)
        ((trees.create node .string).setValue .valuestring node
          (copyOf refused string))
  | nothingAdded {array} (live : array ∈ trees.forest.live) :
      Step trees (.addItemToArray array none) false none trees
  | added {array item} (live : array ∈ trees.forest.live)
      (root : trees.forest.Root item)
      (apart : ¬ trees.forest.Under item array) :
      Step trees (.addItemToArray array (some item)) false none
        (trees.splice array (trees.forest.kids array).length item live root
          apart)
  | nothingNamed {malloc object string} :
      Step trees (.addItemToObject malloc object string none) false none trees
  | named {malloc object string item refused}
      (live : object ∈ trees.forest.live)
      (root : trees.forest.Root item)
      (apart : ¬ trees.forest.Under item object) :
      Step trees (.addItemToObject malloc object string (some item)) refused
        none
        ((trees.setValue .string item (copyOf refused string)).splice object
          (trees.forest.kids object).length item live root apart)
  | inserted {array which newitem} (live : array ∈ trees.forest.live)
      (root : trees.forest.Root newitem)
      (apart : ¬ trees.forest.Under newitem array) :
      Step trees (.insertItem array which newitem) false none
        (trees.splice array which.toNat newitem live root apart)
  | nothingDetached {array which} (live : array ∈ trees.forest.live)
      (missing : trees.find array which = none) :
      Step trees (.detachItem array which) false none trees
  | detached {array which i c} (found : trees.find array which = some i)
      (item : (trees.forest.kids array)[i]? = some c) :
      Step trees (.detachItem array which) false (some c) (trees.remove array i)
  | nothingDeleted {array which} (live : array ∈ trees.forest.live)
      (missing : trees.find array which = none) :
      Step trees (.deleteItem array which) false none trees
  | deleted {array which i c} (found : trees.find array which = some i)
      (item : (trees.forest.kids array)[i]? = some c)
      (root : (trees.remove array i).forest.Root c) :
      Step trees (.deleteItem array which) false none
        ((trees.remove array i).prune c root)
  | nothingReplaced {array which newitem} (live : array ∈ trees.forest.live)
      (missing : trees.find array (.index which) = none) :
      Step trees (.replaceItem array which newitem) false none trees
  | replaced {array which newitem i c} (live : array ∈ trees.forest.live)
      (root : trees.forest.Root newitem)
      (apart : ¬ trees.forest.Under newitem array)
      (found : trees.find array (.index which) = some i)
      (item : (trees.forest.kids array)[i]? = some c)
      (old : (trees.exchange array i newitem live root apart).forest.Root c) :
      Step trees (.replaceItem array which newitem) false none
        ((trees.exchange array i newitem live root apart).prune c old)
  | nothingRenamed {malloc object string newitem}
      (live : object ∈ trees.forest.live)
      (missing : trees.find object (.name string) = none) :
      Step trees (.replaceNamed malloc object string newitem) false none trees
  | renamed {malloc object string newitem i c refused}
      (live : object ∈ trees.forest.live) (root : trees.forest.Root newitem)
      (apart : ¬ trees.forest.Under newitem object)
      (found : trees.find object (.name string) = some i)
      (item : (trees.forest.kids object)[i]? = some c)
      (old : (((trees.lose .string newitem).setValue .string newitem
        (copyOf refused string)).exchange object i newitem live root
          apart).forest.Root c) :
      Step trees (.replaceNamed malloc object string newitem) refused none
        ((((trees.lose .string newitem).setValue .string newitem
          (copyOf refused string)).exchange object i newitem live root
            apart).prune c old)
  | nothingFreed : Step trees (.delete none) false none trees
  | freed {c} (root : trees.forest.Root c) :
      Step trees (.delete (some c)) false none (trees.prune c root)

/-! The calls one by one. -/

section Calls

variable {trees : Trees} {heap : Heap}

/-- A call does to memory what it does to the trees. -/
def Carries (trees : Trees) (heap : Heap) (call : Call) : Prop :=
  ∃ refused result heap' trees', call.Returns heap result heap' ∧
    heap'.refusals = heap.refusals + refused.toNat ∧
    Step trees call refused result trees' ∧ Stands trees' heap'

theorem carries_same (stands : Stands trees heap) {call : Call}
    (step : Step trees call false none trees) (least : Nat)
    (run : ∀ fuel, least ≤ fuel → call.run fuel heap = some (none, heap)) :
    Carries trees heap call :=
  ⟨false, none, heap, trees, ⟨least, run⟩, rfl, step, stands⟩

theorem Stands.notMem_live (stands : Stands trees heap) {malloc : Malloc}
    {node : Address} (answer : malloc.answer heap = some node) :
    node ∉ trees.forest.live := fun inside =>
  Bool.false_ne_true
    ((malloc.fresh answer).1.symm.trans (stands.1.live.mpr inside))

theorem Stands.create (stands : Stands trees heap) {malloc : Malloc}
    {node : Address} (answer : malloc.answer heap = some node) (kind : Kind) :
    Stands (trees.create node kind) (heap.withItem node kind) := by
  have outside := stands.notMem_live answer
  obtain ⟨shaped, holder, cells, owned⟩ := stands
  exact ⟨shaped.create outside kind, holder, cells,
    owned.create outside (malloc.fresh answer).2 kind⟩

theorem returns_create {malloc : Malloc} {node : Address}
    (answer : malloc.answer heap = some node) (kind : Kind) :
    (Call.create malloc kind).Returns heap (some node)
      (heap.withItem node kind) := by
  refine ⟨0, fun fuel _ => ?_⟩
  rw [Call.run, cJSONNewItem, answer]

theorem carries_create (stands : Stands trees heap) (malloc : Malloc)
    (kind : Kind) : Carries trees heap (.create malloc kind) := by
  cases answer : malloc.answer heap with
  | none =>
      refine ⟨true, none, heap.refuse, trees, ⟨0, fun fuel _ => ?_⟩, rfl,
        .notCreated, stands.refuse⟩
      rw [Call.run, cJSONNewItem, answer]
  | some node =>
      exact ⟨false, some node, _, _, returns_create answer kind, rfl,
        .created (stands.notMem_live answer), stands.create answer kind⟩

theorem carries_createString (stands : Stands trees heap) (malloc : Malloc)
    (string : Block) : Carries trees heap (.createString malloc string) := by
  obtain ⟨shaped, holder, cells, owned⟩ := stands
  cases answer : malloc.answer heap with
  | none =>
      refine ⟨true, none, heap.refuse, trees, ⟨0, fun fuel _ => ?_⟩, rfl,
        .stringNotCreated, shaped.refuse, holder, cells, owned.refuse⟩
      rw [Call.run, cJSONCreateString, cJSONNewItem, answer]
      rfl
  | some node =>
      have outside := Stands.notMem_live ⟨shaped, holder, cells, owned⟩ answer
      have shaped' := shaped.create outside .string
      have owned' := owned.create outside (malloc.fresh answer).2 .string
      have unset : (heap.withItem node .string).field .valuestring node =
          none := setAt_self _ _ _
      rw [← Heap.withField_eq_self unset] at owned'
      obtain ⟨heap', set, shaped'', refused, holder', refusals, owned''⟩ :=
        owned'.setCopy shaped' (.inl rfl) malloc string
      refine ⟨refused, some node, heap', _, ⟨0, fun fuel _ => ?_⟩, refusals,
        .stringCreated outside, shaped'', holder', cells, owned''⟩
      rw [Call.run, cJSONCreateString, cJSONNewItem, answer]
      simp [set]

theorem Owned.spliced {holder cells} (owned : Owned trees heap holder cells)
    {array item : Address} (i : Nat) (front back : List Address)
    (live : array ∈ trees.forest.live) (root : trees.forest.Root item)
    (apart : ¬ trees.forest.Under item array) :
    Owned (trees.splice array i item live root apart)
      (heap.spliced array item front back) holder cells :=
  ⟨owned.kind, owned.held, owned.holder_live, owned.whole, owned.value,
    owned.apart, owned.nodup, owned.lost, owned.mem_cells⟩

theorem Owned.detached {holder cells} (owned : Owned trees heap holder cells)
    (array item : Address) (i : Nat) (front back : List Address) :
    Owned (trees.remove array i) (heap.detached array item front back) holder
      cells :=
  ⟨owned.kind, owned.held, owned.holder_live, owned.whole, owned.value,
    owned.apart, owned.nodup, owned.lost, owned.mem_cells⟩

theorem carries_addItemToArray (stands : Stands trees heap) {array item}
    (live : array ∈ trees.forest.live) (root : trees.forest.Root item)
    (apart : ¬ trees.forest.Under item array) :
    Carries trees heap (.addItemToArray array (some item)) := by
  obtain ⟨shaped, holder, cells, owned⟩ := stands
  have spliced := shaped.spliced live root apart
    (trees.forest.kids array).length
  rw [List.take_length, List.drop_length] at spliced
  refine ⟨false, none, _, _, ⟨(trees.forest.kids array).length,
    fun fuel enough => ?_⟩, by rfl, .added live root apart, spliced, holder,
    cells, owned.spliced _ _ _ live root apart⟩
  rw [Call.run, cJSONAddItemToArray_eq shaped live root enough]
  rfl

theorem Trees.setValue_setValue (field : Field) (node : Address)
    (value other : Option Block) :
    (trees.setValue field node value).setValue field node other =
      trees.setValue field node other := by
  simp only [Trees.setValue, setAt_setAt, setAt_self]

theorem carries_addItemToObject (stands : Stands trees heap) (malloc : Malloc)
    {object item} (string : Block) (live : object ∈ trees.forest.live)
    (root : trees.forest.Root item)
    (apart : ¬ trees.forest.Under item object) :
    Carries trees heap (.addItemToObject malloc object string (some item)) := by
  obtain ⟨shaped, holder, cells, owned⟩ := stands
  have item_live := shaped.live.mpr root.1
  have old : ∀ place ∈ heap.field .string item, (heap.text place).isSome :=
    fun place found => owned.text_of_field root.1 found
  have freed := Heap.freeText_eq old
  have shaped' : Shaped trees.forest
      { heap with text := setAt heap.text (heap.field .string item) none } :=
    ⟨shaped.live, shaped.child, shaped.linked, shaped.root⟩
  have released : Owned (trees.setValue .string item none)
      (Heap.withField
        { heap with text := setAt heap.text (heap.field .string item) none }
        .string item none)
      (setAt holder (heap.field .string item) none) cells :=
    owned.unassign root.1
  obtain ⟨heap', set, shaped'', refused, holder', refusals, owned'⟩ :=
    released.setCopy shaped' root.1 malloc string
  rw [Trees.setValue_setValue] at owned'
  change Shaped trees.forest heap' at shaped''
  have spliced := shaped''.spliced live root apart
    (trees.forest.kids object).length
  rw [List.take_length, List.drop_length] at spliced
  refine ⟨refused, none, _, _, ⟨(trees.forest.kids object).length,
    fun fuel enough => ?_⟩, by exact refusals, .named live root apart, spliced,
    holder', cells, owned'.spliced _ _ _ live root apart⟩
  rw [Call.run, cJSONAddItemToObject]
  simp only [bind, Heap.readField_eq _ item_live, Option.bind_some, freed, set,
    cJSONAddItemToArray_eq shaped'' live root enough, Option.map_some]

theorem carries_insertItem (stands : Stands trees heap) {array newitem}
    (which : Int) (live : array ∈ trees.forest.live)
    (root : trees.forest.Root newitem)
    (apart : ¬ trees.forest.Under newitem array) :
    Carries trees heap (.insertItem array which newitem) := by
  obtain ⟨shaped, holder, cells, owned⟩ := stands
  refine ⟨false, none, _, _, ⟨(trees.forest.kids array).length,
    fun fuel enough => ?_⟩, by rfl, .inserted live root apart,
    shaped.spliced live root apart which.toNat, holder, cells,
    owned.spliced _ _ _ live root apart⟩
  rw [Call.run, cJSONInsertItemInArray_eq shaped live root which enough]
  rfl

/-! A child that is asked for. -/

theorem findIdx?_congr {α : Type*} {nodes : List α} {p q : α → Bool}
    (same : ∀ node ∈ nodes, p node = q node) :
    nodes.findIdx? p = nodes.findIdx? q := by
  induction nodes with
  | nil => rfl
  | cons node nodes induction =>
      rw [List.findIdx?_cons, List.findIdx?_cons, same node List.mem_cons_self,
        induction fun other member =>
          same other (List.mem_cons_of_mem node member)]

theorem walkToName_find {holder cells} (shaped : Shaped trees.forest heap)
    (owned : Owned trees heap holder cells) {object : Address}
    (live : object ∈ trees.forest.live) (name : Block) {fuel : Nat}
    (enough : (trees.forest.kids object).length ≤ fuel) :
    walkToName name fuel 0 (heap.child object) heap =
      some (trees.find object (.name name)) := by
  have inside : ∀ node ∈ trees.forest.kids object, node ∈ trees.forest.live :=
    fun node member => trees.forest.child_live member
  have walked := walkToName_eq (shaped.linked object)
    (shaped.kids_live object)
    (fun node member string found =>
      owned.text_of_field (inside node member) found) name enough 0
  rw [shaped.child live, walked]
  have same : ((trees.forest.kids object).findIdx? fun node =>
        sameName (heap.string .string node) name) =
      trees.find object (.name name) := findIdx?_congr fun node member => by
    rw [owned.value node (inside node member)]
  rw [same]
  simp

theorem find_index_eq_some {array : Address} {which : Int} {i : Nat}
    (found : trees.find array (.index which) = some i) : i = which.toNat := by
  rw [Trees.find] at found
  split at found
  · exact (Option.some.inj found).symm
  · cases found

theorem find_index_eq_none {array : Address} {which : Int}
    (missing : trees.find array (.index which) = none) :
    (trees.forest.kids array)[which.toNat]? = none := by
  rw [Trees.find] at missing
  split at missing
  · cases missing
  · rename_i long
    exact List.getElem?_eq_none (Nat.le_of_not_lt long)

theorem run_detachItem_none {holder cells} (shaped : Shaped trees.forest heap)
    (owned : Owned trees heap holder cells) {array : Address} {which : Which}
    (live : array ∈ trees.forest.live)
    (missing : trees.find array which = none) {fuel : Nat}
    (enough : (trees.forest.kids array).length ≤ fuel) :
    (Call.detachItem array which).run fuel heap = some (none, heap) := by
  cases which with
  | index which =>
      exact cJSONDetachItemFromArray_none shaped live
        (find_index_eq_none missing)
  | name name =>
      have walked := walkToName_find shaped owned live name enough
      rw [missing] at walked
      rw [Call.run, cJSONDetachItemFromObject,
        Heap.readChild_eq (shaped.live.mpr live)]
      simp [walked]

theorem run_detachItem_some {holder cells} (shaped : Shaped trees.forest heap)
    (owned : Owned trees heap holder cells) {array c : Address} {which : Which}
    {front back : List Address}
    (found : trees.find array which = some front.length)
    (split : trees.forest.kids array = front ++ c :: back) {fuel : Nat}
    (enough : (trees.forest.kids array).length ≤ fuel) :
    (Call.detachItem array which).run fuel heap =
      some (some c, heap.detached array c front back) := by
  cases which with
  | index which =>
      exact cJSONDetachItemFromArray_eq shaped split (find_index_eq_some found)
  | name name =>
      have live : array ∈ trees.forest.live :=
        trees.forest.parent_live (split ▸ List.mem_append_right front
          List.mem_cons_self)
      have walked := walkToName_find shaped owned live name enough
      rw [found] at walked
      rw [Call.run, cJSONDetachItemFromObject,
        Heap.readChild_eq (shaped.live.mpr live)]
      simp only [bind, Option.bind_some, walked]
      exact cJSONDetachItemFromArray_eq shaped split (by simp)

theorem carries_detachItem_none (stands : Stands trees heap) {array which}
    (live : array ∈ trees.forest.live)
    (missing : trees.find array which = none) :
    Carries trees heap (.detachItem array which) := by
  obtain ⟨shaped, holder, cells, owned⟩ := id stands
  exact carries_same stands (.nothingDetached live missing) _
    fun fuel enough => run_detachItem_none shaped owned live missing enough

theorem carries_detachItem_some (stands : Stands trees heap) {array which i c}
    (found : trees.find array which = some i)
    (item : (trees.forest.kids array)[i]? = some c) :
    Carries trees heap (.detachItem array which) := by
  obtain ⟨shaped, holder, cells, owned⟩ := stands
  obtain ⟨front, back, split, rfl, -⟩ := Forest.split_at item
  exact ⟨false, some c, heap.detached array c front back, _,
    ⟨(trees.forest.kids array).length, fun fuel enough =>
      run_detachItem_some shaped owned found split enough⟩, rfl,
    .detached found item, shaped.detached split, holder, cells,
    owned.detached array c front.length front back⟩

theorem run_deleteItem (fuel : Nat) (array : Address) (which : Which) :
    (Call.deleteItem array which).run fuel heap =
      (((Call.detachItem array which).run fuel heap).bind fun detached =>
        cJSONDelete fuel detached.1 detached.2).map (none, ·) := by
  cases which <;> rfl

theorem carries_deleteItem_none (stands : Stands trees heap) {array which}
    (live : array ∈ trees.forest.live)
    (missing : trees.find array which = none) :
    Carries trees heap (.deleteItem array which) := by
  obtain ⟨shaped, holder, cells, owned⟩ := id stands
  refine carries_same stands (.nothingDeleted live missing)
    (trees.forest.kids array).length fun fuel enough => ?_
  rw [run_deleteItem, run_detachItem_none shaped owned live missing enough]
  simp

theorem carries_deleteItem_some (stands : Stands trees heap) {array which i c}
    (found : trees.find array which = some i)
    (item : (trees.forest.kids array)[i]? = some c) :
    Carries trees heap (.deleteItem array which) := by
  obtain ⟨shaped, holder, cells, owned⟩ := stands
  have root : (trees.remove array i).forest.Root c :=
    (Forest.root_remove item).mpr (.inr rfl)
  obtain ⟨front, back, split, rfl, -⟩ := Forest.split_at item
  have shaped' := shaped.detached split
  have owned' := owned.detached array c front.length front back
  obtain ⟨least, deleted⟩ := cJSONDelete_root shaped' owned' root
  refine ⟨false, none, _, _, ⟨max least (trees.forest.kids array).length,
    fun fuel enough => ?_⟩, by rfl, .deleted found item root,
    shaped'.prune root, _, cells, owned'.prune root⟩
  rw [run_deleteItem, run_detachItem_some shaped owned found split
    ((Nat.le_max_right _ _).trans enough), Option.bind_some,
    deleted fuel ((Nat.le_max_left _ _).trans enough)]
  rfl

theorem carries_delete (stands : Stands trees heap) {c}
    (root : trees.forest.Root c) : Carries trees heap (.delete (some c)) := by
  obtain ⟨shaped, holder, cells, owned⟩ := stands
  obtain ⟨least, deleted⟩ := cJSONDelete_root shaped owned root
  refine ⟨false, none, _, _, ⟨least, fun fuel enough => ?_⟩, by rfl,
    .freed root, shaped.prune root, _, cells, owned.prune root⟩
  rw [Call.run, deleted fuel enough]
  rfl

/-! An item in the place of another. -/

theorem replaceItem_spec {holder cells} (shaped : Shaped trees.forest heap)
    (owned : Owned trees heap holder cells) {array newitem c : Address}
    {i : Nat} (live : array ∈ trees.forest.live)
    (root : trees.forest.Root newitem)
    (apart : ¬ trees.forest.Under newitem array)
    (item : (trees.forest.kids array)[i]? = some c) :
    ∃ old : (trees.exchange array i newitem live root apart).forest.Root c,
      ∃ heap' holder', (∃ least, ∀ fuel, least ≤ fuel → ∀ which : Int,
        which.toNat = i → cJSONReplaceItemInArray fuel (some array) which
          (some newitem) heap = some heap') ∧
        heap'.refusals = heap.refusals ∧
        Shaped ((trees.exchange array i newitem live root apart).prune c
          old).forest heap' ∧
        Owned ((trees.exchange array i newitem live root apart).prune c old)
          heap' holder' cells := by
  have differs : c ≠ newitem := by
    rintro rfl
    exact root.2 array (List.mem_of_getElem? item)
  have old :
      (trees.exchange array i newitem live root apart).forest.Root c := by
    have inside : array ∈ (trees.remove array i).forest.live := live
    have above : ((trees.remove array i).forest.splice array i newitem inside
        (Trees.root_remove i root) (Trees.apart_remove i apart)).Root c :=
      Forest.root_splice.mpr
        ⟨(Forest.root_remove item).mpr (.inr rfl), differs⟩
    exact above
  obtain ⟨front, back, split, rfl, erased⟩ := Forest.split_at item
  have shaped' := (shaped.detached split).spliced live
    (Trees.root_remove front.length root)
    (Trees.apart_remove front.length apart) front.length
  have kids : (trees.forest.remove array front.length).kids array =
      front ++ back := Forest.removed_self.trans erased
  rw [kids, List.take_left, List.drop_left] at shaped'
  have owned' := (owned.detached array c front.length front back).spliced
    front.length front back live (Trees.root_remove front.length root)
    (Trees.apart_remove front.length apart)
  obtain ⟨least, deleted⟩ := cJSONDelete_root shaped' owned' old
  refine ⟨old, _, _, ⟨least, fun fuel enough which place => ?_⟩, by rfl,
    shaped'.prune old, owned'.prune old⟩
  rw [cJSONReplaceItemInArray_eq shaped root split place.symm fuel]
  exact deleted fuel enough

theorem carries_replaceItem_none (stands : Stands trees heap) {array which}
    (live : array ∈ trees.forest.live)
    (missing : trees.find array (.index which) = none) (newitem : Address) :
    Carries trees heap (.replaceItem array which newitem) := by
  obtain ⟨shaped, holder, cells, owned⟩ := id stands
  refine carries_same stands (.nothingReplaced live missing) 0 fun fuel _ => ?_
  rw [Call.run, cJSONReplaceItemInArray_none shaped live
    (find_index_eq_none missing)]
  rfl

theorem carries_replaceItem_some (stands : Stands trees heap)
    {array which newitem i c} (live : array ∈ trees.forest.live)
    (root : trees.forest.Root newitem)
    (apart : ¬ trees.forest.Under newitem array)
    (found : trees.find array (.index which) = some i)
    (item : (trees.forest.kids array)[i]? = some c) :
    Carries trees heap (.replaceItem array which newitem) := by
  obtain ⟨shaped, holder, cells, owned⟩ := stands
  obtain ⟨old, heap', holder', ⟨least, run⟩, refusals, shaped', owned'⟩ :=
    replaceItem_spec shaped owned live root apart item
  refine ⟨false, none, heap', _, ⟨least, fun fuel enough => ?_⟩, refusals,
    .replaced live root apart found item old, shaped', holder', cells, owned'⟩
  rw [Call.run, run fuel enough which (find_index_eq_some found).symm]
  rfl

theorem carries_replaceNamed_none (stands : Stands trees heap) {object name}
    (live : object ∈ trees.forest.live)
    (missing : trees.find object (.name name) = none) (malloc : Malloc)
    (newitem : Address) :
    Carries trees heap (.replaceNamed malloc object name newitem) := by
  obtain ⟨shaped, holder, cells, owned⟩ := id stands
  refine carries_same stands (.nothingRenamed live missing)
    (trees.forest.kids object).length fun fuel enough => ?_
  have walked := walkToName_find shaped owned live name enough
  rw [missing] at walked
  rw [Call.run, cJSONReplaceItemInObject,
    Heap.readChild_eq (shaped.live.mpr live)]
  simp [walked]

theorem carries_replaceNamed_some (stands : Stands trees heap)
    {object name newitem i c} (live : object ∈ trees.forest.live)
    (root : trees.forest.Root newitem)
    (apart : ¬ trees.forest.Under newitem object)
    (found : trees.find object (.name name) = some i)
    (item : (trees.forest.kids object)[i]? = some c) (malloc : Malloc) :
    Carries trees heap (.replaceNamed malloc object name newitem) := by
  obtain ⟨shaped, holder, cells, owned⟩ := stands
  obtain ⟨heap', set, shaped', refused, holder', refusals, owned'⟩ :=
    (@Owned.lose _ _ _ _ .string _ owned root.1).setCopy shaped root.1 malloc
      name
  have named : Shaped
      ((trees.lose .string newitem).setValue .string newitem
        (copyOf refused name)).forest heap' := shaped'
  obtain ⟨old, heap'', holder'', ⟨least, run⟩, kept, shaped'', owned''⟩ :=
    replaceItem_spec named owned' live root apart item
  refine ⟨refused, none, heap'', _,
    ⟨max least (trees.forest.kids object).length, fun fuel enough => ?_⟩,
    kept.trans refusals, .renamed live root apart found item old, shaped'',
    holder'', _, owned''⟩
  have walked := walkToName_find shaped owned live name
    ((Nat.le_max_right _ _).trans enough)
  rw [found] at walked
  rw [Call.run, cJSONReplaceItemInObject,
    Heap.readChild_eq (shaped.live.mpr live)]
  simp only [bind, Option.bind_some, walked, set]
  rw [run fuel ((Nat.le_max_left _ _).trans enough) i (by simp)]
  rfl

/-- Every call that the trees allow comes back, and does to memory what it does
to the trees. -/
theorem Stands.carries (stands : Stands trees heap) {call : Call}
    {refused : Bool} {result : Option Address} {trees' : Trees}
    (step : Step trees call refused result trees') :
    Carries trees heap call := by
  cases step with
  | notCreated => exact carries_create stands _ _
  | created => exact carries_create stands _ _
  | stringNotCreated => exact carries_createString stands _ _
  | stringCreated => exact carries_createString stands _ _
  | nothingAdded live =>
      refine carries_same stands (.nothingAdded live) 0 fun fuel _ => ?_
      rw [Call.run, cJSONAddItemToArray,
        Heap.readChild_eq (stands.1.live.mpr live)]
      rfl
  | added live root apart => exact carries_addItemToArray stands live root apart
  | nothingNamed =>
      exact carries_same stands .nothingNamed 0 fun _ _ => rfl
  | named live root apart =>
      exact carries_addItemToObject stands _ _ live root apart
  | inserted live root apart =>
      exact carries_insertItem stands _ live root apart
  | nothingDetached live missing =>
      exact carries_detachItem_none stands live missing
  | detached found item => exact carries_detachItem_some stands found item
  | nothingDeleted live missing =>
      exact carries_deleteItem_none stands live missing
  | deleted found item => exact carries_deleteItem_some stands found item
  | nothingReplaced live missing =>
      exact carries_replaceItem_none stands live missing _
  | replaced live root apart found item =>
      exact carries_replaceItem_some stands live root apart found item
  | nothingRenamed live missing =>
      exact carries_replaceNamed_none stands live missing _ _
  | renamed live root apart found item =>
      exact carries_replaceNamed_some stands live root apart found item _
  | nothingFreed =>
      refine carries_same stands .nothingFreed 0 fun fuel _ => ?_
      rw [Call.run, cJSONDelete_null]
      rfl
  | freed root => exact carries_delete stands root

/-- What the calls of a program make of an empty memory, as long as each is
allowed. -/
inductive Reached : Heap → Prop
  | empty : Reached .empty
  | call {heap heap' trees trees' call refused result result'} :
      Reached heap → Stands trees heap →
      Step trees call refused result trees' →
      call.Returns heap result' heap' → Reached heap'

theorem stands_empty : Stands .empty .empty := by
  refine ⟨⟨?_, ?_, ?_, ?_⟩, fun _ => none, [], ?_⟩
  · intro node
    exact ⟨fun alive => absurd alive Bool.false_ne_true,
      fun inside => inside.elim⟩
  · exact fun inside => inside.elim
  · exact fun node => trivial
  · exact fun root => root.1.elim
  · exact {
      kind := fun _ inside => inside.elim
      held := fun _ inside => inside.elim
      holder_live := fun found => nomatch found
      whole := fun found => nomatch found
      value := fun _ inside => inside.elim
      apart := fun _ inside => inside.elim
      nodup := List.nodup_nil
      lost := rfl
      mem_cells := by simp [Heap.empty] }

theorem Reached.stands (reached : Reached heap) :
    ∃ trees, Stands trees heap := by
  induction reached with
  | empty => exact ⟨.empty, stands_empty⟩
  | call _ stands step returns _ =>
      obtain ⟨_, _, _, trees', returns', _, _, stands'⟩ :=
        stands.carries step
      exact ⟨trees', (returns'.unique returns).2 ▸ stands'⟩

/-- Memory always stands for some trees, and every call that these allow comes
back and does to memory what it does to the trees. -/
theorem carries_of_reached (reached : Reached heap) :
    ∃ trees, Stands trees heap ∧ ∀ call refused result trees',
      Step trees call refused result trees' → Carries trees heap call := by
  obtain ⟨trees, stands⟩ := reached.stands
  exact ⟨trees, stands, fun call refused result trees' step =>
    stands.carries step⟩

/-- The first of some addresses that is free. -/
def firstFree (bound : Nat) : Malloc where
  answer heap := (List.range bound).find? fun address =>
    !heap.live address && (heap.text address).isNone
  fresh := by
    intro heap address found
    simpa using List.find?_some found

/-- The trees are told by what a call answers and whether it is refused. -/
theorem Step.unique {call : Call} {refused : Bool} {result : Option Address}
    {trees' trees'' : Trees} (step : Step trees call refused result trees')
    (also : Step trees call refused result trees'') : trees' = trees'' := by
  cases step <;> cases also <;> simp_all

theorem Stands.call (stands : Stands trees heap) {call : Call}
    {refused : Bool} {result : Option Address} {trees' : Trees} {heap' : Heap}
    (step : Step trees call refused result trees')
    (returns : call.Returns heap result heap')
    (refusals : heap'.refusals = heap.refusals + refused.toNat) :
    Stands trees' heap' := by
  obtain ⟨refused', result', heap'', trees'', returns', refusals', step',
    stands'⟩ := stands.carries step
  obtain ⟨rfl, rfl⟩ := returns.unique returns'
  have same : refused.toNat = refused'.toNat :=
    Nat.add_left_cancel (refusals.symm.trans refusals')
  obtain rfl : refused = refused' := by
    cases refused <;> cases refused' <;> simp_all
  exact step.unique step' ▸ stands'

/-- A call that comes back within one step. -/
def Heap.after (heap : Heap) (call : Call) : Heap :=
  ((call.run 1 heap).map Prod.snd).getD heap

/-- What makes `{"x":"b","y":null}`. -/
def pairCalls : List Call :=
  [.create (firstFree 6) .object,
    .createString (firstFree 6) (Block.ofString "b"),
    .create (firstFree 6) .null,
    .addItemToObject (firstFree 6) 0 (Block.ofString "x") (some 1),
    .addItemToObject (firstFree 6) 0 (Block.ofString "y") (some 3)]

def pair : Heap :=
  pairCalls.foldl Heap.after .empty

theorem Reached.after {call : Call} {refused : Bool}
    {result : Option Address} {trees' : Trees}
    (so_far : Reached heap ∧ Stands trees heap)
    (step : Step trees call refused result trees')
    (run : ∀ fuel, call.run (fuel + 1) heap = some (result, heap.after call))
    (refusals : (heap.after call).refusals = heap.refusals + refused.toNat) :
    Reached (heap.after call) ∧ Stands trees' (heap.after call) := by
  obtain ⟨reached, stands⟩ := so_far
  have returns : call.Returns heap result (heap.after call) := by
    refine ⟨1, fun fuel enough => ?_⟩
    obtain ⟨fuel, rfl⟩ := Nat.exists_eq_add_of_le' enough
    exact run fuel
  exact ⟨reached.call stands step returns, stands.call step returns refusals⟩

/-- The items, before they are put into the object. -/
def pairItems : Trees :=
  (((Trees.empty.create 0 .object).create 1 .string).setValue .valuestring 1
    (some (Block.ofString "b"))).create 3 .null

theorem pairItems_root : ∀ node ∈ [0, 1, 3], pairItems.forest.Root node := by
  intro node member
  refine ⟨?_, fun _ => List.not_mem_nil⟩
  simp only [List.mem_cons, List.not_mem_nil, or_false] at member
  rcases member with rfl | rfl | rfl <;>
    simp [pairItems, Trees.create, Trees.setValue, Forest.grow]

theorem pairItems_apart : ¬ pairItems.forest.Under 1 0 := by
  intro under
  rcases Relation.ReflTransGen.cases_head under with same | ⟨kid, below, -⟩
  · cases same
  · cases below

def pairFirst : Trees :=
  (pairItems.setValue .string 1 (some (Block.ofString "x"))).splice 0 0 1
    (pairItems_root 0 (by simp)).1 (pairItems_root 1 (by simp)) pairItems_apart

theorem pairFirst_live : 0 ∈ pairFirst.forest.live :=
  (pairItems_root 0 (by simp)).1

theorem pairFirst_root : pairFirst.forest.Root 3 := by
  have above : (pairItems.forest.splice 0 0 1 (pairItems_root 0 (by simp)).1
      (pairItems_root 1 (by simp)) pairItems_apart).Root 3 :=
    Forest.root_splice.mpr ⟨pairItems_root 3 (by simp), by simp⟩
  exact above

theorem pairFirst_apart : ¬ pairFirst.forest.Under 3 0 := by
  intro under
  rcases Relation.ReflTransGen.cases_head under with same | ⟨kid, below, -⟩
  · cases same
  · have alone : Forest.spliced pairItems.forest.kids 0 0 1 3 = [] :=
      (Forest.spliced_of_ne (by decide)).trans rfl
    change kid ∈ Forest.spliced pairItems.forest.kids 0 0 1 3 at below
    rw [alone] at below
    cases below

theorem pair_reached : Reached pair := by
  have object : Step .empty (.create (firstFree 6) .object) false (some 0) _ :=
    .created id
  have made := Reached.after ⟨.empty, stands_empty⟩ object (fun _ => rfl) rfl
  have string : Step (Trees.empty.create 0 .object)
      (.createString (firstFree 6) (Block.ofString "b")) false (some 1) _ :=
    .stringCreated (by rintro (inside | inside) <;> cases inside)
  have made := Reached.after made string (fun _ => rfl) rfl
  have null : Step (((Trees.empty.create 0 .object).create 1 .string).setValue
      .valuestring 1 (some (Block.ofString "b")))
      (.create (firstFree 6) .null) false (some 3) pairItems :=
    .created (by rintro (inside | inside | inside) <;> cases inside)
  have made := Reached.after made null (fun _ => rfl) rfl
  have named : Step pairItems (.addItemToObject (firstFree 6) 0
      (Block.ofString "x") (some 1)) false none pairFirst :=
    .named (pairItems_root 0 (by simp)).1 (pairItems_root 1 (by simp))
      pairItems_apart
  have made := Reached.after made named (fun _ => rfl) rfl
  have also : Step pairFirst (.addItemToObject (firstFree 6) 0
      (Block.ofString "y") (some 3)) false none _ :=
    .named pairFirst_live pairFirst_root pairFirst_apart
  exact (Reached.after made also (fun _ => rfl) rfl).1

/-- An object with a string and a `null` carries every call on. -/
theorem pair_carries :
    (pair.child 0 = some 1 ∧ pair.next 1 = some 3 ∧
      pair.string .valuestring 1 = some (Block.ofString "b") ∧
      pair.string .string 3 = some (Block.ofString "y")) ∧
      ∃ trees, Stands trees pair ∧ ∀ call refused result trees',
        Step trees call refused result trees' → Carries trees pair call :=
  ⟨⟨rfl, rfl, rfl, rfl⟩, carries_of_reached pair_reached⟩

end Calls

end Molten.Collector.CJson
