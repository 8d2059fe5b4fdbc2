import Molten.Collector.CJsonHeap
import Molten.Data.Forest

namespace Molten.Collector.CJson

open Molten.Data Molten.Text

/-! The trees that the nodes in memory stand for. -/

/-- The links of the nodes are those of a forest. -/
structure Shaped (forest : Forest Address) (heap : Heap) : Prop where
  live : ∀ {node}, heap.live node = true ↔ node ∈ forest.live
  child : ∀ {node}, node ∈ forest.live →
    heap.child node = (forest.kids node).head?
  linked : ∀ node, Linked heap.next heap.prev none (forest.kids node) none
  root : ∀ {node}, forest.Root node →
    heap.next node = none ∧ heap.prev node = none

namespace Heap

variable {heap : Heap} {node : Address}

@[simp] theorem deref_some :
    heap.deref (some node) = if heap.live node then some node else none := rfl

theorem readNext_eq (live : heap.live node = true) :
    heap.readNext (some node) = some (heap.next node) := by
  simp [readNext, live]

theorem readPrev_eq (live : heap.live node = true) :
    heap.readPrev (some node) = some (heap.prev node) := by
  simp [readPrev, live]

theorem readChild_eq (live : heap.live node = true) :
    heap.readChild (some node) = some (heap.child node) := by
  simp [readChild, live]

theorem readField_eq (field : Field) (live : heap.live node = true) :
    heap.readField field (some node) = some (heap.field field node) := by
  simp [readField, live]

theorem setNext_eq (value : Option Address) (live : heap.live node = true) :
    heap.setNext (some node) value =
      some { heap with next := setAt heap.next (some node) value } := by
  simp [setNext, live]

theorem setPrev_eq (value : Option Address) (live : heap.live node = true) :
    heap.setPrev (some node) value =
      some { heap with prev := setAt heap.prev (some node) value } := by
  simp [setPrev, live]

theorem setChild_eq (value : Option Address) (live : heap.live node = true) :
    heap.setChild (some node) value =
      some { heap with child := setAt heap.child (some node) value } := by
  simp [setChild, live]

theorem setField_eq (field : Field) (value : Option Address)
    (live : heap.live node = true) :
    heap.setField field (some node) value =
      some (heap.withField field node value) := by
  simp [setField, live]

theorem setNextOf_eq {pointer : Option Address} (value : Option Address)
    (live : ∀ node ∈ pointer, heap.live node = true) :
    heap.setNextOf pointer value =
      some { heap with next := setAt heap.next pointer value } := by
  cases pointer with
  | none => rfl
  | some node => exact setNext_eq value (live node rfl)

theorem setPrevOf_eq {pointer : Option Address} (value : Option Address)
    (live : ∀ node ∈ pointer, heap.live node = true) :
    heap.setPrevOf pointer value =
      some { heap with prev := setAt heap.prev pointer value } := by
  cases pointer with
  | none => rfl
  | some node => exact setPrev_eq value (live node rfl)

theorem moveChild_eq {front : List Address} (value : Option Address)
    (live : heap.live node = true) {c : Address} (absent : c ∉ front)
    (child : heap.child node = front.head?.or (some c)) :
    heap.moveChild (some node) (some c) value =
      some { heap with
        child := setAt heap.child (some node) (front.head?.or value) } := by
  rw [moveChild, readChild_eq live, child]
  cases front with
  | nil =>
      simp only [List.head?_nil, Option.none_or, bind, Option.bind_some,
        if_true]
      exact setChild_eq value live
  | cons first rest =>
      have differs : some c ≠ some first := by
        rintro same
        cases same
        exact absent List.mem_cons_self
      simp only [List.head?_cons, Option.some_or, bind, Option.bind_some,
        if_neg differs]
      have kept : setAt heap.child (some node) (some first) = heap.child :=
        setAt_eq_self child
      rw [kept]

theorem linkFront_eq {front : List Address} {item c : Address}
    (live : heap.live node = true) (item_live : heap.live item = true)
    (front_live : ∀ other ∈ front, heap.live other = true)
    (absent : c ∉ front) (child : heap.child node = front.head?.or (some c))
    (prev : heap.prev item = front.getLast?) :
    heap.linkFront (some node) (some c) (some item) =
      some { heap with
        next := setAt heap.next front.getLast? (some item)
        child := setAt heap.child (some node)
          (front.head?.or (some item)) } := by
  rw [linkFront, readChild_eq live, child]
  cases front with
  | nil =>
      simp only [List.head?_nil, Option.none_or, bind, Option.bind_some,
        if_true]
      exact setChild_eq (some item) live
  | cons first rest =>
      have differs : some c ≠ some first := by
        rintro same
        cases same
        exact absent List.mem_cons_self
      obtain ⟨last, atLast⟩ : ∃ last, (first :: rest).getLast? = some last :=
        Option.isSome_iff_exists.mp (by simp)
      have last_live := front_live last (List.mem_of_getLast? atLast)
      simp only [List.head?_cons, Option.some_or, bind, Option.bind_some,
        if_neg differs, readPrev_eq item_live, prev, atLast,
        setNext_eq _ last_live]
      have kept : setAt heap.child (some node) (some first) = heap.child :=
        setAt_eq_self child
      rw [kept]

end Heap

/-! Walks along the children of a node. -/

section Walks

variable {heap : Heap} {nodes : List Address} {before : Option Address}

theorem walk_eq (linked : Linked heap.next heap.prev before nodes none)
    (live : ∀ node ∈ nodes, heap.live node = true) (which : Nat) :
    walk which nodes.head? heap = some nodes[which]? := by
  induction nodes generalizing before which with
  | nil => cases which <;> rfl
  | cons node nodes induction =>
      cases which with
      | zero => rfl
      | succ which =>
          obtain ⟨-, next, rest⟩ := linked
          rw [Option.or_none] at next
          have read := Heap.readNext_eq (live node List.mem_cons_self)
          simp only [List.head?_cons, walk, read, next, bind, Option.bind_some]
          exact induction rest
            (fun other member => live other (List.mem_cons_of_mem node member))
            which

theorem walkToLast_eq (linked : Linked heap.next heap.prev before nodes none)
    (live : ∀ node ∈ nodes, heap.live node = true) {fuel : Nat}
    (enough : nodes.length ≤ fuel) :
    walkToLast fuel nodes.head? heap = some nodes.getLast? := by
  induction nodes generalizing before fuel with
  | nil => cases fuel <;> rfl
  | cons node nodes induction =>
      cases fuel with
      | zero => exact absurd enough (Nat.not_succ_le_zero _)
      | succ fuel =>
          obtain ⟨-, next, rest⟩ := linked
          rw [Option.or_none] at next
          have read := Heap.readNext_eq (live node List.mem_cons_self)
          have walked := induction rest
            (fun other member => live other (List.mem_cons_of_mem node member))
            (Nat.le_of_succ_le_succ enough)
          simp only [List.head?_cons, walkToLast, read, next, bind,
            Option.bind_some]
          cases nodes with
          | nil => rfl
          | cons other nodes => exact walked

theorem walkToName_eq (linked : Linked heap.next heap.prev before nodes none)
    (live : ∀ node ∈ nodes, heap.live node = true)
    (strings : ∀ node ∈ nodes, ∀ string ∈ heap.field .string node,
      (heap.text string).isSome)
    (name : Block) {fuel : Nat} (enough : nodes.length ≤ fuel) (i : Nat) :
    walkToName name fuel i nodes.head? heap =
      some ((nodes.findIdx? fun node =>
        sameName (heap.string .string node) name).map (· + i)) := by
  induction nodes generalizing before fuel i with
  | nil => cases fuel <;> rfl
  | cons node nodes induction =>
      cases fuel with
      | zero => exact absurd enough (Nat.not_succ_le_zero _)
      | succ fuel =>
          obtain ⟨-, next, rest⟩ := linked
          rw [Option.or_none] at next
          have node_live := live node List.mem_cons_self
          have walked := induction rest
            (fun other member => live other (List.mem_cons_of_mem node member))
            (fun other member =>
              strings other (List.mem_cons_of_mem node member))
            (Nat.le_of_succ_le_succ enough) (i + 1)
          have whole : ((heap.field .string node).isSome &&
              ((heap.field .string node).bind heap.text).isNone) = false := by
            cases string : heap.field .string node with
            | none => rfl
            | some string =>
                have text := strings node List.mem_cons_self _ string
                simpa using text
          simp only [List.head?_cons, walkToName, bind, Option.bind_some,
            Heap.readField_eq _ node_live, Heap.readNext_eq node_live, next,
            whole, Bool.false_eq_true, if_false, List.findIdx?_cons, walked,
            Heap.string]
          split
          · simp
          · simp [Option.map_map, Function.comp_def, Nat.add_assoc,
              Nat.add_comm 1]

end Walks

/-! Writes to the links. -/

section Links

variable {forest forest' : Forest Address} {heap : Heap}
variable {parent node : Address}

/-- The list of one node is another one, and nothing else is written to. -/
theorem Shaped.relink (shaped : Shaped forest heap)
    (live : forest'.live = forest.live)
    (others : ∀ other, other ≠ parent →
      forest'.kids other = forest.kids other)
    {next prev child : Address → Option Address}
    (list : Linked next prev none (forest'.kids parent) none)
    (frame : ∀ node, node ∉ forest.kids parent → node ∉ forest'.kids parent →
      next node = heap.next node ∧ prev node = heap.prev node)
    (cut : ∀ node ∈ forest.kids parent, node ∉ forest'.kids parent →
      next node = none ∧ prev node = none)
    (head : child =
      setAt heap.child (some parent) (forest'.kids parent).head?) :
    Shaped forest'
      { heap with next := next, prev := prev, child := child } where
  live := by
    intro node
    rw [live]
    exact shaped.live
  child := by
    intro node member
    dsimp only
    rw [head]
    by_cases same : node = parent
    · rw [same, setAt_self]
    · rw [setAt_of_ne (by simpa using Ne.symm same), others node same]
      exact shaped.child (live ▸ member)
  linked := by
    intro other
    by_cases same : other = parent
    · exact same ▸ list
    · have outside : ∀ node ∈ forest'.kids other,
          next node = heap.next node ∧ prev node = heap.prev node := by
        intro node member
        refine frame node (fun kid => ?_) fun kid => ?_
        · rw [others other same] at member
          exact same (forest.parent_unique member kid)
        · exact same (forest'.parent_unique member kid)
      have kept := shaped.linked other
      rw [← others other same] at kept
      exact kept.congr (fun node member => (outside node member).1)
        fun node member => (outside node member).2
  root := by
    intro node root
    by_cases kid : node ∈ forest.kids parent
    · exact cut node kid (root.2 parent)
    · obtain ⟨sameNext, samePrev⟩ := frame node kid (root.2 parent)
      dsimp only
      rw [sameNext, samePrev]
      refine shaped.root ⟨live ▸ root.1, fun other member => ?_⟩
      by_cases same : other = parent
      · exact kid (same ▸ member)
      · exact root.2 other (by rwa [others other same])

theorem Shaped.kids_live (shaped : Shaped forest heap) (parent : Address) :
    ∀ node ∈ forest.kids parent, heap.live node = true :=
  fun _ member => shaped.live.mpr (forest.child_live member)

/-- `item` stands between two parts of the children of `array`. -/
def Heap.spliced (heap : Heap) (array item : Address)
    (front back : List Address) : Heap :=
  { heap with
    next := setAt (setAt heap.next (some item) back.head?) front.getLast?
      (some item)
    prev := setAt (setAt heap.prev (some item) front.getLast?) back.head?
      (some item)
    child := setAt heap.child (some array) (front.head?.or (some item)) }

/-- `item` is taken out between two parts of the children of `array`. -/
def Heap.detached (heap : Heap) (array item : Address)
    (front back : List Address) : Heap :=
  { heap with
    next := setAt (setAt heap.next front.getLast? back.head?) (some item) none
    prev := setAt (setAt heap.prev back.head? front.getLast?) (some item) none
    child := setAt heap.child (some array) (front.head?.or back.head?) }

theorem Shaped.spliced (shaped : Shaped forest heap) {array item : Address}
    (live : array ∈ forest.live) (root : forest.Root item)
    (apart : ¬ forest.Under item array) (i : Nat) :
    Shaped (forest.splice array i item live root apart)
      (heap.spliced array item ((forest.kids array).take i)
        ((forest.kids array).drop i)) := by
  have kids : (forest.splice array i item live root apart).kids array =
      (forest.kids array).take i ++ item :: (forest.kids array).drop i :=
    Forest.spliced_self
  have whole := List.take_append_drop i (forest.kids array)
  have linked := shaped.linked array
  rw [← whole] at linked
  have nodup := (forest.splice array i item live root apart).nodup array
  rw [kids] at nodup
  have others : ∀ other, other ≠ array →
      (forest.splice array i item live root apart).kids other =
        forest.kids other := fun other differs => Forest.spliced_of_ne differs
  refine shaped.relink (by rfl) others ?_ ?_ ?_ ?_
  · rw [kids]
    exact linked.insert nodup
  · intro node old new
    rw [kids, List.mem_append, List.mem_cons, not_or, not_or] at new
    obtain ⟨ahead, differs, behind⟩ := new
    have item_ne : some item ≠ some node := by simpa using Ne.symm differs
    rw [setAt_of_ne (getLast?_ne_of_notMem ahead), setAt_of_ne item_ne,
      setAt_of_ne (head?_ne_of_notMem behind), setAt_of_ne item_ne]
    exact ⟨rfl, rfl⟩
  · intro node old new
    refine absurd ?_ new
    exact Forest.mem_spliced.mpr (.inl old)
  · rw [kids, List.head?_append]
    rfl

theorem Shaped.detached (shaped : Shaped forest heap) {array item : Address}
    {front back : List Address}
    (split : forest.kids array = front ++ item :: back) :
    Shaped (forest.remove array front.length)
      (heap.detached array item front back) := by
  have kids : (forest.remove array front.length).kids array =
      front ++ back := by
    refine Forest.removed_self.trans ?_
    rw [split, List.eraseIdx_append_of_length_le (Nat.le_refl _), Nat.sub_self]
    rfl
  have linked := shaped.linked array
  have nodup := forest.nodup array
  rw [split] at linked nodup
  have absent : item ∉ front ++ back := by
    rw [List.nodup_middle, List.nodup_cons] at nodup
    exact nodup.1
  have outside : ∀ node ∈ front ++ back, some item ≠ some node := by
    intro node member same
    cases same
    exact absent member
  have others : ∀ other, other ≠ array →
      (forest.remove array front.length).kids other = forest.kids other :=
    fun other differs => Forest.removed_of_ne differs
  refine shaped.relink (by rfl) others ?_ ?_ ?_ ?_
  · rw [kids]
    have kept := (linked.remove nodup).setAt_next outside none
    exact kept.setAt_prev outside none
  · intro node old new
    rw [split, List.mem_append, List.mem_cons, not_or, not_or] at old
    obtain ⟨ahead, differs, behind⟩ := old
    have item_ne : some item ≠ some node := by simpa using Ne.symm differs
    rw [setAt_of_ne item_ne, setAt_of_ne (getLast?_ne_of_notMem ahead),
      setAt_of_ne item_ne, setAt_of_ne (head?_ne_of_notMem behind)]
    exact ⟨rfl, rfl⟩
  · intro node old new
    have same : node = item := by
      rw [kids, List.mem_append] at new
      rw [split, List.mem_append, List.mem_cons] at old
      tauto
    rw [same, setAt_self, setAt_self]
    exact ⟨rfl, rfl⟩
  · rw [kids, List.head?_append]

/-! What the operations on arrays write. -/

variable {array item c : Address} {front back : List Address}

theorem Shaped.array_facts (shaped : Shaped forest heap)
    (split : forest.kids array = front ++ c :: back) :
    heap.live array = true ∧ heap.live c = true ∧
      heap.child array = front.head?.or (some c) ∧
      heap.next c = back.head? ∧ heap.prev c = front.getLast? := by
  have member : c ∈ forest.kids array := by simp [split]
  have live := forest.parent_live member
  have linked := shaped.linked array
  have child := shaped.child live
  rw [split, linked_append] at linked
  rw [split, List.head?_append] at child
  obtain ⟨-, prev, next, -⟩ := linked
  rw [Option.or_none] at prev next
  exact ⟨shaped.live.mpr live, shaped.live.mpr (forest.child_live member),
    child, next, prev⟩

theorem Shaped.absent (_ : Shaped forest heap)
    (split : forest.kids array = front ++ c :: back) :
    c ∉ front ∧ c ∉ back := by
  have nodup := forest.nodup array
  rw [split, List.nodup_middle, List.nodup_cons, List.mem_append, not_or]
    at nodup
  exact nodup.1

theorem Shaped.front_live (shaped : Shaped forest heap)
    (split : forest.kids array = front ++ c :: back) :
    ∀ node ∈ front, heap.live node = true := fun node member =>
  shaped.kids_live array node (by
    rw [split]
    exact List.mem_append_left _ member)

theorem Shaped.back_live (shaped : Shaped forest heap)
    (split : forest.kids array = front ++ c :: back) :
    ∀ node ∈ back.head?, heap.live node = true := fun node first =>
  shaped.kids_live array node (by
    rw [split]
    exact List.mem_append_right _
      (List.mem_cons_of_mem c (List.mem_of_head? first)))

theorem exists_getLast (first : Address) (rest : List Address) :
    ∃ last, (first :: rest).getLast? = some last :=
  Option.isSome_iff_exists.mp (by simp)

theorem cJSONAddItemToArray_eq (shaped : Shaped forest heap)
    (live : array ∈ forest.live) (root : forest.Root item) {fuel : Nat}
    (enough : (forest.kids array).length ≤ fuel) :
    cJSONAddItemToArray fuel (some array) (some item) heap =
      some (heap.spliced array item (forest.kids array) []) := by
  have item_live := shaped.live.mpr root.1
  obtain ⟨noNext, noPrev⟩ := shaped.root root
  have child := shaped.child live
  rw [cJSONAddItemToArray, Heap.readChild_eq (shaped.live.mpr live), child]
  have walked := walkToLast_eq (shaped.linked array) (shaped.kids_live array)
    enough
  cases kids : forest.kids array with
  | nil =>
      simp [Heap.setChild_eq _ (shaped.live.mpr live), Heap.spliced,
        setAt_eq_self noNext, setAt_eq_self noPrev]
  | cons first rest =>
      obtain ⟨last, atLast⟩ := exists_getLast first rest
      have member : last ∈ forest.kids array :=
        kids ▸ List.mem_of_getLast? atLast
      have first_child : heap.child array = some first := by
        rw [child, kids]
        rfl
      rw [kids, atLast] at walked
      have last_live := shaped.kids_live array last member
      simp only [List.head?_cons, bind, Option.bind_some] at walked ⊢
      simp [walked, suffixObject, Heap.setNext, Heap.setPrev, last_live,
        item_live, Heap.spliced, atLast, setAt_eq_self noNext,
        setAt_eq_self first_child]

theorem cJSONInsertItemInArray_eq (shaped : Shaped forest heap)
    (live : array ∈ forest.live) (root : forest.Root item) (which : Int)
    {fuel : Nat} (enough : (forest.kids array).length ≤ fuel) :
    cJSONInsertItemInArray fuel (some array) which (some item) heap =
      some (heap.spliced array item ((forest.kids array).take which.toNat)
        ((forest.kids array).drop which.toNat)) := by
  have item_live := shaped.live.mpr root.1
  have array_live := shaped.live.mpr live
  have walked := walk_eq (shaped.linked array) (shaped.kids_live array)
    which.toNat
  rw [← shaped.child live] at walked
  rw [cJSONInsertItemInArray, Heap.readChild_eq array_live]
  simp only [bind, Option.bind_some, walked]
  cases found : (forest.kids array)[which.toNat]? with
  | none =>
      have short := List.getElem?_eq_none_iff.mp found
      rw [List.take_of_length_le short, List.drop_of_length_le short]
      exact cJSONAddItemToArray_eq shaped live root enough
  | some c =>
      obtain ⟨front, back, split, length, -⟩ := Forest.split_at found
      obtain ⟨-, c_live, child, -, prev⟩ := shaped.array_facts split
      have take : (forest.kids array).take which.toNat = front := by
        rw [split, ← length, List.take_left]
      have drop : (forest.kids array).drop which.toNat = c :: back := by
        rw [split, ← length, List.drop_left]
      have item_ne : some c ≠ some item := by
        rintro same
        cases same
        exact root.2 array (List.mem_of_getElem? found)
      rw [take, drop]
      dsimp only
      rw [Heap.setNext_eq _ item_live, Option.bind_some,
        Heap.readPrev_eq (by exact c_live), Option.bind_some,
        Heap.setPrev_eq _ (by exact item_live), Option.bind_some,
        Heap.setPrev_eq _ (by exact c_live), Option.bind_some]
      refine (@Heap.linkFront_eq _ _ front item c ?_ ?_ ?_ ?_ ?_ ?_).trans ?_
      · exact array_live
      · exact item_live
      · exact shaped.front_live split
      · exact (shaped.absent split).1
      · exact child
      · dsimp only
        rw [setAt_of_ne item_ne, setAt_self, prev]
      · rw [Heap.spliced, prev]
        rfl

theorem cJSONDetachItemFromArray_none (shaped : Shaped forest heap)
    (live : array ∈ forest.live) {which : Int}
    (missing : (forest.kids array)[which.toNat]? = none) :
    cJSONDetachItemFromArray (some array) which heap = some (none, heap) := by
  have walked := walk_eq (shaped.linked array) (shaped.kids_live array)
    which.toNat
  rw [← shaped.child live, missing] at walked
  rw [cJSONDetachItemFromArray, Heap.readChild_eq (shaped.live.mpr live)]
  simp [walked]

theorem cJSONDetachItemFromArray_eq (shaped : Shaped forest heap)
    {which : Int} (split : forest.kids array = front ++ c :: back)
    (length : front.length = which.toNat) :
    cJSONDetachItemFromArray (some array) which heap =
      some (some c, heap.detached array c front back) := by
  obtain ⟨array_live, c_live, child, next, prev⟩ := shaped.array_facts split
  obtain ⟨ahead, behind⟩ := shaped.absent split
  have walked := walk_eq (shaped.linked array) (shaped.kids_live array)
    which.toNat
  have found : (forest.kids array)[which.toNat]? = some c := by
    simp [split, ← length]
  rw [← shaped.child (shaped.live.mp array_live), found] at walked
  have next_kept : setAt heap.next front.getLast? back.head? c =
      back.head? := (setAt_of_ne (getLast?_ne_of_notMem ahead)).trans next
  have prev_kept : setAt heap.prev back.head? front.getLast? c =
      front.getLast? := (setAt_of_ne (head?_ne_of_notMem behind)).trans prev
  have last_live : ∀ node ∈ front.getLast?, heap.live node = true :=
    fun node last =>
      shaped.front_live split node (List.mem_of_getLast? last)
  rw [cJSONDetachItemFromArray, Heap.readChild_eq array_live]
  simp only [bind, Option.bind_some, walked]
  rw [Heap.readPrev_eq c_live, Option.bind_some, Heap.readNext_eq c_live,
    Option.bind_some, prev, next, Heap.setNextOf_eq _ last_live,
    Option.bind_some, Heap.readNext_eq (by exact c_live), Option.bind_some,
    Heap.readPrev_eq (by exact c_live), Option.bind_some]
  dsimp only
  rw [next_kept, prev, Heap.setPrevOf_eq _ (by exact shaped.back_live split),
    Option.bind_some, Heap.readNext_eq (by exact c_live), Option.bind_some]
  dsimp only
  rw [next_kept, Heap.moveChild_eq _ (by exact array_live) ahead
    (by exact child), Option.bind_some,
    Heap.setNext_eq _ (by exact c_live), Option.bind_some,
    Heap.setPrev_eq _ (by exact c_live), Option.bind_some]
  rfl

theorem cJSONReplaceItemInArray_none (shaped : Shaped forest heap)
    (live : array ∈ forest.live) {which : Int}
    (missing : (forest.kids array)[which.toNat]? = none) (fuel : Nat)
    (item : Option Address) :
    cJSONReplaceItemInArray fuel (some array) which item heap = some heap := by
  have walked := walk_eq (shaped.linked array) (shaped.kids_live array)
    which.toNat
  rw [← shaped.child live, missing] at walked
  rw [cJSONReplaceItemInArray, Heap.readChild_eq (shaped.live.mpr live)]
  simp [walked]

/-- The links that a replacement writes are those of a detachment and an
insertion. -/
theorem replace_setAt (f : Address → Option Address)
    {place value : Option Address} (ne : place ≠ some c) (differs : c ≠ item) :
    setAt (setAt (setAt f (some item) value) place (some item)) (some c) none =
      setAt (setAt (setAt (setAt f place value) (some c) none) (some item)
        value) place (some item) := by
  have c_apart : ∀ node, some c = some node → place ≠ some node := by
    rintro node same
    cases same
    exact ne
  have item_apart : ∀ node, some c = some node → some item ≠ some node := by
    rintro node same same'
    cases same
    cases same'
    exact differs rfl
  rw [setAt_comm _ item_apart, setAt_comm _ c_apart, setAt_over]

theorem cJSONReplaceItemInArray_eq (shaped : Shaped forest heap)
    (root : forest.Root item) {which : Int}
    (split : forest.kids array = front ++ c :: back)
    (length : front.length = which.toNat) (fuel : Nat) :
    cJSONReplaceItemInArray fuel (some array) which (some item) heap =
      cJSONDelete fuel (some c)
        ((heap.detached array c front back).spliced array item front back) := by
  obtain ⟨array_live, c_live, child, next, prev⟩ := shaped.array_facts split
  obtain ⟨ahead, behind⟩ := shaped.absent split
  have item_live := shaped.live.mpr root.1
  have walked := walk_eq (shaped.linked array) (shaped.kids_live array)
    which.toNat
  have found : (forest.kids array)[which.toNat]? = some c := by
    simp [split, ← length]
  have c_ne : c ≠ item := by
    rintro rfl
    exact root.2 array (List.mem_of_getElem? found)
  have item_behind : back.head? ≠ some item := by
    intro first
    refine root.2 array ?_
    rw [split]
    exact List.mem_append_right _
      (List.mem_cons_of_mem c (List.mem_of_head? first))
  rw [← shaped.child (shaped.live.mp array_live), found] at walked
  rw [cJSONReplaceItemInArray, Heap.readChild_eq array_live]
  simp only [bind, Option.bind_some, walked]
  rw [Heap.readNext_eq c_live, Option.bind_some, next,
    Heap.setNext_eq _ item_live, Option.bind_some,
    Heap.readPrev_eq (by exact c_live), Option.bind_some]
  dsimp only
  rw [prev, Heap.setPrev_eq _ (by exact item_live), Option.bind_some,
    Heap.readNext_eq (by exact item_live), Option.bind_some]
  dsimp only
  rw [setAt_self, Heap.setPrevOf_eq _ (by exact shaped.back_live split),
    Option.bind_some, @Heap.linkFront_eq _ _ front item c, Option.bind_some,
    Heap.setNext_eq _ (by exact c_live), Option.bind_some,
    Heap.setPrev_eq _ (by exact c_live), Option.bind_some]
  · rw [Heap.spliced, Heap.detached, setAt_setAt, replace_setAt heap.next
      (getLast?_ne_of_notMem ahead) c_ne, replace_setAt heap.prev
      (head?_ne_of_notMem behind) c_ne]
  · exact array_live
  · exact item_live
  · exact shaped.front_live split
  · exact ahead
  · exact child
  · dsimp only
    rw [setAt_of_ne item_behind, setAt_self]

end Links

/-! What `cJSON_Delete` frees. -/

section Delete

variable {α : Type*}

open Classical in
noncomputable def clear (f : Address → α) (gone : α) (places : Set Address) :
    Address → α :=
  fun place => if place ∈ places then gone else f place

theorem clear_of_notMem {f : Address → α} {gone : α} {places : Set Address}
    {place : Address} (outside : place ∉ places) :
    clear f gone places place = f place := if_neg outside

theorem clear_of_mem {f : Address → α} {gone : α} {places : Set Address}
    {place : Address} (inside : place ∈ places) :
    clear f gone places place = gone := if_pos inside

@[simp] theorem clear_empty (f : Address → α) (gone : α) :
    clear f gone ∅ = f := by
  funext place
  exact clear_of_notMem id

theorem clear_clear (f : Address → α) (gone : α) (places others : Set Address) :
    clear (clear f gone places) gone others =
      clear f gone (places ∪ others) := by
  funext place
  by_cases inside : place ∈ others
  · rw [clear_of_mem inside, clear_of_mem (Set.mem_union_right places inside)]
  · rw [clear_of_notMem inside]
    by_cases first : place ∈ places
    · rw [clear_of_mem first, clear_of_mem (Set.mem_union_left others first)]
    · rw [clear_of_notMem first, clear_of_notMem]
      exact fun either => either.elim first inside

theorem setAt_eq_clear (f : Address → α) (pointer : Option Address) (gone : α) :
    setAt f pointer gone = clear f gone {place | pointer = some place} := by
  funext place
  by_cases here : pointer = some place
  · rw [setAt, if_pos here, clear_of_mem here]
  · rw [setAt_of_ne here, clear_of_notMem here]

variable {holder : Address → Option (Address × Field)}

/-- The strings of some nodes. -/
def heldBy (holder : Address → Option (Address × Field))
    (nodes : Set Address) : Set Address :=
  {string | ∃ node ∈ nodes, ∃ field, holder string = some (node, field)}

theorem heldBy_union (nodes others : Set Address) :
    heldBy holder (nodes ∪ others) =
      heldBy holder nodes ∪ heldBy holder others := by
  ext string
  simp [heldBy, or_and_right, exists_or]

theorem heldBy_singleton {heap : Heap} {node : Address}
    (held : ∀ field string, heap.field field node = some string ↔
      holder string = some (node, field)) :
    heldBy holder {node} =
      {string | heap.field .valuestring node = some string} ∪
        {string | heap.field .string node = some string} := by
  ext string
  constructor
  · rintro ⟨_, rfl, field, found⟩
    have has := (held field string).mpr found
    cases field with
    | valuestring => exact .inl has
    | string => exact .inr has
  · intro has
    rcases has with has | has
    · exact ⟨node, rfl, .valuestring, (held _ _).mp has⟩
    · exact ⟨node, rfl, .string, (held _ _).mp has⟩

theorem notMem_heldBy {nodes : Set Address} {node string : Address}
    {field : Field} (found : holder string = some (node, field))
    (outside : node ∉ nodes) : string ∉ heldBy holder nodes := by
  rintro ⟨other, inside, _, also⟩
  rw [found] at also
  cases also
  exact outside inside

/-- The trees of some nodes and their strings are freed, all of them once. -/
noncomputable def Heap.without (heap : Heap)
    (holder : Address → Option (Address × Field)) (nodes : Set Address) :
    Heap :=
  { heap with
    live := clear heap.live false nodes
    text := clear heap.text none (heldBy holder nodes) }

/-- What `cJSON_Delete` needs of the trees that it frees. -/
structure Deletable (heap : Heap)
    (holder : Address → Option (Address × Field)) (nodes : Set Address) :
    Prop where
  live : ∀ low ∈ nodes, heap.live low = true
  text : ∀ string ∈ heldBy holder nodes, (heap.text string).isSome

theorem Deletable.mono {heap : Heap}
    {nodes others : Set Address}
    (deletable : Deletable heap holder others)
    (subset : nodes ⊆ others) : Deletable heap holder nodes where
  live := fun low member => deletable.live low (subset member)
  text := by
    rintro string ⟨node, inside, field, found⟩
    exact deletable.text string ⟨node, subset inside, field, found⟩

/-- What is freed elsewhere does not matter. -/
theorem Deletable.without {heap : Heap}
    {nodes others : Set Address}
    (deletable : Deletable heap holder nodes)
    (apart : ∀ low ∈ nodes, low ∉ others) :
    Deletable (heap.without holder others) holder nodes where
  live := by
    intro low member
    exact (clear_of_notMem (apart low member)).trans (deletable.live low member)
  text := by
    rintro string ⟨node, inside, field, found⟩
    rw [Heap.without]
    dsimp only
    rw [clear_of_notMem (notMem_heldBy found (apart node inside))]
    exact deletable.text string ⟨node, inside, field, found⟩

theorem Heap.freeText_eq {heap : Heap} {pointer : Option Address}
    (text : ∀ string ∈ pointer, (heap.text string).isSome) :
    heap.freeText pointer =
      some { heap with text := setAt heap.text pointer none } := by
  refine if_pos ?_
  cases pointer with
  | none => rfl
  | some string => exact text string rfl

theorem Heap.freeItem_eq {heap : Heap} {node : Address}
    (held : ∀ field string, heap.field field node = some string ↔
      holder string = some (node, field))
    (deletable : Deletable heap holder {node}) :
    heap.freeItem (some node) = some (heap.without holder {node}) := by
  have live := deletable.live node rfl
  have text : ∀ field, ∀ string ∈ heap.field field node,
      (heap.text string).isSome := fun field string found =>
    deletable.text string ⟨node, rfl, field, (held field string).mp found⟩
  have other : ∀ string ∈ heap.field .string node,
      (setAt heap.text (heap.field .valuestring node) none string).isSome := by
    intro string found
    rw [setAt_of_ne]
    · exact text .string string found
    · intro also
      have first := (held .string string).mp found
      rw [(held .valuestring string).mp also] at first
      cases first
  simp only [Heap.freeItem, bind]
  rw [Heap.readField_eq _ live, Option.bind_some,
    Heap.freeText_eq (text .valuestring), Option.bind_some,
    Heap.readField_eq _ (by exact live), Option.bind_some,
    Heap.freeText_eq (by exact other), Option.bind_some, Heap.freeNode,
    Heap.deref_some, if_pos (by exact live), Option.map_some, Heap.without,
    setAt_eq_clear, setAt_eq_clear, setAt_eq_clear, clear_clear,
    heldBy_singleton held]
  have single : {place | some node = some place} = ({node} : Set Address) := by
    ext place
    simp [eq_comm]
  rw [single]

@[simp] theorem cJSONDelete_null (fuel : Nat) (heap : Heap) :
    cJSONDelete fuel none heap = some heap := by
  cases fuel <;> rfl

theorem Heap.without_empty (heap : Heap) : heap.without holder ∅ = heap := by
  have nothing : heldBy holder ∅ = ∅ := by
    ext string
    simp [heldBy]
  rw [Heap.without, nothing, clear_empty, clear_empty]

theorem Heap.without_without (heap : Heap) (nodes others : Set Address) :
    (heap.without holder nodes).without holder others =
      heap.without holder (nodes ∪ others) := by
  rw [Heap.without, Heap.without, Heap.without, clear_clear, clear_clear,
    heldBy_union]

theorem cJSONDelete_nil (forest : Forest Address) (fuel : Nat) (heap : Heap) :
    cJSONDelete fuel ([] : List Address).head? heap =
      some (heap.without holder (forest.Below [])) := by
  have nothing : forest.Below [] = ∅ := by simp [Forest.Below]
  rw [nothing, Heap.without_empty]
  exact cJSONDelete_null fuel heap

theorem cJSONDelete_siblings {forest : Forest Address} {heap : Heap}
    (shaped : Shaped forest heap)
    (held : ∀ node ∈ forest.live, ∀ field string,
      heap.field field node = some string ↔ holder string = some (node, field))
    {rank : Address → Nat}
    (ranked : ∀ parent, ∀ child ∈ forest.kids parent, rank child < rank parent)
    (bound : Nat) (nodes : List Address) (before : Option Address)
    (linked : Linked heap.next heap.prev before nodes none)
    (apart : forest.Apart nodes) (small : ∀ node ∈ nodes, rank node < bound)
    (nodes_live : ∀ node ∈ nodes, node ∈ forest.live)
    (live : Address → Bool) (text : Address → Option Block)
    (deletable : Deletable { heap with live := live, text := text }
      holder (forest.Below nodes)) :
    ∃ least, ∀ fuel, least ≤ fuel →
      cJSONDelete fuel nodes.head? { heap with live := live, text := text } =
        some (Heap.without { heap with live := live, text := text } holder
          (forest.Below nodes)) := by
  induction bound generalizing nodes before live text with
  | zero =>
      cases nodes with
      | nil => exact ⟨0, fun fuel _ => cJSONDelete_nil forest fuel _⟩
      | cons node nodes =>
          exact absurd (small node List.mem_cons_self) (Nat.not_lt_zero _)
  | succ bound deeper =>
      induction nodes generalizing before live text with
      | nil => exact ⟨0, fun fuel _ => cJSONDelete_nil forest fuel _⟩
      | cons node nodes later =>
          obtain ⟨-, next, rest⟩ := linked
          obtain ⟨node_apart, rest_apart⟩ := List.pairwise_cons.mp apart
          have node_live := nodes_live node List.mem_cons_self
          have outside := forest.notMem_below_kids node
          rw [Forest.below_cons, Forest.under_eq] at deletable ⊢
          -- The children, the node, then the nodes behind it.
          obtain ⟨least, children⟩ := deeper (forest.kids node) none
            (shaped.linked node) (Forest.apart_kids node)
            (fun kid member => Nat.lt_of_lt_of_le (ranked node kid member)
              (Nat.le_of_lt_succ (small node List.mem_cons_self)))
            (fun kid member => forest.child_live member) live text
            (deletable.mono fun low member => .inl (.inl member))
          have only : ({node} : Set Address) ⊆
              forest.Below (forest.kids node) ∪ {node} ∪ forest.Below nodes :=
            fun low member => .inl (.inr member)
          have behind : ∀ low ∈ forest.Below nodes,
              low ∉ forest.Below (forest.kids node) ∪ {node} := by
            rintro low ⟨top, member, under⟩ also
            rw [← Forest.under_eq] at also
            exact node_apart top member low also under
          have self : Deletable
              (Heap.without { heap with live := live, text := text } holder
                (forest.Below (forest.kids node))) holder {node} :=
            (deletable.mono only).without (by
              rintro low rfl
              exact outside)
          have freed := Heap.freeItem_eq (by exact held node node_live) self
          rw [Heap.without_without] at freed
          have kept := (deletable.mono fun low member => .inr member).without
            behind
          obtain ⟨least', others⟩ := later (some node) rest rest_apart
            (fun other member => small other (List.mem_cons_of_mem node member))
            (fun other member =>
              nodes_live other (List.mem_cons_of_mem node member)) _ _ kept
          refine ⟨max least least' + 1, fun fuel enough => ?_⟩
          obtain ⟨fuel, rfl⟩ : ∃ less, fuel = less + 1 :=
            ⟨fuel - 1, by omega⟩
          have alive : live node = true :=
            deletable.live node (only rfl)
          simp only [List.head?_cons, cJSONDelete, bind]
          rw [Heap.readNext_eq (by exact alive), Option.bind_some,
            Heap.readChild_eq (by exact alive), Option.bind_some]
          dsimp only
          rw [shaped.child node_live, children fuel (by omega),
            Option.bind_some, freed, Option.bind_some, next, Option.or_none]
          refine (others fuel (by omega)).trans ?_
          exact congrArg some (Heap.without_without _ _ _)

end Delete

end Molten.Collector.CJson
