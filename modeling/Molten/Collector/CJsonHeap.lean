import Molten.Collector.CJson
import Molten.Data.Linked

namespace Molten.Collector.CJson

open Molten.Data Molten.Text

/-! The nodes of cJSON in memory, and the part of cJSON that builds, cuts and
deletes trees of them.  `none` is a read of a node that is not there.  The loops
over siblings and `cJSON_Delete` have a bound on their steps. -/

abbrev Address := Nat

/-- The strings that a node has. -/
inductive Field
  | valuestring
  | string
  deriving DecidableEq

/-- The type of a node and the number in it. -/
inductive Kind
  | null
  | bool (value : Bool)
  | number (text : Block)
  | string
  | array
  | object
  deriving DecidableEq

/-- What is allocated, nodes and strings, with one function for each field of a
node, and how often `malloc` answered `NULL`. -/
structure Heap where
  live : Address → Bool
  kind : Address → Kind
  next : Address → Option Address
  prev : Address → Option Address
  child : Address → Option Address
  field : Field → Address → Option Address
  text : Address → Option Block
  refusals : Nat

/-- What `malloc` answers, which may be `NULL`. -/
structure Malloc where
  answer : Heap → Option Address
  fresh : ∀ {heap address}, answer heap = some address →
    heap.live address = false ∧ heap.text address = none

namespace Heap

def empty : Heap where
  live := fun _ => false
  kind := fun _ => .null
  next := fun _ => none
  prev := fun _ => none
  child := fun _ => none
  field := fun _ _ => none
  text := fun _ => none
  refusals := 0

variable (heap : Heap)

/-- `malloc` answers `NULL`. -/
def refuse : Heap :=
  { heap with refusals := heap.refusals + 1 }

def deref (pointer : Option Address) : Option Address :=
  pointer.bind fun node => if heap.live node then some node else none

def readNext (pointer : Option Address) : Option (Option Address) :=
  (heap.deref pointer).map heap.next

def readPrev (pointer : Option Address) : Option (Option Address) :=
  (heap.deref pointer).map heap.prev

def readChild (pointer : Option Address) : Option (Option Address) :=
  (heap.deref pointer).map heap.child

def readField (field : Field) (pointer : Option Address) :
    Option (Option Address) :=
  (heap.deref pointer).map (heap.field field)

def setNext (pointer value : Option Address) : Option Heap :=
  (heap.deref pointer).map fun node =>
    { heap with next := setAt heap.next (some node) value }

def setPrev (pointer value : Option Address) : Option Heap :=
  (heap.deref pointer).map fun node =>
    { heap with prev := setAt heap.prev (some node) value }

def setChild (pointer value : Option Address) : Option Heap :=
  (heap.deref pointer).map fun node =>
    { heap with child := setAt heap.child (some node) value }

def withField (field : Field) (node : Address) (value : Option Address) :
    Heap :=
  { heap with
    field := setAt heap.field (some field)
      (setAt (heap.field field) (some node) value) }

def setField (field : Field) (pointer value : Option Address) : Option Heap :=
  (heap.deref pointer).map fun node => heap.withField field node value

/-- `if (pointer) pointer->next=value` -/
def setNextOf (pointer value : Option Address) : Option Heap :=
  if pointer.isSome then heap.setNext pointer value else some heap

/-- `if (pointer) pointer->prev=value` -/
def setPrevOf (pointer value : Option Address) : Option Heap :=
  if pointer.isSome then heap.setPrev pointer value else some heap

/-- `if (c==array->child) array->child=value` -/
def moveChild (array c value : Option Address) : Option Heap := do
  let child ← heap.readChild array
  if c = child then heap.setChild array value else some heap

/-- `if (c==array->child) array->child=item; else item->prev->next=item` -/
def linkFront (array c item : Option Address) : Option Heap := do
  let child ← heap.readChild array
  if c = child then heap.setChild array item
  else
    let prev ← heap.readPrev item
    heap.setNext prev item

/-- `cJSON_free` of a string, if there is one. -/
def freeText (pointer : Option Address) : Option Heap :=
  if pointer.all fun string => (heap.text string).isSome then
    some { heap with text := setAt heap.text pointer none }
  else none

def freeNode (pointer : Option Address) : Option Heap :=
  (heap.deref pointer).map fun node =>
    { heap with live := setAt heap.live (some node) false }

/-- The end of a turn of `cJSON_Delete`. -/
def freeItem (c : Option Address) : Option Heap := do
  let valuestring ← heap.readField .valuestring c
  let heap ← heap.freeText valuestring
  let string ← heap.readField .string c
  let heap ← heap.freeText string
  heap.freeNode c

end Heap

/-- A node of zeros, but for its type. -/
def Heap.withItem (heap : Heap) (node : Address) (kind : Kind) : Heap :=
  { heap with
    live := setAt heap.live (some node) true
    kind := setAt heap.kind (some node) kind
    next := setAt heap.next (some node) none
    prev := setAt heap.prev (some node) none
    child := setAt heap.child (some node) none
    field := fun field => setAt (heap.field field) (some node) none }

/-- `cJSON_New_Item`, with the type that is then put into it. -/
def cJSONNewItem (malloc : Malloc) (kind : Kind) (heap : Heap) :
    Option Address × Heap :=
  match malloc.answer heap with
  | none => (none, heap.refuse)
  | some node => (some node, heap.withItem node kind)

def cJSONStrdup (malloc : Malloc) (string : Block) (heap : Heap) :
    Option Address × Heap :=
  match malloc.answer heap with
  | none => (none, heap.refuse)
  | some copy =>
      (some copy,
        { heap with text := setAt heap.text (some copy) (some string) })

/-- `item->field=cJSON_strdup(string)` -/
def Heap.setCopy (malloc : Malloc) (string : Block) (field : Field)
    (item : Option Address) (heap : Heap) : Option Heap :=
  let (copy, heap) := cJSONStrdup malloc string heap
  heap.setField field item copy

def cJSONCreateString (malloc : Malloc) (string : Block) (heap : Heap) :
    Option (Option Address × Heap) := do
  let (item, heap) := cJSONNewItem malloc .string heap
  if item.isSome then
    let heap ← heap.setCopy malloc string .valuestring item
    some (item, heap)
  else some (item, heap)

def cJSONDelete : Nat → Option Address → Heap → Option Heap
  | _, none, heap => some heap
  | 0, some _, _ => none
  | fuel + 1, some c, heap => do
      let next ← heap.readNext c
      let child ← heap.readChild c
      let heap ← cJSONDelete fuel child heap
      let heap ← heap.freeItem c
      cJSONDelete fuel next heap

/-- `while (c && which>0) c=c->next,which--` -/
def walk : Nat → Option Address → Heap → Option (Option Address)
  | 0, c, _ => some c
  | _ + 1, none, _ => some none
  | which + 1, some c, heap => do
      let next ← heap.readNext c
      walk which next heap

/-- `while (c && c->next) c=c->next` -/
def walkToLast : Nat → Option Address → Heap → Option (Option Address)
  | _, none, _ => some none
  | 0, some _, _ => none
  | fuel + 1, some c, heap => do
      match ← heap.readNext c with
      | none => some (some c)
      | some next => walkToLast fuel next heap

/-- The string that a field points to, as far as there is one. -/
def Heap.string (heap : Heap) (field : Field) (node : Address) : Option Block :=
  (heap.field field node).bind heap.text

/-- `while (c && cJSON_strcasecmp(c->string,string)) i++,c=c->next` -/
def walkToName (name : Block) : Nat → Nat → Option Address → Heap →
    Option (Option Nat)
  | _, _, none, _ => some none
  | 0, _, some _, _ => none
  | fuel + 1, i, some c, heap => do
      let string ← heap.readField .string c
      if string.isSome && (string.bind heap.text).isNone then none
      else if sameName (string.bind heap.text) name then some (some i)
      else
        let next ← heap.readNext c
        walkToName name fuel (i + 1) next heap

def suffixObject (prev item : Option Address) (heap : Heap) : Option Heap := do
  let heap ← heap.setNext prev item
  heap.setPrev item prev

section

variable (fuel : Nat)

def cJSONAddItemToArray (array item : Option Address) (heap : Heap) :
    Option Heap := do
  let c ← heap.readChild array
  match item, c with
  | none, _ => some heap
  | some _, none => heap.setChild array item
  | some _, some _ => do
      let last ← walkToLast fuel c heap
      suffixObject last item heap

def cJSONAddItemToObject (malloc : Malloc) (object : Option Address)
    (string : Block) (item : Option Address) (heap : Heap) : Option Heap :=
  match item with
  | none => some heap
  | some _ => do
      let old ← heap.readField .string item
      let heap ← heap.freeText old
      let heap ← heap.setCopy malloc string .string item
      cJSONAddItemToArray fuel object item heap

end

def cJSONDetachItemFromArray (array : Option Address) (which : Int)
    (heap : Heap) : Option (Option Address × Heap) := do
  let child ← heap.readChild array
  match ← walk which.toNat child heap with
  | none => some (none, heap)
  | some c => do
      let prev ← heap.readPrev c
      let next ← heap.readNext c
      let heap ← heap.setNextOf prev next
      let next ← heap.readNext c
      let prev ← heap.readPrev c
      let heap ← heap.setPrevOf next prev
      let next ← heap.readNext c
      let heap ← heap.moveChild array c next
      let heap ← heap.setNext c none
      let heap ← heap.setPrev c none
      some (some c, heap)

def cJSONDeleteItemFromArray (fuel : Nat) (array : Option Address)
    (which : Int) (heap : Heap) : Option Heap := do
  let (item, heap) ← cJSONDetachItemFromArray array which heap
  cJSONDelete fuel item heap

def cJSONDetachItemFromObject (fuel : Nat) (object : Option Address)
    (name : Block) (heap : Heap) : Option (Option Address × Heap) := do
  let child ← heap.readChild object
  match ← walkToName name fuel 0 child heap with
  | none => some (none, heap)
  | some i => cJSONDetachItemFromArray object i heap

def cJSONDeleteItemFromObject (fuel : Nat) (object : Option Address)
    (name : Block) (heap : Heap) : Option Heap := do
  let (item, heap) ← cJSONDetachItemFromObject fuel object name heap
  cJSONDelete fuel item heap

def cJSONInsertItemInArray (fuel : Nat) (array : Option Address) (which : Int)
    (newitem : Option Address) (heap : Heap) : Option Heap := do
  let child ← heap.readChild array
  match ← walk which.toNat child heap with
  | none => cJSONAddItemToArray fuel array newitem heap
  | some c => do
      let heap ← heap.setNext newitem c
      let prev ← heap.readPrev c
      let heap ← heap.setPrev newitem prev
      let heap ← heap.setPrev c newitem
      heap.linkFront array c newitem

def cJSONReplaceItemInArray (fuel : Nat) (array : Option Address) (which : Int)
    (newitem : Option Address) (heap : Heap) : Option Heap := do
  let child ← heap.readChild array
  match ← walk which.toNat child heap with
  | none => some heap
  | some c => do
      let next ← heap.readNext c
      let heap ← heap.setNext newitem next
      let prev ← heap.readPrev c
      let heap ← heap.setPrev newitem prev
      let next ← heap.readNext newitem
      let heap ← heap.setPrevOf next newitem
      let heap ← heap.linkFront array c newitem
      let heap ← heap.setNext c none
      let heap ← heap.setPrev c none
      cJSONDelete fuel c heap

def cJSONReplaceItemInObject (fuel : Nat) (malloc : Malloc)
    (object : Option Address) (name : Block) (newitem : Option Address)
    (heap : Heap) : Option Heap := do
  let child ← heap.readChild object
  match ← walkToName name fuel 0 child heap with
  | none => some heap
  | some i => do
      let heap ← heap.setCopy malloc name .string newitem
      cJSONReplaceItemInArray fuel object i newitem heap

end Molten.Collector.CJson
