import Mathlib.Data.List.Nodup
import Molten.Control.Machine
import Molten.Request.StackOps

namespace Molten.Request

open Molten.Control
open Molten.Span
open Molten.Chain
open Molten.Ctrl

/-! Who frees the strings of a sampled request.  Every string is a token,
numbered in the order of the allocations. -/

structure Received where
  traceId : Bool
  spanId : Bool
  parentSpanId : Bool
  sampled : Bool
  flags : Bool
  deriving DecidableEq, Repr

def receivedKeys (build : HeaderBuild) (input : RequestInput) : Received where
  traceId := (input.received build.recTraceId).isSome
  spanId := (input.received build.recSpanId).isSome
  parentSpanId := (input.received build.recParentSpanId).isSome
  sampled := (input.received build.recSampled).isSome
  flags := (input.received build.recFlags).isSome

/-- The tokens of the `val`s in the header table, those on the span stack, the
innermost first, and those freed. -/
structure Ledger where
  allocated : Nat
  keys : List Nat
  stack : List Nat
  released : List Nat
  deriving DecidableEq, Repr

namespace Ledger

def empty : Ledger := ⟨0, [], [], []⟩

def alloc (ledger : Ledger) : Nat × Ledger :=
  (ledger.allocated, { ledger with allocated := ledger.allocated + 1 })

def allocIf (wanted : Bool) (ledger : Ledger) : Option Nat × Ledger :=
  if wanted then (some ledger.alloc.1, ledger.alloc.2) else (none, ledger)

def orAlloc (val : Option Nat) (ledger : Ledger) : Nat × Ledger :=
  match val with
  | some token => (token, ledger)
  | none => ledger.alloc

def pushSpanContext (ledger : Ledger) : Ledger :=
  { ledger.alloc.2 with stack := ledger.alloc.1 :: ledger.stack }

/-- The level build keeps the pointer, the other one copies the string. -/
def pushSpanContextWithId (build : IdBuild) (token : Nat) (ledger : Ledger) :
    Ledger :=
  match build with
  | .level => { ledger with stack := token :: ledger.stack }
  | .random => ledger.pushSpanContext

/-- `span_context_dtor` of the top, if there is one. -/
def popSpanContext (ledger : Ledger) : Ledger :=
  match ledger.stack with
  | [] => ledger
  | token :: stack =>
      { ledger with stack, released := ledger.released ++ [token] }

/-- `mo_key_destory_func` of every key. -/
def moChainHeaderDtor (ledger : Ledger) : Ledger :=
  { ledger with keys := [], released := ledger.released ++ ledger.keys }

/-- `span_context_dtor` of every element, the outermost first. -/
def moStackDestroy (ledger : Ledger) : Ledger :=
  { ledger with
    stack := [], released := ledger.released ++ ledger.stack.reverse }

end Ledger

/-- The strings that `mo_build_chain_header` makes, in its order. -/
def moBuildChainHeaderTokens (build : IdBuild) (received : Received) :
    Ledger :=
  let (traceId, ledger) := Ledger.empty.allocIf received.traceId
  let (spanId, ledger) := ledger.allocIf received.spanId
  let (parentSpanId, ledger) := ledger.allocIf received.parentSpanId
  let (sampled, ledger) := ledger.allocIf received.sampled
  let (flags, ledger) := ledger.allocIf received.flags
  let (traceId, ledger) := ledger.orAlloc traceId
  let ledger :=
    match parentSpanId with
    | some token => ledger.pushSpanContextWithId build token
    | none => ledger
  let ledger :=
    match spanId with
    | some token => ledger.pushSpanContextWithId build token
    | none => ledger.pushSpanContext
  let (sampled, ledger) := ledger.orAlloc sampled
  let (flags, ledger) := ledger.orAlloc flags
  { ledger with
    keys := traceId :: (spanId.toList ++ parentSpanId.toList ++
      [sampled, flags]) }

inductive LedgerOp
  | stack (op : StackOp)
  | moChainHeaderDtor
  | moStackDestroy

def LedgerOp.apply (ledger : Ledger) : LedgerOp → Ledger
  | .stack .pushSpanContext => ledger.pushSpanContext
  | .stack .popSpanContext => ledger.popSpanContext
  | .moChainHeaderDtor => ledger.moChainHeaderDtor
  | .moStackDestroy => ledger.moStackDestroy

/-- What RSHUTDOWN frees: `mo_chain_dtor`, then the rest of the stack. -/
def shutdownOps : List LedgerOp :=
  [.moChainHeaderDtor, .stack .popSpanContext, .stack .popSpanContext,
    .moStackDestroy]

def requestOps (phases : List CallSeq) : List LedgerOp :=
  (phasesOps phases).map .stack ++ shutdownOps

/-- Nothing was freed twice, and nothing on the stack was freed. -/
structure Ledger.Sound (ledger : Ledger) : Prop where
  released : ledger.released.Nodup
  stack : ∀ token ∈ ledger.stack, token ∉ ledger.released

def startLedger (build : Build) (input : RequestInput) : Ledger :=
  moBuildChainHeaderTokens build.ids (receivedKeys build.headers input)

/-- In every state from there to the end of RSHUTDOWN. -/
def OwnedOnce (build : Build) (input : RequestInput)
    (phases : List CallSeq) : Prop :=
  EveryState LedgerOp.apply Ledger.Sound (startLedger build input)
    (requestOps phases)

structure Ledger.Owned (ledger : Ledger) : Prop where
  nodup : (ledger.keys ++ ledger.stack ++ ledger.released).Nodup
  lt : ∀ token ∈ ledger.keys ++ ledger.stack ++ ledger.released,
    token < ledger.allocated

instance (ledger : Ledger) : Decidable ledger.Owned :=
  decidable_of_iff (_ ∧ _) ⟨fun ⟨h, h'⟩ => ⟨h, h'⟩, fun ⟨h, h'⟩ => ⟨h, h'⟩⟩

theorem owned_moBuildChainHeaderTokens (build : IdBuild)
    (received : Received) :
    (moBuildChainHeaderTokens build received).Owned ↔
      build = .random ∨
        (received.spanId = false ∧ received.parentSpanId = false) := by
  obtain ⟨traceId, spanId, parentSpanId, sampled, flags⟩ := received
  cases build <;> cases traceId <;> cases spanId <;> cases parentSpanId <;>
    cases sampled <;> cases flags <;> decide

theorem exists_shared {received : Received}
    (h : ¬ (received.spanId = false ∧ received.parentSpanId = false)) :
    ∃ token ∈ (moBuildChainHeaderTokens .level received).keys,
      token ∈ (moBuildChainHeaderTokens .level received).stack := by
  obtain ⟨traceId, spanId, parentSpanId, sampled, flags⟩ := received
  revert h
  cases traceId <;> cases spanId <;> cases parentSpanId <;>
    cases sampled <;> cases flags <;> decide

namespace Ledger

variable {ledger : Ledger}

theorem Owned.sound (h : ledger.Owned) : ledger.Sound where
  released := (List.nodup_append.mp h.nodup).2.1
  stack token hstack hreleased := by
    obtain ⟨-, -, hdisjoint⟩ := List.nodup_append.mp h.nodup
    exact hdisjoint token (List.mem_append_right _ hstack) token hreleased rfl

theorem Owned.move (h : ledger.Owned) {ledger' : Ledger}
    (hallocated : ledger'.allocated = ledger.allocated)
    (hperm : (ledger'.keys ++ ledger'.stack ++ ledger'.released).Perm
      (ledger.keys ++ ledger.stack ++ ledger.released)) : ledger'.Owned where
  nodup := hperm.nodup_iff.mpr h.nodup
  lt token htoken := by
    rw [hallocated]
    exact h.lt token (hperm.mem_iff.mp htoken)

theorem Owned.pushSpanContext (h : ledger.Owned) :
    ledger.pushSpanContext.Owned := by
  have hperm : (ledger.keys ++ (ledger.allocated :: ledger.stack) ++
      ledger.released).Perm
      (ledger.allocated :: (ledger.keys ++ ledger.stack ++ ledger.released)) :=
    List.perm_middle.append_right _
  have hnew : ledger.allocated ∉
      ledger.keys ++ ledger.stack ++ ledger.released := fun hmem =>
    Nat.lt_irrefl _ (h.lt _ hmem)
  constructor
  · exact hperm.nodup_iff.mpr (List.nodup_cons.mpr ⟨hnew, h.nodup⟩)
  · intro token htoken
    obtain rfl | hold := List.mem_cons.mp (hperm.mem_iff.mp htoken)
    · exact Nat.lt_succ_self _
    · exact Nat.lt_succ_of_lt (h.lt token hold)

theorem Owned.popSpanContext (h : ledger.Owned) :
    ledger.popSpanContext.Owned := by
  unfold Ledger.popSpanContext
  split
  · exact h
  · rename_i token stack hstack
    refine h.move rfl ?_
    rw [hstack, List.append_assoc, List.append_assoc]
    refine List.Perm.append_left _ ?_
    rw [← List.append_assoc]
    exact List.perm_append_singleton token (stack ++ ledger.released)

theorem Owned.apply (h : ledger.Owned) (op : LedgerOp) :
    (LedgerOp.apply ledger op).Owned := by
  cases op with
  | stack op =>
      cases op with
      | pushSpanContext => exact h.pushSpanContext
      | popSpanContext => exact h.popSpanContext
  | moChainHeaderDtor =>
      refine h.move rfl ?_
      simp only [LedgerOp.apply, Ledger.moChainHeaderDtor, List.nil_append,
        List.append_assoc]
      rw [← List.append_assoc]
      exact List.perm_append_comm
  | moStackDestroy =>
      refine h.move rfl ?_
      simp only [LedgerOp.apply, Ledger.moStackDestroy, List.append_nil,
        List.append_assoc]
      refine List.Perm.append_left _ (List.perm_append_comm.trans ?_)
      exact (List.reverse_perm ledger.stack).append_right _

theorem Owned.everyState (h : ledger.Owned) (ops : List LedgerOp) :
    EveryState LedgerOp.apply Ledger.Sound ledger ops := by
  intro earlier _
  have hall : ∀ (earlier : List LedgerOp) {ledger : Ledger}, ledger.Owned →
      (earlier.foldl LedgerOp.apply ledger).Owned := by
    intro earlier
    induction earlier with
    | nil => exact fun h => h
    | cons op earlier ih => exact fun h => ih (h.apply op)
  exact (hall earlier h).sound

/-! Nothing that RINIT put on the stack is popped by the calls. -/

def applyStack (ledger : Ledger) (ops : List StackOp) : Ledger :=
  (ops.map LedgerOp.stack).foldl LedgerOp.apply ledger

theorem keys_applyStack (ledger : Ledger) (ops : List StackOp) :
    (ledger.applyStack ops).keys = ledger.keys := by
  induction ops generalizing ledger with
  | nil => rfl
  | cons op ops ih =>
      have hop : (LedgerOp.apply ledger (.stack op)).keys = ledger.keys := by
        cases op with
        | pushSpanContext => rfl
        | popSpanContext =>
            rw [LedgerOp.apply, Ledger.popSpanContext]
            split <;> rfl
      exact (ih _).trans hop

theorem stack_applyStack {ops : List StackOp} {base : List Nat}
    {depth : Nat} (hops : StackOp.neverBelow depth ops = true)
    {ledger : Ledger} (extra : List Nat) (hextra : extra.length = depth)
    (hstack : ledger.stack = extra ++ base) :
    ∃ extra', (ledger.applyStack ops).stack = extra' ++ base := by
  induction ops generalizing ledger depth extra with
  | nil => exact ⟨extra, hstack⟩
  | cons op ops ih =>
      cases op with
      | pushSpanContext =>
          refine ih hops (ledger.allocated :: extra)
            (congrArg Nat.succ hextra) ?_
          exact congrArg (ledger.allocated :: ·) hstack
      | popSpanContext =>
          cases extra with
          | nil =>
              obtain rfl := hextra
              exact absurd hops Bool.false_ne_true
          | cons token extra =>
              obtain rfl := hextra
              refine ih hops extra rfl ?_
              simp [LedgerOp.apply, Ledger.popSpanContext, hstack]

/-- What is in the table and on the stack is freed with the table, and still on
the stack then. -/
theorem not_everyState_of_shared (token : Nat) (hkeys : token ∈ ledger.keys)
    (hstack : token ∈ ledger.stack) (phases : List CallSeq) :
    ¬ EveryState LedgerOp.apply Ledger.Sound ledger (requestOps phases) := by
  intro hevery
  have hprefix : (phasesOps phases).map LedgerOp.stack ++
      [.moChainHeaderDtor] <+: requestOps phases :=
    (List.prefix_append_right_inj _).mpr (List.prefix_append _ _)
  have hsound := hevery _ hprefix
  rw [List.foldl_append] at hsound
  obtain ⟨extra, hbase⟩ := stack_applyStack (phasesOps_neverBelow phases 0)
    [] rfl (List.nil_append ledger.stack).symm
  refine hsound.stack token ?_ ?_
  · have hmem : token ∈ (ledger.applyStack (phasesOps phases)).stack := by
      rw [hbase]
      exact List.mem_append_right _ hstack
    exact hmem
  · have hmem : token ∈ (ledger.applyStack (phasesOps phases)).keys := by
      rwa [keys_applyStack]
    exact List.mem_append_right _ hmem

end Ledger

/-! The ledger's stack is that of the request. -/

theorem length_applyOp {ids : IdBuild} {span : SpanState} {ledger : Ledger}
    (h : ledger.stack.length = span.ids.length) (op : StackOp) :
    (LedgerOp.apply ledger (.stack op)).stack.length =
      (applyOp ids span op).ids.length := by
  cases op with
  | pushSpanContext =>
      rw [applyOp, SpanState.ids_pushSpanContext, List.length_cons, ← h]
      rfl
  | popSpanContext =>
      rw [applyOp, SpanState.ids_popSpanContext, List.length_tail, ← h,
        LedgerOp.apply, Ledger.popSpanContext]
      split
      · rename_i hstack
        rw [hstack]
        rfl
      · rename_i hstack
        rw [hstack]
        rfl

theorem length_applyStack {ids : IdBuild} {span : SpanState} {ledger : Ledger}
    (h : ledger.stack.length = span.ids.length) (ops : List StackOp) :
    (ledger.applyStack ops).stack.length =
      (ops.foldl (applyOp ids) span).ids.length := by
  induction ops generalizing ledger span with
  | nil => exact h
  | cons op ops ih => exact ih (length_applyOp h op)

theorem length_stack_start (build : IdBuild) (received : Received) :
    (moBuildChainHeaderTokens build received).stack.length =
      1 + if received.parentSpanId then 1 else 0 := by
  obtain ⟨traceId, spanId, parentSpanId, sampled, flags⟩ := received
  cases build <;> cases traceId <;> cases spanId <;> cases parentSpanId <;>
    cases sampled <;> cases flags <;> rfl

theorem length_ledger_runPhases {build : Build} {input : RequestInput}
    {module : CtrlModule} {record record' : SamplingRecord}
    {prior g : Globals}
    (h : phpRinit build input module record prior = some (g, record'))
    (hsampled : g.chain.isSampled = true) (phases : List CallSeq) :
    ((startLedger build input).applyStack (phasesOps phases)).stack.length =
      (runPhases build phases g).ids.length := by
  obtain ⟨hactive, -, -, -, -, -, -, mainId, hids⟩ :=
    phpRinit_sampled h hsampled
  rw [Globals.ids, span_runPhases build phases hactive]
  refine length_applyStack ?_ (phasesOps phases)
  have hids' : g.chain.span.ids = mainId ::
      (input.received build.headers.recParentSpanId).toList := hids
  rw [startLedger, length_stack_start, hids', receivedKeys]
  cases input.received build.headers.recParentSpanId <;> rfl

/-- Received ids are freed twice exactly in the level build. -/
theorem ownedOnce_iff (build : Build) (input : RequestInput)
    (phases : List CallSeq) :
    OwnedOnce build input phases ↔
      build.ids = .random ∨
        (input.received build.headers.recSpanId = none ∧
          input.received build.headers.recParentSpanId = none) := by
  have hreceived : (receivedKeys build.headers input).spanId = false ∧
        (receivedKeys build.headers input).parentSpanId = false ↔
      input.received build.headers.recSpanId = none ∧
        input.received build.headers.recParentSpanId = none := by
    simp [receivedKeys]
  rw [← hreceived]
  constructor
  · intro howned
    by_contra hnot
    obtain ⟨hbuild, hshared⟩ := not_or.mp hnot
    obtain ⟨headers, ids⟩ := build
    cases ids with
    | random => exact hbuild rfl
    | level =>
        obtain ⟨token, hkeys, hstack⟩ := exists_shared hshared
        exact Ledger.not_everyState_of_shared token hkeys hstack phases howned
  · intro h
    exact ((owned_moBuildChainHeaderTokens _ _).mpr h).everyState _

theorem not_ownedOnce_received :
    ¬ OwnedOnce ⟨.molten, .level⟩
      { isCli := false
        server := fun key =>
          if key = "HTTP_X_W_SPANID" then some (.string "1.2") else none
        ip := "127.0.0.1", num := 0, minute := 0, rand64hex := "0" } [] := by
  refine Ledger.not_everyState_of_shared 0 ?_ ?_ []
  · decide
  · decide

end Molten.Request
