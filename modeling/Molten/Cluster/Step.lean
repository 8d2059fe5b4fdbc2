import Molten.Chain.Propagation
import Mathlib.Logic.Function.Basic

namespace Molten.Cluster

open Molten.Span
open Molten.Chain
open Molten.Ctrl

/-! Worker processes of the default id build, linked by the headers their
`curl_exec` calls send. -/

/-- A call that carries a span id, with the parent id its span reports.  The
worker drew the id when its counter stood at `drawn`, or received it. -/
structure Call where
  worker : Nat
  drawn : Option Nat
  traceId : Option String
  spanId : String
  parentId : Option String
  deriving DecidableEq, Repr

/-- A sampled request, with the worker's counter when it started. -/
structure Request where
  worker : Nat
  traceId : Option String
  first : Nat
  deriving DecidableEq, Repr

/-- The request, which left the counter at `last`, moved it past a value. -/
def Request.Covers (request : Request) (last : Nat) (traceId : Option String)
    (worker value : Nat) : Prop :=
  request.traceId = traceId ∧ request.worker = worker ∧
    request.first ≤ value ∧ value < last

structure Worker where
  chain : ChainState
  serving : Option Request

namespace Worker

def counter (worker : Worker) : Nat := worker.chain.span.step

def Passes (worker : Worker) (traceId : Option String)
    (index value : Nat) : Prop :=
  ∃ request, worker.serving = some request ∧
    request.Covers worker.counter traceId index value

end Worker

structure System where
  workers : Nat → Worker
  /-- finished requests, with the worker's counter at their end -/
  served : List (Request × Nat)
  /-- newest first -/
  calls : List Call
  /-- the header lines of every `curl_exec` -/
  messages : List (List String)

def topCall (worker : Nat) (drawn : Option Nat) (chain : ChainState) :
    Option Call :=
  chain.span.retrieveSpanId.map fun spanId =>
    { worker := worker
      drawn := drawn
      traceId := chain.pch.traceId.val
      spanId := spanId
      parentId := chain.span.retrieveParentSpanId }

namespace System

def setWorker (system : System) (index : Nat) (worker : Worker) : System :=
  { system with workers := Function.update system.workers index worker }

def logCall (system : System) (call : Option Call) : System :=
  { system with calls := call.toList ++ system.calls }

/-- RINIT, with the state `startChain` computed. -/
def rinit (system : System) (index : Nat) (chain : ChainState) : System :=
  let first := (system.workers index).counter
  if chain.isSampled then
    let drawn := if chain.pch.spanId.val.isNone then some first else none
    (system.setWorker index
      ⟨chain, some ⟨index, chain.pch.traceId.val, first⟩⟩).logCall
        (topCall index drawn chain)
  else
    system.setWorker index ⟨chain, none⟩

def entered (system : System) (index : Nat) : ChainState :=
  let chain := (system.workers index).chain
  { chain with span := chain.span.pushSpanContext .random }

def enter (system : System) (index : Nat) : System :=
  let old := system.workers index
  (system.setWorker index ⟨system.entered index, old.serving⟩).logCall
    (topCall index (some old.counter) (system.entered index))

def leave (system : System) (index : Nat) : System :=
  let old := system.workers index
  system.setWorker index
    { old with
      chain := { old.chain with span := old.chain.span.popSpanContext } }

def rshutdown (system : System) (index : Nat) (request : Request) : System :=
  let old := system.workers index
  { system.setWorker index
      ⟨{ old.chain with span := old.chain.span.initSpanContext }, none⟩ with
    served := (request, old.counter) :: system.served }

def curlExec (system : System) (index : Nat) (sent : List String) : System :=
  { system.enter index with messages := sent :: system.messages }

end System

def entryDepth (pch : ChainHeader) : Nat :=
  pch.parentSpanId.val.toList.length + 1

/-- A request brings no ids, or the headers of some `curl_exec`. -/
def Linked (headers : HeaderBuild) (messages : List (List String))
    (input : RequestInput) : Prop :=
  (input.received headers.recTraceId = none ∧
    input.received headers.recSpanId = none ∧
    input.received headers.recParentSpanId = none) ∨
  (input.isCli = false ∧ ∃ sent ∈ messages, Delivers sent input.server)

inductive Step (headers : HeaderBuild) : System → System → Prop
  | rinit {system : System} (index : Nat) (input : RequestInput)
      (module : CtrlModule) (record record' : SamplingRecord)
      (chain : ChainState)
      (hidle : (system.workers index).serving = none)
      (hlinked : Linked headers system.messages input)
      (hstart : startChain headers .random input module record
        (system.workers index).chain = some (chain, record')) :
      Step headers system (system.rinit index chain)
  | enter {system : System} (index : Nat)
      (hserving : (system.workers index).serving.isSome) :
      Step headers system (system.enter index)
  | leave {system : System} (index : Nat)
      (hserving : (system.workers index).serving.isSome)
      (hdepth : entryDepth (system.workers index).chain.pch <
        (system.workers index).chain.span.ids.length) :
      Step headers system (system.leave index)
  | curlExec {system : System} (index : Nat) (user sent : List String)
      (hserving : (system.workers index).serving.isSome)
      (hsent : sentHeader headers (system.entered index)
        (system.entered index).span user = some (.list sent)) :
      Step headers system (system.curlExec index sent)
  | rshutdown {system : System} (index : Nat) (request : Request)
      (hserving : (system.workers index).serving = some request) :
      Step headers system (system.rshutdown index request)

structure Initial (system : System) : Prop where
  idle : ∀ index, (system.workers index).serving = none
  counter : ∀ index, (system.workers index).counter = 0
  served : system.served = []
  calls : system.calls = []
  messages : system.messages = []

def Reachable (headers : HeaderBuild) (system : System) : Prop :=
  ∃ initial, Initial initial ∧
    Relation.ReflTransGen (Step headers) initial system

/-! What is asked of a trace, and what decides it. -/

namespace System

def drawnCalls (system : System) (traceId : Option String) : List Call :=
  system.calls.filter fun call =>
    call.traceId == traceId && call.drawn.isSome

def ParentOf (system : System) (traceId : Option String)
    (child parent : String) : Prop :=
  ∃ call ∈ system.calls, call.traceId = traceId ∧ call.spanId = child ∧
    call.parentId = some parent

structure TraceSound (system : System) (traceId : Option String) :
    Prop where
  distinct : ((system.drawnCalls traceId).map Call.spanId).Nodup
  acyclic : ∀ spanId,
    ¬ Relation.TransGen (system.ParentOf traceId) spanId spanId

/-- The worker's counter moved past this value during a request of the
trace. -/
def Passed (system : System) (traceId : Option String)
    (worker value : Nat) : Prop :=
  (∃ entry ∈ system.served, entry.1.Covers entry.2 traceId worker value) ∨
    ∃ index, (system.workers index).Passes traceId worker value

/-- The requests of the trace took their workers' counters through different
values of the 32-bit counter. -/
def CountersApart (system : System) (traceId : Option String) : Prop :=
  ∀ worker value worker' value', system.Passed traceId worker value →
    system.Passed traceId worker' value' →
    value % 2 ^ 32 = value' % 2 ^ 32 → worker = worker' ∧ value = value'

end System

end Molten.Cluster
