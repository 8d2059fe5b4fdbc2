import Molten.Chain.Names
import Molten.Span.Context

namespace Molten.Chain

open Molten.Text
open Molten.Span

/-! The five trace values a request keeps and passes on. -/

structure ChainKey where
  name : String
  receiveKey : String
  passKey : String
  val : Option String
  deriving DecidableEq, Repr

/-- `mo_chain_header_t`, less the sampling flag. -/
structure ChainHeader where
  traceId : ChainKey
  spanId : ChainKey
  parentSpanId : ChainKey
  sampled : ChainKey
  flags : ChainKey
  ip : String
  port : Int
  deriving DecidableEq, Repr

namespace ChainHeader

/-- The hash `chain_header_key`, in the order its entries were added. -/
def chainHeaderKey (header : ChainHeader) : List ChainKey :=
  [header.traceId, header.spanId, header.parentSpanId, header.sampled,
    header.flags]

def mapKeys (change : ChainKey → ChainKey) (header : ChainHeader) :
    ChainHeader :=
  { header with
    traceId := change header.traceId
    spanId := change header.spanId
    parentSpanId := change header.parentSpanId
    sampled := change header.sampled
    flags := change header.flags }

end ChainHeader

/-- Fresh keys; the address fields keep what the last request left in them. -/
def moInitChainHeader (build : HeaderBuild) (ip : String) (port : Int) :
    ChainHeader where
  traceId := ⟨"trace_id", build.recTraceId, build.headerTraceId, none⟩
  spanId := ⟨"span_id", build.recSpanId, build.headerSpanId, none⟩
  parentSpanId :=
    ⟨"parent_span_id", build.recParentSpanId, build.headerParentSpanId, none⟩
  sampled := ⟨"sampled", build.recSampled, build.headerSampled, none⟩
  flags := ⟨"flags", build.recFlags, build.headerFlags, none⟩
  ip := ip
  port := port

def inetAddrStrLen : Nat := 16

def RequestInput.address (input : RequestInput) (header : ChainHeader) : ChainHeader :=
  { header with
    ip := copyToField inetAddrStrLen
      ((input.server.text? "SERVER_ADDR").getD input.ip)
    port := ((input.server.text? "SERVER_PORT").map atoi).getD header.port }

def RequestInput.receive (input : RequestInput) (key : ChainKey) : ChainKey :=
  match input.received key.receiveKey with
  | some text => { key with val := some text }
  | none => key

def ChainKey.default (value : String) (key : ChainKey) : ChainKey :=
  { key with val := some (key.val.getD value) }

def pushEntry (build : IdBuild) (parentSpanId spanId : Option String)
    (span : SpanState) : SpanState :=
  let span :=
    match parentSpanId with
    | some parent => span.pushSpanContextWithId build parent
    | none => span
  match spanId with
  | some spanId => span.pushSpanContextWithId build spanId
  | none => span.pushSpanContext build

def moBuildChainHeader (build : IdBuild) (input : RequestInput)
    (header : ChainHeader) (span : SpanState) : ChainHeader × SpanState :=
  let header := (input.address header).mapKeys input.receive
  ({ header with
      traceId := header.traceId.default input.rand64hex
      sampled := header.sampled.default "1"
      flags := header.flags.default "0" },
    pushEntry build header.parentSpanId.val header.spanId.val span)

def entryId (build : IdBuild) (parentSpanId spanId : Option String)
    (span : SpanState) : String :=
  match parentSpanId, spanId with
  | _, some spanId => spanId
  | some parent, none =>
      (span.pushSpanContextWithId build parent).nextSpanId build
  | none, none => span.nextSpanId build

theorem ids_pushEntry (build : IdBuild) (parentSpanId spanId : Option String)
    (span : SpanState) :
    (pushEntry build parentSpanId spanId span).ids =
      entryId build parentSpanId spanId span ::
        (parentSpanId.toList ++ span.ids) := by
  cases parentSpanId <;> cases spanId <;> simp [pushEntry, entryId]

structure TraceContext where
  traceId : String
  spanId : Option String
  parentSpanId : Option String
  sampled : String
  flags : String
  deriving DecidableEq, Repr

namespace TraceContext

def header (build : HeaderBuild) (context : TraceContext) (ip : String)
    (port : Int) : ChainHeader :=
  let keys := moInitChainHeader build ip port
  { keys with
    traceId := { keys.traceId with val := some context.traceId }
    spanId := { keys.spanId with val := context.spanId }
    parentSpanId := { keys.parentSpanId with val := context.parentSpanId }
    sampled := { keys.sampled with val := some context.sampled }
    flags := { keys.flags with val := some context.flags } }

def ofInput (build : HeaderBuild) (input : RequestInput) : TraceContext where
  traceId := (input.received build.recTraceId).getD input.rand64hex
  spanId := input.received build.recSpanId
  parentSpanId := input.received build.recParentSpanId
  sampled := (input.received build.recSampled).getD "1"
  flags := (input.received build.recFlags).getD "0"

def entry (build : IdBuild) (context : TraceContext) (span : SpanState) :
    SpanState :=
  pushEntry build context.parentSpanId context.spanId span

@[simp] theorem traceId_header (build : HeaderBuild) (context : TraceContext)
    (ip : String) (port : Int) :
    (context.header build ip port).traceId.val = some context.traceId := rfl

@[simp] theorem spanId_header (build : HeaderBuild) (context : TraceContext)
    (ip : String) (port : Int) :
    (context.header build ip port).spanId.val = context.spanId := rfl

@[simp] theorem parentSpanId_header (build : HeaderBuild)
    (context : TraceContext) (ip : String) (port : Int) :
    (context.header build ip port).parentSpanId.val =
      context.parentSpanId := rfl

end TraceContext

private theorem receive_empty (input : RequestInput)
    (name receiveKey passKey : String) :
    input.receive ⟨name, receiveKey, passKey, none⟩ =
      ⟨name, receiveKey, passKey, input.received receiveKey⟩ := by
  unfold RequestInput.receive
  cases input.received receiveKey <;> rfl

theorem moBuildChainHeader_init (headers : HeaderBuild) (build : IdBuild)
    (input : RequestInput) (ip : String) (port : Int) (span : SpanState) :
    ∃ ip' port', moBuildChainHeader build input
        (moInitChainHeader headers ip port) span =
      ((TraceContext.ofInput headers input).header headers ip' port',
        (TraceContext.ofInput headers input).entry build span) := by
  refine ⟨(input.address (moInitChainHeader headers ip port)).ip,
    (input.address (moInitChainHeader headers ip port)).port, ?_⟩
  simp only [moBuildChainHeader, ChainHeader.mapKeys, RequestInput.address,
    moInitChainHeader, receive_empty, ChainKey.default, TraceContext.header,
    TraceContext.ofInput, TraceContext.entry]

/-! Passing the values on to a callee. -/

inductive CurlHeader
  | list (lines : List String)
  | scalar
  deriving DecidableEq, Repr

namespace ChainKey

/-- The value sent under a key: the two span ids are the caller's own. -/
def passValue (spanId parentSpanId : Option String) (key : ChainKey) :
    Option String :=
  if startsWith key.name "span_id" && spanId.isSome then spanId
  else if startsWith key.name "parent_span_id" && parentSpanId.isSome then
    parentSpanId
  else key.val

def passLine (spanId parentSpanId : Option String) (key : ChainKey) :
    Option String :=
  (key.passValue spanId parentSpanId).map fun value =>
    key.passKey ++ ": " ++ value

end ChainKey

/-- The header value afterwards, or `none` when a null pointer is printed. -/
def addHttpTraceHeader (build : HeaderBuild) (isSampled : Bool)
    (pch : ChainHeader) (span : SpanState) (header : CurlHeader)
    (spanId : Option String) : Option CurlHeader :=
  match header with
  | .scalar => some .scalar
  | .list lines =>
      if isSampled then
        (pch.chainHeaderKey.mapM
          (ChainKey.passLine spanId span.retrieveParentSpanId)).map
          fun passed => .list (lines ++ passed)
      else if lines.any (startsWith · build.headerSampled) then
        some (.list lines)
      else
        some (.list (lines ++ [build.headerSampled ++ ": 0"]))

def traceLines (build : HeaderBuild) (context : TraceContext)
    (spanId parentSpanId : String) : List String :=
  [build.headerTraceId ++ ": " ++ context.traceId,
    build.headerSpanId ++ ": " ++ spanId,
    build.headerParentSpanId ++ ": " ++ parentSpanId,
    build.headerSampled ++ ": " ++ context.sampled,
    build.headerFlags ++ ": " ++ context.flags]

theorem addHttpTraceHeader_sampled {build : HeaderBuild}
    {context : TraceContext} {span : SpanState} {spanId parentSpanId : String}
    (hparent : span.retrieveParentSpanId = some parentSpanId)
    (ip : String) (port : Int) (lines : List String) :
    addHttpTraceHeader build true (context.header build ip port) span
        (.list lines) (some spanId) =
      some (.list (lines ++
        traceLines build context spanId parentSpanId)) := by
  have hspan : startsWith "trace_id" "span_id" = false ∧
      startsWith "parent_span_id" "span_id" = false ∧
      startsWith "sampled" "span_id" = false ∧
      startsWith "flags" "span_id" = false ∧
      startsWith "span_id" "span_id" = true := by decide
  have hparentSpan : startsWith "trace_id" "parent_span_id" = false ∧
      startsWith "sampled" "parent_span_id" = false ∧
      startsWith "flags" "parent_span_id" = false ∧
      startsWith "parent_span_id" "parent_span_id" = true := by decide
  simp [addHttpTraceHeader, ChainHeader.chainHeaderKey, ChainKey.passLine,
    ChainKey.passValue, TraceContext.header, moInitChainHeader, traceLines,
    hparent, hspan, hparentSpan]

end Molten.Chain
