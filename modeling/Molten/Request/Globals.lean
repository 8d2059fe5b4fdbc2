import Molten.Chain.Start
import Mathlib.Logic.Function.Basic

namespace Molten.Request

open Molten.Span
open Molten.Chain
open Molten.Ctrl

/-! The state of one worker during a request, and its two ends. -/

structure Build where
  headers : HeaderBuild
  ids : IdBuild
  deriving DecidableEq, Repr

/-- The part of a span that places it in its trace. -/
structure Span where
  id : Option String
  parentId : Option String
  anType : AnType
  start : Nat
  finish : Nat
  deriving DecidableEq, Repr

structure SetoptArgs where
  handle : Nat
  option : Int
  value : CurlHeader
  deriving DecidableEq, Repr

structure SetoptArrayArgs where
  handle : Nat
  options : List (Int × CurlHeader)
  deriving DecidableEq, Repr

/-- What was done to curl handles.  `exec` shows the header value passed on and
the two innermost ids on the stack. -/
inductive CurlEvent
  | setopt (args : SetoptArgs)
  | setoptArray (args : SetoptArrayArgs)
  | reset (handle : Nat)
  | exec (handle : Nat) (passed : CurlHeader)
      (spanId parentSpanId : Option String)
  deriving DecidableEq, Repr

/-- `molten_globals`.  `events` is no part of the program: it lists what was
done to curl handles in this request, newest first. -/
structure Globals where
  inRequest : Bool
  chain : ChainState
  spans : Option (List Span)
  curlHeaderRecord : Nat → Option CurlHeader
  curlHeaderInternelCall : Bool
  /-- the start times of handles added to a curl multi handle -/
  spanInfoCache : Nat → Option Nat
  executeBeginTime : Nat
  clock : Nat
  events : List CurlEvent

def curlHttpHeader : Int := 10023

def maxSpans : Nat := 300

namespace Globals

def ids (g : Globals) : List String := g.chain.span.ids

/-- In a sampled request, calls are intercepted. -/
def Active (g : Globals) : Prop :=
  g.chain.isSampled = true ∧ g.inRequest = true

instance (g : Globals) : Decidable g.Active := by
  unfold Active
  infer_instance

def mapSpan (change : SpanState → SpanState) (g : Globals) : Globals :=
  { g with chain := { g.chain with span := change g.chain.span } }

def log (event : CurlEvent) (g : Globals) : Globals :=
  { g with events := event :: g.events }

end Globals

open Globals

def moChainAddSpan (span : Span) (g : Globals) : Globals :=
  match g.spans with
  | none => g
  | some spans =>
      if spans.length < maxSpans then
        { g with spans := some (spans ++ [span]) }
      else g

/-- A span with the ids on the stack, as `start_span_ex` and its callers read
them. -/
def startSpan (anType : AnType) (start finish : Nat) (g : Globals) : Span where
  id := g.chain.span.retrieveSpanId
  parentId := g.chain.span.retrieveParentSpanId
  anType := anType
  start := start
  finish := finish

def frameBuild (build : Build) (g : Globals) : Globals :=
  g.mapSpan (SpanState.pushSpanContext build.ids)

def frameDestroy (g : Globals) : Globals :=
  g.mapSpan SpanState.popSpanContext

/-! RINIT and RSHUTDOWN of an enabled worker. -/

/-- `none` when the sampling rate is zero. -/
def phpRinit (build : Build) (input : RequestInput) (module : CtrlModule)
    (record : SamplingRecord) (g : Globals) :
    Option (Globals × SamplingRecord) :=
  (startChain build.headers build.ids input module record g.chain).map
    fun (chain, record) =>
      ({ g with
          inRequest := true
          chain := chain
          spans := if chain.isSampled then some [] else g.spans
          executeBeginTime :=
            if chain.isSampled then g.clock else g.executeBeginTime
          curlHeaderRecord := fun _ => none
          spanInfoCache := fun _ => none
          curlHeaderInternelCall := false
          events := [] }, record)

/-- The main span, with whatever ids the stack shows at the end. -/
def mainSpan (g : Globals) : Span :=
  startSpan .server g.executeBeginTime g.clock g

def moChainDtor (g : Globals) : Globals :=
  if g.chain.isSampled then
    ((moChainAddSpan (mainSpan g) g).mapSpan
      SpanState.popSpanContext).mapSpan SpanState.popSpanContext
  else g

/-- The state afterwards, and the spans handed to the encoder if the request
was sampled. -/
def phpRshutdown (g : Globals) : Globals × Option (List Span) :=
  let g := moChainDtor { g with inRequest := false }
  if g.chain.isSampled then
    ({ g.mapSpan SpanState.initSpanContext with spans := none }, g.spans)
  else (g, none)

/-! What each change leaves alone. -/

@[simp] theorem active_mapSpan (change : SpanState → SpanState)
    (g : Globals) : (g.mapSpan change).Active ↔ g.Active := Iff.rfl

@[simp] theorem active_log (event : CurlEvent) (g : Globals) :
    (g.log event).Active ↔ g.Active := Iff.rfl

theorem ids_frameBuild (build : Build) (g : Globals) :
    (frameBuild build g).ids =
      g.chain.span.nextSpanId build.ids :: g.ids := by
  simp [frameBuild, Globals.ids, Globals.mapSpan]

theorem ids_frameDestroy (g : Globals) : (frameDestroy g).ids = g.ids.tail := by
  simp [frameDestroy, Globals.ids, Globals.mapSpan]

@[simp] theorem active_frameBuild (build : Build) (g : Globals) :
    (frameBuild build g).Active ↔ g.Active := Iff.rfl

@[simp] theorem active_frameDestroy (g : Globals) :
    (frameDestroy g).Active ↔ g.Active := Iff.rfl

theorem moChainAddSpan_eq (span : Span) (g : Globals) :
    ∃ spans, moChainAddSpan span g = { g with spans := spans } := by
  unfold moChainAddSpan
  split
  · exact ⟨g.spans, rfl⟩
  · split
    · exact ⟨_, rfl⟩
    · exact ⟨g.spans, rfl⟩

@[simp] theorem ids_moChainAddSpan (span : Span) (g : Globals) :
    (moChainAddSpan span g).ids = g.ids := by
  obtain ⟨spans, h⟩ := moChainAddSpan_eq span g
  rw [h]
  rfl

@[simp] theorem chain_moChainAddSpan (span : Span) (g : Globals) :
    (moChainAddSpan span g).chain = g.chain := by
  obtain ⟨spans, h⟩ := moChainAddSpan_eq span g
  rw [h]

@[simp] theorem clock_moChainAddSpan (span : Span) (g : Globals) :
    (moChainAddSpan span g).clock = g.clock := by
  obtain ⟨spans, h⟩ := moChainAddSpan_eq span g
  rw [h]

@[simp] theorem spanInfoCache_moChainAddSpan (span : Span) (g : Globals) :
    (moChainAddSpan span g).spanInfoCache = g.spanInfoCache := by
  obtain ⟨spans, h⟩ := moChainAddSpan_eq span g
  rw [h]

@[simp] theorem active_moChainAddSpan (span : Span) (g : Globals) :
    (moChainAddSpan span g).Active ↔ g.Active := by
  obtain ⟨spans, h⟩ := moChainAddSpan_eq span g
  rw [h]
  exact Iff.rfl

theorem spans_moChainAddSpan {g : Globals} {spans : List Span}
    (h : g.spans = some (spans.take maxSpans)) (span : Span) :
    (moChainAddSpan span g).spans =
      some ((spans ++ [span]).take maxSpans) := by
  rw [moChainAddSpan, h]
  by_cases hlen : spans.length < maxSpans
  · have htake : spans.take maxSpans = spans :=
      List.take_of_length_le (Nat.le_of_lt hlen)
    have htake' : (spans ++ [span]).take maxSpans = spans ++ [span] :=
      List.take_of_length_le (by simp; omega)
    simp [htake, htake', hlen]
  · have hfull : ¬ (spans.take maxSpans).length < maxSpans := by
      rw [List.length_take]
      omega
    have htake : (spans ++ [span]).take maxSpans = spans.take maxSpans :=
      List.take_append_of_le_length (Nat.le_of_not_lt hlen)
    simp only [hfull, if_false, h, htake]

theorem phpRinit_sampled {build : Build} {input : RequestInput}
    {module : CtrlModule} {record record' : SamplingRecord}
    {prior g : Globals}
    (h : phpRinit build input module record prior = some (g, record'))
    (hsampled : g.chain.isSampled = true) :
    g.Active ∧ g.spans = some [] ∧
      (∀ handle, g.curlHeaderRecord handle = none) ∧
      g.curlHeaderInternelCall = false ∧ g.events = [] ∧
      g.executeBeginTime = g.clock ∧
      (∃ ip port, g.chain.pch = (TraceContext.ofInput build.headers
        input).header build.headers ip port) ∧
      ∃ mainId, g.ids =
        mainId :: (input.received build.headers.recParentSpanId).toList := by
  rw [phpRinit, Option.map_eq_some_iff] at h
  obtain ⟨⟨chain, after⟩, hstart, hg⟩ := h
  obtain ⟨rfl, rfl⟩ := Prod.mk.injEq .. ▸ hg
  have hchain : chain.isSampled = true := hsampled
  obtain ⟨-, ip, port, hpch, -⟩ := startChain_sampled hstart hchain
  exact ⟨⟨hchain, rfl⟩, by simp [hchain], fun _ => rfl, rfl, rfl,
    by simp [hchain], ⟨ip, port, hpch⟩, ids_startChain hstart hchain⟩

theorem spanInfoCache_phpRinit {build : Build} {input : RequestInput}
    {module : CtrlModule} {record record' : SamplingRecord}
    {prior g : Globals}
    (h : phpRinit build input module record prior = some (g, record')) :
    ∀ handle, g.spanInfoCache handle = none := by
  rw [phpRinit, Option.map_eq_some_iff] at h
  obtain ⟨⟨chain, after⟩, -, hg⟩ := h
  obtain ⟨rfl, rfl⟩ := Prod.mk.injEq .. ▸ hg
  exact fun _ => rfl

end Molten.Request
