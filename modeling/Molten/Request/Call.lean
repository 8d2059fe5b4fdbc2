import Molten.Control.Bailout
import Molten.Request.Globals

namespace Molten.Request

open Molten.Control
open Molten.Span
open Molten.Chain

/-! What a request executes.  A call is described by what happens inside it; its
arguments matter only where the extension reads them. -/

mutual
inductive Call
  | plain (body : CallSeq)
  | intercepted (record : Record) (body : CallSeq)
  /-- `curl_exec` on a handle; `body` holds the callbacks libcurl runs -/
  | curlExec (handle : Nat) (body : CallSeq)
  /-- `curl_exec` with arguments that `zend_parse_parameters` rejects; `body`
  holds what the warnings about them run -/
  | curlExecRejected (body : CallSeq)
  /-- `none` when the arguments are rejected, here and below -/
  | curlSetopt (args : Option SetoptArgs)
  | curlSetoptArray (args : Option SetoptArrayArgs)
  | curlReset (handle : Option Nat)
  | elapse (millis : Nat)

/-- A record callback.  The calls are those it makes back into PHP. -/
inductive Record
  | silent (calls : CallSeq)
  /-- starts its span after `before` and adds it after `after` -/
  | span (before after : CallSeq)
  | multiAdd (handle : Nat)
  | multiRemove (handle : Nat)

/-- Calls one after the other, up to an unwinding if there is one. -/
inductive CallSeq
  | done
  | bailout
  | next (call : Call) (rest : CallSeq)
end

/-- `mo_frame_t`, as far as record callbacks read it. -/
structure Frame where
  entryTime : Nat
  exitTime : Nat
  deriving DecidableEq, Repr

/-! The curl overrides. -/

def SetoptArrayArgs.header (args : SetoptArrayArgs) : Option CurlHeader :=
  (args.options.find? fun entry => entry.1 == curlHttpHeader).map Prod.snd

def recordHeader (handle : Nat) (header : CurlHeader) (g : Globals) : Globals :=
  { g with
    curlHeaderRecord :=
      Function.update g.curlHeaderRecord handle (some header) }

def moltenCurlSetopt (args : Option SetoptArgs) (g : Globals) : Globals :=
  if g.curlHeaderInternelCall then { g with curlHeaderInternelCall := false }
  else
    match args with
    | some ⟨handle, option, .list lines⟩ =>
        if option = curlHttpHeader then recordHeader handle (.list lines) g
        else g
    | _ => g

def moltenCurlSetoptArray (args : Option SetoptArrayArgs) (g : Globals) :
    Globals :=
  match args with
  | some args =>
      match args.header with
      | some header => recordHeader args.handle header g
      | none => g
  | none => g

def moltenCurlReset (handle : Option Nat) (g : Globals) : Globals :=
  match handle with
  | some handle =>
      { g with
        curlHeaderRecord := Function.update g.curlHeaderRecord handle none }
  | none => g

/-! The same as steps of the script, which also leave an event. -/

def userSetopt (args : Option SetoptArgs) (g : Globals) : Globals :=
  match args with
  | some args => (moltenCurlSetopt args g).log (.setopt args)
  | none => moltenCurlSetopt none g

def userSetoptArray (args : Option SetoptArrayArgs) (g : Globals) : Globals :=
  match args with
  | some args => (moltenCurlSetoptArray args g).log (.setoptArray args)
  | none => moltenCurlSetoptArray none g

def userReset (handle : Option Nat) (g : Globals) : Globals :=
  match handle with
  | some handle => (moltenCurlReset handle g).log (.reset handle)
  | none => moltenCurlReset none g

/-- The header value that `curl_exec` on a handle passes to `curl_setopt`.  A
null pointer is never printed, since the stack of a sampled request holds the
main span below the call. -/
def passedHeader (build : Build) (handle : Nat) (g : Globals) : CurlHeader :=
  let option := (g.curlHeaderRecord handle).getD (.list [])
  (addHttpTraceHeader build.headers g.chain.isSampled g.chain.pch g.chain.span
    option g.chain.span.retrieveSpanId).getD option

/-- The part of `molten_curl_exec` that sets the header: a recorded value is
appended to in place. -/
def setTraceHeader (build : Build) (handle : Nat) (g : Globals) : Globals :=
  let passed := passedHeader build handle g
  let recorded :=
    match g.curlHeaderRecord handle with
    | some _ => recordHeader handle passed g
    | none => g
  (moltenCurlSetopt (some ⟨handle, curlHttpHeader, passed⟩)
    { recorded with curlHeaderInternelCall := true }).log
      (.exec handle passed g.chain.span.retrieveSpanId
        g.chain.span.retrieveParentSpanId)

def curlPush (build : Build) (g : Globals) : Globals :=
  if g.chain.isSampled then
    g.mapSpan (SpanState.pushSpanContext build.ids)
  else g

/-- The span of a finished `curl_exec`, under the id read before the request
was sent. -/
def curlRecord (entryTime : Nat) (spanId : Option String) (g : Globals) :
    Globals :=
  if g.chain.isSampled then
    let span := { startSpan .client entryTime g.clock g with id := spanId }
    (moChainAddSpan span g).mapSpan SpanState.popSpanContext
  else g

/-- `molten_curl_exec` with a handle.  The original function runs outside any
handler, so an unwinding skips the rest. -/
def moltenCurlExec (build : Build) (handle : Nat) (body : Run Globals) :
    Run Globals :=
  .reading fun start =>
    (Run.act (curlPush build)).andThen <| .reading fun pushed =>
      (Run.act (setTraceHeader build handle)).andThen <|
        body.andThen <|
          .act (curlRecord start.clock pushed.chain.span.retrieveSpanId)

/-- `molten_curl_exec` without one: the push has no pop. -/
def moltenCurlExecRejected (build : Build) (body : Run Globals) :
    Run Globals :=
  (Run.act (curlPush build)).andThen body

/-! The executor hook. -/

/-- `mo_execute_core` of a function with a record callback.  The callback runs
outside the handler, so an unwinding inside it skips `frame_destroy`. -/
def moExecuteCore (build : Build) (record : Frame → Run Globals)
    (body : Run Globals) : Run Globals :=
  .reading fun start =>
    if start.Active then
      (Run.act (frameBuild build)).andThen <|
        body.ensuring <| .reading fun left =>
          (record ⟨start.clock, left.clock⟩).andThen (.act frameDestroy)
    else body

def curlMultiAddHandleRecord (handle : Nat) (frame : Frame) (g : Globals) :
    Globals :=
  { g with
    spanInfoCache :=
      Function.update g.spanInfoCache handle (some frame.entryTime) }

def curlMultiRemoveHandleRecord (handle : Nat) (frame : Frame) (g : Globals) :
    Globals :=
  match g.spanInfoCache handle with
  | some startTime =>
      moChainAddSpan (startSpan .client startTime frame.exitTime g) g
  | none => g

def recordSpan (before after : Run Globals) (frame : Frame) : Run Globals :=
  before.andThen <| .reading fun g =>
    after.andThen <|
      .act (moChainAddSpan (startSpan .client frame.entryTime frame.exitTime g))

def elapse (millis : Nat) (g : Globals) : Globals :=
  { g with clock := g.clock + millis }

mutual
def Call.run (build : Build) : Call → Run Globals
  | .plain body => body.run build
  | .intercepted record body =>
      moExecuteCore build (record.run build) (body.run build)
  | .curlExec handle body => moltenCurlExec build handle (body.run build)
  | .curlExecRejected body => moltenCurlExecRejected build (body.run build)
  | .curlSetopt args => .act (userSetopt args)
  | .curlSetoptArray args => .act (userSetoptArray args)
  | .curlReset handle => .act (userReset handle)
  | .elapse millis => .act (Molten.Request.elapse millis)

def Record.run (build : Build) : Record → Frame → Run Globals
  | .silent calls, _ => calls.run build
  | .span before after, frame =>
      recordSpan (before.run build) (after.run build) frame
  | .multiAdd handle, frame => .act (curlMultiAddHandleRecord handle frame)
  | .multiRemove handle, frame =>
      .act (curlMultiRemoveHandleRecord handle frame)

def CallSeq.run (build : Build) : CallSeq → Run Globals
  | .done => .skip
  | .bailout => .bailout
  | .next call rest => (call.run build).andThen (rest.run build)
end

/-- The main script, then the shutdown functions, destructors and output
handlers.  The server catches an unwinding at the end of each. -/
def runPhases (build : Build) (phases : List CallSeq) (g : Globals) : Globals :=
  phases.foldl (fun g phase => (phase.run build g).1) g

/-- The spans a request hands to the encoder, from the state RINIT left. -/
def batch (build : Build) (phases : List CallSeq) (start : Globals) :
    Option (List Span) :=
  (phpRshutdown (runPhases build phases start)).2

/-! What each change leaves alone. -/

def SameTrace (g' g : Globals) : Prop :=
  g'.chain = g.chain ∧ g'.inRequest = g.inRequest

theorem SameTrace.active {g g' : Globals}
    (h : SameTrace g' g) (hg : g.Active) :
    g'.Active ∧ g'.ids = g.ids := by
  refine ⟨?_, by rw [Globals.ids, Globals.ids, h.1]⟩
  rw [Globals.Active, h.1, h.2]
  exact hg

theorem sameTrace_moChainAddSpan (span : Span) (g : Globals) :
    SameTrace (moChainAddSpan span g) g := by
  obtain ⟨spans, h⟩ := moChainAddSpan_eq span g
  rw [h]
  exact ⟨rfl, rfl⟩

def OnlyCurl (g' g : Globals) : Prop :=
  ∃ record internel events, g' = { g with
    curlHeaderRecord := record
    curlHeaderInternelCall := internel
    events := events }

theorem OnlyCurl.sameTrace {g' g : Globals} (h : OnlyCurl g' g) :
    SameTrace g' g := by
  obtain ⟨record, internel, events, rfl⟩ := h
  exact ⟨rfl, rfl⟩

theorem OnlyCurl.trans {g'' g' g : Globals} (h : OnlyCurl g'' g')
    (h' : OnlyCurl g' g) : OnlyCurl g'' g := by
  obtain ⟨record, internel, events, rfl⟩ := h
  obtain ⟨record', internel', events', rfl⟩ := h'
  exact ⟨record, internel, events, rfl⟩

theorem onlyCurl_moltenCurlSetopt (args : Option SetoptArgs) (g : Globals) :
    OnlyCurl (moltenCurlSetopt args g) g := by
  unfold moltenCurlSetopt recordHeader
  repeat' split
  all_goals exact ⟨_, _, _, rfl⟩

theorem onlyCurl_userSetopt (args : Option SetoptArgs) (g : Globals) :
    OnlyCurl (userSetopt args g) g := by
  cases args with
  | none => exact onlyCurl_moltenCurlSetopt none g
  | some args =>
      exact OnlyCurl.trans ⟨_, _, _, rfl⟩ (onlyCurl_moltenCurlSetopt args g)

theorem onlyCurl_userSetoptArray (args : Option SetoptArrayArgs)
    (g : Globals) : OnlyCurl (userSetoptArray args g) g := by
  unfold userSetoptArray moltenCurlSetoptArray recordHeader
  repeat' split
  all_goals exact ⟨_, _, _, rfl⟩

theorem onlyCurl_userReset (handle : Option Nat) (g : Globals) :
    OnlyCurl (userReset handle g) g := by
  cases handle <;> exact ⟨_, _, _, rfl⟩

theorem onlyCurl_setTraceHeader (build : Build) (handle : Nat) (g : Globals) :
    OnlyCurl (setTraceHeader build handle g) g := by
  refine OnlyCurl.trans ⟨_, _, _, rfl⟩
    ((onlyCurl_moltenCurlSetopt _ _).trans ?_)
  split <;> exact ⟨_, _, _, rfl⟩

@[simp] theorem runPhases_nil (build : Build) (g : Globals) :
    runPhases build [] g = g := rfl

@[simp] theorem runPhases_cons (build : Build) (phase : CallSeq)
    (phases : List CallSeq) (g : Globals) :
    runPhases build (phase :: phases) g =
      runPhases build phases (phase.run build g).1 := rfl

end Molten.Request
