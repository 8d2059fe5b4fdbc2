import Molten.Report.Errors
import Molten.Request.Call

namespace Molten.Process

open Molten.Text
open Molten.Log
open Molten.Report
open Molten.Span
open Molten.Chain
open Molten.Ctrl
open Molten.Request

/-! A worker process from one request to the next. -/

/-- What a sampled request fills and an unsampled one finds. -/
structure TraceState where
  spans : Option (List Request.Span)
  span : SpanState
  buf : Memory
  totalSize : Nat
  allocSize : Nat
  errorList : Option (List String)

/-- `seen` is no part of the program: it lists the trace state after each step
of the current request. -/
structure Worker where
  globals : Globals
  log : ChainLog
  /-- `none` while there is no list, or a freed one -/
  errorList : Option (List String)
  report : ErrorReport
  requestUri : Option String
  executeBeginTime : Int
  sink : List SinkWrite
  seen : List TraceState

structure Config where
  build : Build
  openReport : Bool
  /-- what `perealloc` leaves in a new block of a given size -/
  fresh : Nat → Memory
  /-- what `php_json_encode` appends -/
  encodeReport : Php.Zval → Bytes

namespace Worker

def trace (worker : Worker) : TraceState where
  spans := worker.globals.spans
  span := worker.globals.chain.span
  buf := worker.log.buf
  totalSize := worker.log.totalSize
  allocSize := worker.log.allocSize
  errorList := worker.errorList

def observe (worker : Worker) : Worker :=
  { worker with seen := worker.seen ++ [worker.trace] }

def step (change : Globals → Globals) (worker : Worker) : Worker :=
  observe { worker with globals := change worker.globals }

end Worker

/-- The host and the path, without the query. -/
def joinOriUrl (server : ServerVars) : Option String :=
  match server.text? "HTTP_HOST", server.text? "REQUEST_URI" with
  | some host, some uri =>
      some (host ++ String.ofList (uri.toList.takeWhile (· != '?')))
  | _, _ => none

/-- `molten_error_cb`, which stands in place of the engine's callback while
reports are open. -/
def moltenErrorCb (config : Config) (args : ErrorArgs) (worker : Worker) :
    Worker :=
  Worker.observe <|
    if config.openReport = true ∧ args.Recorded then
      { worker with
        errorList :=
          if worker.globals.Active then
            worker.errorList.map (· ++ [errorInfo args])
          else worker.errorList
        report := moRepRecordError worker.requestUri (errorInfo args)
          worker.executeBeginTime worker.report }
    else worker

/-! RINIT and RSHUTDOWN. -/

/-- What RINIT is given.  The control settings and the sampling record are
shared with the other workers, which may have changed them. -/
structure Arrival where
  input : RequestInput
  module : CtrlModule
  record : SamplingRecord
  requestTime : Int

/-- The sampling decision, or `none` when the rate is zero. -/
def Arrival.decision (config : Config) (arrival : Arrival) : Option Bool :=
  (moCtrlSampling config.build.headers arrival.input arrival.module
    arrival.record).map Prod.fst

def Worker.arrive (arrival : Arrival) (worker : Worker) : Worker :=
  { worker with
    executeBeginTime := arrival.requestTime * 1000000
    requestUri := joinOriUrl arrival.input.server
    seen := [] }

def phpRinit (config : Config) (arrival : Arrival) (worker : Worker) :
    Option Worker :=
  let worker := worker.arrive arrival
  (Request.phpRinit config.build arrival.input arrival.module arrival.record
    worker.globals).map fun (g, _) =>
      if g.chain.isSampled then
        Worker.observe
          { worker with
            globals := g
            log := moChainLogInit worker.log
            errorList := some [] }
      else Worker.observe { worker with globals := g }

/-- The main span is added, the spans are encoded and written, and the stack and
the error list are freed. -/
def endTrace (config : Config) (encoder : Encoder Request.Span)
    (worker : Worker) : Worker :=
  if worker.globals.chain.isSampled then
    let (g, spans) := Request.phpRshutdown worker.globals
    let (log, sink) := moChainLogFlush config.fresh
      (encoder.records worker.log.outputType (worker.errorList.getD [])
        (spans.getD [])) worker.log worker.sink
    Worker.observe
      { worker with globals := g, log := log, sink := sink, errorList := none }
  else worker.step fun g => (Request.phpRshutdown g).1

def endReport (config : Config) (worker : Worker) : Worker :=
  Worker.observe <|
    if config.openReport then
      let (report, sink) := moRepRecordData config.encodeReport
        worker.executeBeginTime worker.log worker.report worker.sink
      { worker with report := report, sink := sink }
    else worker

def phpRshutdown (config : Config) (encoder : Encoder Request.Span)
    (worker : Worker) : Worker :=
  let worker := endReport config (endTrace config encoder worker)
  { worker with requestUri := none }

end Molten.Process
