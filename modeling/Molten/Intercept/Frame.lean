import Molten.Span.Annotations

namespace Molten.Intercept

open Molten.Php
open Molten.Span
open Molten.Text

/-! What a record callback is called with. -/

/-- `mo_frame_t`, with the ids its stack shows. -/
structure Frame where
  function : String
  object : Zval
  args : List Zval
  oriRet : Option Zval
  entryTime : Nat
  exitTime : Nat
  spanId : String
  parentSpanId : Option String

/-- `EG(exception)`: the classes it is an instance of, and its message. -/
structure Thrown where
  instanceOf : String → Bool
  message : String

/-- `mo_interceptor_t`, as far as it is read here, with `repr_zval` of an
argument. -/
structure Interceptor where
  pct : ChainInfo
  psb : SpanBuilder
  reprZval : Zval → String

def databaseLayer : Int := 1
def httpLayer : Int := 3
def cacheLayer : Int := 5
def httpClientCn : Int := 2
def mysqlCn : Int := 5
def jedisCn : Int := 7
def mongodbCn : Int := 9
def memcachedCn : Int := 20

def Frame.start (frame : Frame) (name : String) : SpanStart :=
  ⟨name, frame.spanId, frame.parentSpanId, frame.entryTime, frame.exitTime⟩

namespace Interceptor

def withComponent (pit : Interceptor) (spanLayer componentId : Int) :
    Interceptor :=
  { pit with
    pct := { pit.pct with
      spanLayer := spanLayer
      componentId := componentId } }

def startSpanEx (pit : Interceptor) (frame : Frame) (name : String) :
    HashTable :=
  pit.psb.startSpan pit.pct (frame.start name) .client

/-- `build_com_record` without arguments. -/
def buildComRecord (pit : Interceptor) (frame : Frame) : HashTable :=
  pit.startSpanEx frame frame.function

def annotate (pit : Interceptor) (frame : Frame) (span : HashTable)
    (bas : List Ba) : HashTable :=
  pit.psb.spanAddBas frame.exitTime span bas

/-- All that is printed for the span fits the buffers. -/
def Fits (pit : Interceptor) (frame : Frame) (name : String)
    (bas : List Ba) : Prop :=
  pit.psb.StartFits pit.pct (frame.start name) ∧ pit.psb.BasFit bas

instance (pit : Interceptor) (frame : Frame) (name : String)
    (bas : List Ba) : Decidable (pit.Fits frame name bas) :=
  inferInstanceAs (Decidable (_ ∧ _))

/-- The span of a callback that starts it and annotates it, or `none` when a
buffer is overrun. -/
def record (pit : Interceptor) (frame : Frame) (name : String)
    (bas : List Ba) : Option HashTable :=
  if pit.Fits frame name bas then
    some (pit.annotate frame (pit.startSpanEx frame name) bas)
  else none

end Interceptor

/-! `convert_args_to_string` -/

/-- A negative `int` turns into a count without limit. -/
def strncat (text added : String) (count : Int) : String :=
  if count < 0 then text ++ added else text ++ copyToField count.toNat added

def argsMaxLen : Nat := 64

def argsEllipsis : String := "..."

def argsRealLen : Int := 60

def appendArgs (reprZval : Zval → String) (text : String) (argLen : Int) :
    List Zval → String
  | [] => text
  | arg :: args =>
      let tmp := reprZval arg
      let realLen : Int := tmp.length + 1
      if argLen + realLen ≥ argsRealLen then
        let text := strncat text tmp (argsRealLen - argLen - 1)
        cutToBuffer argsMaxLen (strncat text argsEllipsis 3)
      else
        appendArgs reprZval (strncat (strncat text tmp (realLen - 1)) "," 1)
          (argLen + realLen) args

def Interceptor.convertArgsToString (pit : Interceptor) (frame : Frame) :
    String :=
  appendArgs pit.reprZval (strncat (strncat "" frame.function (-1)) " " 1)
    (frame.function.length + 1) frame.args

def setSpanException (pct : ChainInfo) (exceptionCe : String)
    (exception : Option Thrown) : List Ba :=
  match exception with
  | some thrown =>
      if thrown.instanceOf exceptionCe then
        [spanAddBaEx pct "error" (some thrown.message) .error]
      else []
  | none => []

end Molten.Intercept
