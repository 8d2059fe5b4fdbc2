import Molten.Text.CString

namespace Molten.Chain

open Molten.Text

/-! Header names and the server variables they arrive under. -/

/-- Whether the extension was built with `USE_ZIPKIN_HEADER`. -/
inductive HeaderBuild
  | molten
  | zipkin
  deriving DecidableEq, Repr

namespace HeaderBuild

def headerPrefix : HeaderBuild → String
  | .molten => "X-W-"
  | .zipkin => "X-B3-"

def recHeaderPrefix : HeaderBuild → String
  | .molten => "HTTP_X_W_"
  | .zipkin => "HTTP_X_B3_"

def headerTraceId (build : HeaderBuild) := build.headerPrefix ++ "TraceId"
def headerSpanId (build : HeaderBuild) := build.headerPrefix ++ "SpanId"
def headerParentSpanId (build : HeaderBuild) :=
  build.headerPrefix ++ "ParentSpanId"
def headerSampled (build : HeaderBuild) := build.headerPrefix ++ "Sampled"
def headerFlags (build : HeaderBuild) := build.headerPrefix ++ "Flags"

def recTraceId (build : HeaderBuild) := build.recHeaderPrefix ++ "TRACEID"
def recSpanId (build : HeaderBuild) := build.recHeaderPrefix ++ "SPANID"
def recParentSpanId (build : HeaderBuild) :=
  build.recHeaderPrefix ++ "PARENTSPANID"
def recSampled (build : HeaderBuild) := build.recHeaderPrefix ++ "SAMPLED"
def recFlags (build : HeaderBuild) := build.recHeaderPrefix ++ "FLAGS"

end HeaderBuild

inductive ServerVar
  | string (text : String)
  | other
  deriving DecidableEq, Repr

/-- `find_server_var`, with `none` for `FAILURE`. -/
abbrev ServerVars := String → Option ServerVar

def ServerVars.text? (server : ServerVars) (key : String) : Option String :=
  match server key with
  | some (.string text) => some text
  | _ => none

structure RequestInput where
  isCli : Bool
  server : ServerVars
  ip : String
  /-- the number `random` would draw -/
  num : Nat
  /-- the minute on the clock -/
  minute : Int
  rand64hex : String

/-- The text received under a server variable; none on the command line. -/
def RequestInput.received (input : RequestInput) (key : String) :
    Option String :=
  if input.isCli then none else input.server.text? key

theorem RequestInput.received_of_server {input : RequestInput}
    {key text : String} (hcli : input.isCli = false)
    (h : input.server key = some (.string text)) :
    input.received key = some text := by
  simp [received, hcli, ServerVars.text?, h]

end Molten.Chain
