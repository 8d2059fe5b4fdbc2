import Molten.Intercept.Frame

namespace Molten.Intercept

open Molten.Php
open Molten.Span
open Molten.Text

/-! The spans of curl calls, and the main span.  They have no result when a
buffer is overrun. -/

/-- What `curl_getinfo` and `curl_error` say about a handle. -/
structure CurlInfo where
  url : String
  httpCode : Int
  error : String

/-- What `sscanf(url, "http://%s", host)` stores, or `none` when it stores
nothing. -/
def scanHost (url : String) : Option String :=
  if startsWith url "http://" then
    let host := ((url.toList.drop 7).dropWhile isSpace).takeWhile
      fun c => !isSpace c
    if host.isEmpty then none else some (String.ofList host)
  else none

def hostSize : Nat := 64

/-- A host has to fit `host`, which starts out with what the stack holds, and
the name of the operation `on`. -/
def curlPeer (pit : Interceptor) (buffer : String) (info : CurlInfo)
    (span : HashTable) : Option HashTable :=
  match pit.psb.type with
  | .skywalking =>
      let host := scanHost info.url
      let on := pit.pct.serviceName ++ "/" ++ info.url
      if (host.getD "").length < hostSize ∧ on.length < onSize then
        let span := span.addAssoc "pn" (.string (host.getD buffer))
        some (span.addAssoc "on" (.string on))
      else none
  | _ => some span

def curlBas (pit : Interceptor) (info : CurlInfo) : List Ba :=
  let urlKey :=
    match pit.psb.type with
    | .skywalking => "url"
    | _ => "http.url"
  [spanAddBaEx pit.pct urlKey (some info.url) .normal,
    if info.error = "" then
      spanAddBaEx pit.pct "http.status" (some (printLong info.httpCode)) .normal
    else spanAddBaEx pit.pct "error" (some info.error) .error]

def buildCurlBannotation (pit : Interceptor) (buffer : String)
    (info : CurlInfo) (timestamp : Nat) (span : HashTable) :
    Option HashTable := do
  let span ← curlPeer pit buffer info span
  pit.psb.tryAddBas timestamp span (curlBas pit info)

def responseMaxLen : Nat := 128

/-- `none` when `curl_exec` did not return a string. -/
def curlResponse (pct : ChainInfo) (response : Option String) : List Ba :=
  match response with
  | some text =>
      if text = "" then []
      else if text.length > responseMaxLen then
        [spanAddBaEx pct "http.response"
          (some (copyToField (responseMaxLen - 1) text)) .normal]
      else [spanAddBaEx pct "http.response" (some text) .normal]
  | none => []

/-- The span of `molten_curl_exec`. -/
def curlExecSpan (pit : Interceptor) (buffer : String) (info : CurlInfo)
    (response : Option String) (start : SpanStart) : Option HashTable := do
  let pit := pit.withComponent httpLayer httpClientCn
  let span ← pit.psb.tryStart pit.pct { start with name := "php_curl" }
    .client
  let span ← buildCurlBannotation pit buffer info start.finishTime span
  pit.psb.tryAddBas start.finishTime span (curlResponse pit.pct response)

/-- The span of `curl_multi_remove_handle_record`, if the handle was added. Its
layer and component are set when it was started already. -/
def curlMultiRemoveSpan (pit : Interceptor) (buffer : String)
    (info : CurlInfo) (start : Option SpanStart) :
    Option (Option HashTable) :=
  match start with
  | none => some none
  | some start => do
      let span ← pit.psb.tryStart pit.pct
        { start with name := "php_curl_multi" } .client
      let span ← buildCurlBannotation pit buffer info start.finishTime span
      some (some span)

/-! The main span of `mo_chain_dtor`. -/

structure MainRequest where
  sapi : String
  method : Option String
  hasRequestUri : Bool
  /-- `$_SERVER` -/
  server : String → Option Zval
  script : Option String
  errorList : List Zval
  isCli : Bool
  argv : List String

def entryType : Int := 0

def MainRequest.httpHost (main : MainRequest) : Option Zval :=
  match main.server "HTTP_HOST" with
  | some (.string host) =>
      if host = "" then (main.server "SERVER_NAME").or (some (.string host))
      else some (.string host)
  | some host => some host
  | none => main.server "SERVER_NAME"

/-- Where the query starts, in an `unsigned char`. Without one, `strchr` is null
and the address of the text is left over. -/
def queryOffset (address : Nat) (uri : String) : Nat :=
  match uri.toList.findIdx? (· == '?') with
  | some index => index % 256
  | none => (256 - address % 256) % 256

def operationName (address : Nat) (uri : String) : String :=
  if queryOffset address uri > 0 then copyToField (queryOffset address uri) uri
  else uri

def MainRequest.addUrl (main : MainRequest) (pit : Interceptor)
    (address timestamp : Nat) (span : HashTable) : Option HashTable :=
  match main.hasRequestUri, main.httpHost, main.server "REQUEST_URI" with
  | true, some (.string host), some (.string uri) =>
      let url := some ("http://" ++ host ++ uri)
      match pit.psb.type with
      | .skywalking =>
          pit.psb.tryAddBas timestamp
            (span.addAssoc "on" (.string (operationName address uri)))
            [spanAddBaEx pit.pct "url" url .normal]
      | _ =>
          pit.psb.tryAddBas timestamp span
            [spanAddBaEx pit.pct "http.url" url .normal]
  | _, _, _ => some span

/-- What is appended to `argv`, a buffer of 1024 bytes. -/
def MainRequest.argvText (main : MainRequest) : Option String :=
  if main.isCli && main.argv.length > 1 then
    some (main.argv.tail.foldl (fun text arg => text ++ arg ++ ",") "")
  else none

def argvSize : Nat := 1024

def MainRequest.bas (main : MainRequest) (pct : ChainInfo) : List Ba :=
  let errors := main.errorList.flatMap fun error =>
    match error with
    | .string text => [spanAddBaEx pct "error" (some text) .error]
    | _ => []
  (main.script.map fun script =>
    spanAddBaEx pct "path" (some script) .path).toList ++ errors ++
    (main.argvText.map fun text =>
      spanAddBaEx pct "argv" (some text) .normal).toList

def mainSpanRecord (pit : Interceptor) (address : Nat) (main : MainRequest)
    (start : SpanStart) : Option HashTable := do
  let pit := { pit with pct := { pit.pct with spanType := entryType } }
  let span ← pit.psb.tryStart pit.pct
    { start with name := main.method.getD main.sapi } .server
  let span ← main.addUrl pit address start.startTime span
  if (main.argvText.getD "").length < argvSize then
    pit.psb.tryAddBas start.startTime span (main.bas pit.pct)
  else none

end Molten.Intercept
