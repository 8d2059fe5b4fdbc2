import Molten.Php.Zval
import Molten.Span.Context

namespace Molten.Span

open Molten.Php
open Molten.Text

/-! The span builders of the three formats. -/

inductive SpanFormat
  | zipkin
  | opentracing
  | skywalking
  deriving DecidableEq, Repr

inductive BaType
  | normal
  | sa
  | saHost
  | saIp
  | saDsn
  | error
  | path
  deriving DecidableEq, Repr

def AnType.kind : AnType → String
  | .server => "server"
  | .client => "client"

structure ChainInfo where
  serviceName : String
  traceId : String
  ip : String
  port : Int
  spanType : Int
  spanLayer : Int
  componentId : Int
  hasErrorList : Bool

structure SpanStart where
  name : String
  spanId : String
  parentId : Option String
  startTime : Nat
  finishTime : Nat

/-- The arguments of `span_add_ba`; `none` is a null pointer. -/
structure Ba where
  key : String
  value : Option String
  serviceName : String
  ipv4 : Option String
  port : Int
  type : BaType

def spanAddBaEx (pct : ChainInfo) (key : String) (value : Option String)
    (type : BaType) : Ba where
  key := key
  value := value
  serviceName := pct.serviceName
  ipv4 := some pct.ip
  port := pct.port
  type := type

/-! Zipkin. -/

def spanVersion : String := "php-4"

def znStartSpan (pct : ChainInfo) (start : SpanStart) : HashTable :=
  let span : HashTable := []
  let span := span.addAssoc "traceId" (.string pct.traceId)
  let span := span.addAssoc "name" (.string start.name)
  let span := span.addAssoc "version" (.string spanVersion)
  let span := span.addAssoc "id" (.string start.spanId)
  let span :=
    match start.parentId with
    | some parentId => span.addAssoc "parentId" (.string parentId)
    | none => span
  let span := span.addAssoc "timestamp" (.double start.startTime)
  let span := span.addAssoc "duration"
    (.long ((start.finishTime : Int) - start.startTime))
  let span := span.addAssoc "annotations" (.array [])
  span.addAssoc "binaryAnnotations" (.array [])

def znAddEndpoint (entry : HashTable) (serviceName ipv4 : String)
    (port : Int) : HashTable :=
  let endpoint : HashTable := []
  let endpoint := endpoint.addAssoc "serviceName" (.string serviceName)
  let endpoint := endpoint.addAssoc "ipv4" (.string ipv4)
  let endpoint :=
    if port ≠ 0 then endpoint.addAssoc "port" (.long port) else endpoint
  entry.addAssoc "endpoint" (.array endpoint)

def znAddSpanAnnotation (span : HashTable) (value : String) (timestamp : Nat)
    (pct : ChainInfo) : HashTable :=
  let entry : HashTable := []
  let entry := entry.addAssoc "value" (.string value)
  let entry := entry.addAssoc "timestamp" (.double timestamp)
  let entry := znAddEndpoint entry pct.serviceName pct.ip pct.port
  span.within "annotations" (·.push (.array entry))

def znBannotationEntry (key value serviceName ipv4 : String) (port : Int) :
    HashTable :=
  let entry : HashTable := []
  let entry := entry.addAssoc "key" (.string key)
  let entry := entry.addAssoc "value" (.string value)
  znAddEndpoint entry serviceName ipv4 port

def znAddSpanBannotation (span : HashTable) (ba : Ba) : HashTable :=
  match ba.value, ba.ipv4 with
  | some value, some ipv4 =>
      let span :=
        match span.find (.name "binaryAnnotations") with
        | some _ => span
        | none => span.addAssoc "binaryAnnotations" (.array [])
      span.within "binaryAnnotations"
        (·.push (.array (znBannotationEntry ba.key value ba.serviceName ipv4
          ba.port)))
  | _, _ => span

def znStartSpanBuilder (pct : ChainInfo) (start : SpanStart)
    (anType : AnType) : HashTable :=
  let span := znStartSpan pct start
  match anType with
  | .server =>
      znAddSpanAnnotation ( znAddSpanAnnotation span "sr" start.startTime pct)
        "ss" start.finishTime pct
  | .client =>
      znAddSpanAnnotation ( znAddSpanAnnotation span "cs" start.startTime pct)
        "cr" start.finishTime pct

/-! OpenTracing. -/

def otStartSpan (pct : ChainInfo) (start : SpanStart) : HashTable :=
  let spanContext : HashTable := []
  let spanContext := spanContext.addAssoc "traceID" (.string pct.traceId)
  let spanContext := spanContext.addAssoc "spanID" (.string start.spanId)
  let spanContext :=
    match start.parentId with
    | some parentId =>
        spanContext.addAssoc "parentSpanID" (.string parentId)
    | none => spanContext
  let span : HashTable := []
  let span := span.addAssoc "operationName" (.string start.name)
  let span := span.addAssoc "startTime" (.double start.startTime)
  let span := span.addAssoc "finishTime" (.double start.finishTime)
  let span := span.addAssoc "spanContext" (.array spanContext)
  let span := span.addAssoc "tags" (.array [])
  span.addAssoc "logs" (.array [])

/-- `ot_add_tag`, `ot_add_tag_long` and `ot_add_tag_bool`; the first does
nothing for a null pointer. -/
def otAddTag (span : HashTable) (key : String) (value : Option Zval) :
    HashTable :=
  match value with
  | some value => span.within "tags" (·.addAssoc key value)
  | none => span

def otLog (timestamp : Nat) (fields : List (String × String)) : HashTable :=
  let log : HashTable := []
  let log := log.addAssoc "timestamp" (.double timestamp)
  log.addAssoc "fields" (.array (fields.foldl
    (fun (table : HashTable) field =>
      table.addAssoc field.1 (.string field.2)) []))

def otAddLog (span : HashTable) (timestamp : Nat)
    (fields : List (String × String)) : HashTable :=
  span.within "logs" (·.push (.array (otLog timestamp fields)))

def errorFields (message : String) : List (String × String) :=
  [("event", "error"), ("error.kind", "Exception"), ("message", message)]

def otStartSpanBuilder (pct : ChainInfo) (start : SpanStart)
    (anType : AnType) : HashTable :=
  otAddTag (otStartSpan pct start) "span.kind" (some (.string anType.kind))

def otAddPeer (span : HashTable) (addressKey : String) (ba : Ba) : HashTable :=
  let span := otAddTag span addressKey (ba.ipv4.map .string)
  let span := otAddTag span "peer.port" (some (.long ba.port))
  otAddTag span "peer.service" (some (.string ba.serviceName))

/-- No caller passes a null pointer with `BA_ERROR`. -/
def otSpanAddBa (span : HashTable) (timestamp : Nat) (ba : Ba) : HashTable :=
  match ba.type with
  | .normal => otAddTag span ba.key (ba.value.map .string)
  | .sa => otAddPeer span "peer.ipv4" ba
  | .saHost => otAddPeer span "peer.hostname" ba
  | .saIp => otAddPeer span "peer.ipv4" ba
  | .saDsn => otAddTag span "peer.address" (ba.value.map .string)
  | .path => span
  | .error =>
      otAddLog (otAddTag span "error" (some (.bool true))) timestamp
        (errorFields (ba.value.getD ""))

/-! SkyWalking. -/

def phpCli : Int := 5001

/-- `%d` into an `unsigned int`, which is left alone when there is no number; it
is taken to hold 0 then. -/
def skReadId (text : String) : Int := atoi text % 2 ^ 32

/-- What is printed into `on`, a buffer of 128 bytes. -/
def skOperationName (pct : ChainInfo) (start : SpanStart) : String :=
  pct.serviceName ++ "/" ++ start.name ++ "_" ++ start.spanId

def onSize : Nat := 128

/-- The span of a start whose operation name fits (`SpanBuilder.StartFits`). -/
def skAddSpan (pct : ChainInfo) (start : SpanStart) : HashTable :=
  let span : HashTable := []
  let span := span.addAssoc "si" (.long (skReadId start.spanId))
  let span := span.addAssoc "tv" (.long pct.spanType)
  let span := span.addAssoc "lv" (.long pct.spanLayer)
  let span := span.addAssoc "st" (.double start.startTime)
  let span := span.addAssoc "et" (.double start.finishTime)
  let span := span.addAssoc "ci"
    (.long (if pct.componentId = 0 then phpCli else pct.componentId))
  let span := span.addAssoc "cn" (.string start.name)
  let span := span.addAssoc "on"
    (.string (skOperationName pct start))
  let span := span.addAssoc "ie" (.bool (!pct.hasErrorList))
  let span := span.addAssoc "ps" <|
    match start.parentId with
    | none => .long (-1)
    | some parentId => .long (skReadId parentId)
  let span := span.addAssoc "to" (.array [])
  span.addAssoc "lo" (.array [])

def skPair (key value : String) : HashTable :=
  let pair : HashTable := []
  (pair.addAssoc "k" (.string key)).addAssoc "v" (.string value)

def skAddTag (span : HashTable) (key : String) (value : Option String) :
    HashTable :=
  match value with
  | some value => span.within "to" (·.push (.array (skPair key value)))
  | none => span

def skLog (timestamp : Nat) (fields : List (String × String)) : HashTable :=
  let log : HashTable := []
  let log := log.addAssoc "ti" (.double timestamp)
  log.addAssoc "ld" (.array (fields.foldl
    (fun (table : HashTable) field =>
      table.push (.array (skPair field.1 field.2))) []))

def skAddLog (span : HashTable) (timestamp : Nat)
    (fields : List (String × String)) : HashTable :=
  span.within "lo" (·.push (.array (skLog timestamp fields)))

def skStartSpanBuilder (pct : ChainInfo) (start : SpanStart)
    (anType : AnType) : HashTable :=
  skAddTag (skAddSpan pct start) "span.kind" (some anType.kind)

/-- The value of a tag.  A longer one is copied into a buffer of 128 bytes
without a terminator, and read on into whatever stands behind it. -/
def skCut (residue value : String) : String :=
  if value.length > 128 then copyToField 128 value ++ residue else value

/-- What is printed into `peer_name`, a buffer of 64 bytes.  `%s` prints a null
pointer as "(null)". -/
def Ba.peerName (ba : Ba) : String :=
  ba.ipv4.getD "(null)" ++ ":" ++ printLong ba.port

def peerNameSize : Nat := 64

def skAddPeer (span : HashTable) (addressKey : String) (ba : Ba) : HashTable :=
  let strPort := printLong ba.port
  let span := span.addAssoc "pn" (.string ba.peerName)
  let span := skAddTag span addressKey ba.ipv4
  let span := skAddTag span "peer.port" (some strPort)
  skAddTag span "peer.service" (some ba.serviceName)

/-- The span with an annotation whose peer fits (`SpanBuilder.BasFit`). -/
def skSpanAddBa (residue : String) (span : HashTable) (timestamp : Nat)
    (ba : Ba) : HashTable :=
  match ba.value with
  | none => span
  | some value =>
      let value := skCut residue value
      match ba.type with
      | .normal => skAddTag span ba.key (some value)
      | .sa => skAddPeer span "peer.ipv4" ba
      | .saHost => skAddPeer span "peer.hostname" ba
      | .saIp => skAddPeer span "peer.ipv4" ba
      | .saDsn => skAddTag span "peer.address" (some value)
      | .path => skAddTag span ba.key (some value)
      | .error =>
          let span := skAddTag span "error" (some "true")
          let span := span.addAssoc "ie" (.bool true)
          skAddLog span timestamp (errorFields value)

/-! The builder of an interceptor. -/

/-- `mo_span_builder`, with what stands behind the buffer of a long value. -/
structure SpanBuilder where
  type : SpanFormat
  residue : String

def SpanBuilder.startSpan (psb : SpanBuilder) (pct : ChainInfo)
    (start : SpanStart) (anType : AnType) : HashTable :=
  match psb.type with
  | .zipkin => znStartSpanBuilder pct start anType
  | .opentracing => otStartSpanBuilder pct start anType
  | .skywalking => skStartSpanBuilder pct start anType

def SpanBuilder.spanAddBa (psb : SpanBuilder) (timestamp : Nat)
    (span : HashTable) (ba : Ba) : HashTable :=
  match psb.type with
  | .zipkin => znAddSpanBannotation span ba
  | .opentracing => otSpanAddBa span timestamp ba
  | .skywalking => skSpanAddBa psb.residue span timestamp ba

/-! Only the SkyWalking builder prints into buffers on its stack, and it checks
no length. -/

/-- The operation name and its terminator have room in `on`. -/
def SpanBuilder.StartFits (psb : SpanBuilder) (pct : ChainInfo)
    (start : SpanStart) : Prop :=
  psb.type = .skywalking → (skOperationName pct start).length < onSize

/-- So has every peer in `peer_name`.  It is printed for all annotations that
have a value, whatever their type. -/
def SpanBuilder.BasFit (psb : SpanBuilder) (bas : List Ba) : Prop :=
  psb.type = .skywalking →
    ∀ ba ∈ bas, ba.value.isSome → ba.peerName.length < peerNameSize

instance (psb : SpanBuilder) (pct : ChainInfo) (start : SpanStart) :
    Decidable (psb.StartFits pct start) :=
  inferInstanceAs (Decidable (_ → _))

instance (psb : SpanBuilder) (bas : List Ba) : Decidable (psb.BasFit bas) :=
  inferInstanceAs (Decidable (_ → _))

def SpanBuilder.spanAddBas (psb : SpanBuilder) (timestamp : Nat)
    (span : HashTable) (bas : List Ba) : HashTable :=
  bas.foldl (psb.spanAddBa timestamp) span

/-- The span, or `none` when a buffer is overrun. -/
def SpanBuilder.tryStart (psb : SpanBuilder) (pct : ChainInfo)
    (start : SpanStart) (anType : AnType) : Option HashTable :=
  if psb.StartFits pct start then some (psb.startSpan pct start anType)
  else none

def SpanBuilder.tryAddBas (psb : SpanBuilder) (timestamp : Nat)
    (span : HashTable) (bas : List Ba) : Option HashTable :=
  if psb.BasFit bas then some (psb.spanAddBas timestamp span bas) else none

end Molten.Span
