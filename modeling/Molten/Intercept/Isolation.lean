import Molten.Intercept.Capture
import Molten.Intercept.Curl
import Molten.Intercept.Failure
import Molten.Intercept.Mysqli
import Molten.Span.Residue

namespace Molten.Intercept

open Molten.Php
open Molten.Span
open Molten.Text

/-! What one request, or one call, can see of those before it. -/

/-- The record callbacks of mysqli. -/
inductive MysqliRecord
  | connect
  | realConnect
  | construct
  | query
  | ooQuery
  | stmtExeOo
  | stmtPrepareProcedural
  | stmtExeProcedural
  | common
  deriving DecidableEq, Repr

inductive MongodbRecord
  | manager
  | server
  deriving DecidableEq, Repr

/-- A call that may emit a span, with all that its callback is told. -/
inductive SpanCall
  | service (call : ServiceCall) (world : ServiceWorld) (frame : Frame)
  | mysqli (call : MysqliRecord) (world : Mysqli) (frame : Frame)
  | mongodb (call : MongodbRecord) (world : Mongodb) (frame : Frame)
  | captured (call : CapturedCall) (world : CapturedWorld) (frame : Frame)
  | curlExec (info : CurlInfo) (response : Option String) (start : SpanStart)
  | curlMultiRemove (info : CurlInfo) (start : Option SpanStart)
  | main (request : MainRequest) (start : SpanStart)

/-- What the memory happens to hold: behind the buffer of a long text, in the
buffer of a peer, and the address of the request uri. -/
structure Memory where
  residue : String
  buffer : String
  address : Nat

def MysqliRecord.record (call : MysqliRecord) (pit : Interceptor)
    (mysqli : Mysqli) (frame : Frame) : Option HashTable :=
  match call with
  | .connect => mysqliConnectRecord pit mysqli frame
  | .realConnect => mysqliRealConnectRecord pit mysqli frame
  | .construct => mysqliConstructRecord pit mysqli frame
  | .query => mysqliQueryRecord pit mysqli frame
  | .ooQuery => mysqliOoQueryRecord pit mysqli frame
  | .stmtExeOo => mysqliStmtExeOoRecord pit mysqli frame
  | .stmtPrepareProcedural =>
      mysqliStmtPrepareProceduralRecord pit mysqli frame
  | .stmtExeProcedural => mysqliStmtExeProceduralRecord pit mysqli frame
  | .common => mysqliCommonRecord pit frame

def MongodbRecord.source :
    MongodbRecord → ChainInfo → HashTable → List Ba
  | .manager => mongodbUri
  | .server => mongodbServerSa

def MongodbRecord.record (call : MongodbRecord) (pit : Interceptor)
    (mongodb : Mongodb) (frame : Frame) : Option (Option HashTable) :=
  match call with
  | .manager => mongodbRecord pit mongodb frame
  | .server => mongodbServerRecord pit mongodb frame

namespace MysqliRecord

def argsNeeded (call : MysqliRecord) (frame : Frame) : Nat :=
  match call with
  | .connect => 1
  | .realConnect => 2
  | .construct => 1
  | .query => 2
  | .ooQuery => 1
  | .stmtExeOo => if frame.function = "prepare" then 1 else 0
  | .stmtPrepareProcedural => 2
  | .stmtExeProcedural => 0
  | .common => 0

def connectBas (first : Nat) (pct : ChainInfo) (world : Mysqli)
    (frame : Frame) : List Ba :=
  connectSa first frame ++ connectInstance pct first frame ++
    connectFailure pct world

def queryBas (procedural : Bool) (pct : ChainInfo) (world : Mysqli)
    (frame : Frame) : List Ba :=
  dbStatement pct frame procedural ++ dbType pct ++
    dbQueryGetSa pct world frame procedural ++
    mysqliError pct world frame procedural

def prepareBas (procedural : Bool) (pct : ChainInfo) (world : Mysqli)
    (frame : Frame) : List Ba :=
  dbStatement pct frame procedural ++ dbType pct ++
    mysqliStmtGetSa pct world frame procedural ++
    mysqliStmtError pct world frame procedural

def executeBas (procedural : Bool) (pct : ChainInfo) (world : Mysqli)
    (frame : Frame) : List Ba :=
  dbType pct ++ mysqliStmtGetSa pct world frame procedural ++
    mysqliStmtError pct world frame procedural

def bas (call : MysqliRecord) (pct : ChainInfo) (world : Mysqli)
    (frame : Frame) : List Ba :=
  match call with
  | .connect => connectBas 0 pct world frame
  | .realConnect => connectBas 1 pct world frame
  | .construct => connectBas 0 pct world frame
  | .query => queryBas true pct world frame
  | .ooQuery => queryBas false pct world frame
  | .stmtExeOo =>
      if frame.function = "prepare" then prepareBas false pct world frame
      else executeBas false pct world frame
  | .stmtPrepareProcedural => prepareBas true pct world frame
  | .stmtExeProcedural => executeBas true pct world frame
  | .common => dbType pct

end MysqliRecord

namespace SpanCall

/-- The span, if there is one; no result when the callback leaves its
memory. -/
def emit (pit : Interceptor) (memory : Memory) :
    SpanCall → Option (Option HashTable)
  | .service call world frame => (call.record world frame pit).map some
  | .mysqli call world frame =>
      if frame.args.length < call.argsNeeded frame ∨
          pit.Fits frame frame.function (call.bas pit.pct world frame) then
        some (call.record pit world frame)
      else none
  | .mongodb call world frame => call.record pit world frame
  | .captured call world frame =>
      if pit.Fits frame frame.function (call.captured pit frame ++
          call.recorded pit.pct world frame) then
        some (some (call.span pit world frame))
      else none
  | .curlExec info response start =>
      (curlExecSpan pit memory.buffer info response start).map some
  | .curlMultiRemove info start =>
      curlMultiRemoveSpan pit memory.buffer info start
  | .main request start =>
      (mainSpanRecord pit memory.address request start).map some

/-- The layer and the component that the call leaves in `mo_chain_t`, if it
writes them. -/
def stored (type : SpanFormat) : SpanCall → Option (Int × Int)
  | .service call _ _ => some call.component
  | .mysqli _ _ _ => some (databaseLayer, mysqlCn)
  | .mongodb _ _ frame =>
      if frame.args.length < 1 then none else some (cacheLayer, mongodbCn)
  | .captured _ _ _ => none
  | .curlExec _ _ _ => some (httpLayer, httpClientCn)
  | .curlMultiRemove _ start =>
      match type, start with
      | .skywalking, some _ => some (httpLayer, httpClientCn)
      | _, _ => none
  | .main _ _ => none

end SpanCall

/-! The worker. -/

/-- What `mo_chain_t` keeps from one call, and one request, to the next. -/
structure Leftover where
  spanLayer : Int
  componentId : Int
  port : Int
  deriving DecidableEq, Repr

namespace Leftover

def call (type : SpanFormat) (left : Leftover) (call : SpanCall) : Leftover :=
  match call.stored type with
  | some (spanLayer, componentId) => { left with spanLayer, componentId }
  | none => left

/-- A request starts; the port is `SERVER_PORT` where there is one. -/
def start (port : Option Int) (left : Leftover) : Leftover :=
  { left with port := port.getD left.port }

end Leftover

/-- A sampled request; its last call is its main span. -/
structure ServedRequest where
  port : Option Int
  calls : List SpanCall

/-- The earlier requests of a worker, the earlier calls of the current one, and
the memory they leave. -/
structure History where
  requests : List ServedRequest
  calls : List SpanCall
  memory : Memory

def Leftover.request (type : SpanFormat) (left : Leftover)
    (request : ServedRequest) : Leftover :=
  request.calls.foldl (Leftover.call type) (left.start request.port)

def History.leftover (type : SpanFormat) (port : Option Int)
    (history : History) : Leftover :=
  history.calls.foldl (Leftover.call type) <|
    (history.requests.foldl (Leftover.request type) ⟨0, 0, 0⟩).start port

namespace Interceptor

def withLeftover (pit : Interceptor) (left : Leftover) (memory : Memory) :
    Interceptor :=
  { pit with
    pct := { pit.pct with
      spanLayer := left.spanLayer
      componentId := left.componentId
      port := left.port }
    psb := { pit.psb with residue := memory.residue } }

/-- In the worker after this history, in a request with this port. -/
def after (pit : Interceptor) (port : Option Int) (history : History) :
    Interceptor :=
  pit.withLeftover (history.leftover pit.psb.type port) history.memory

end Interceptor

/-- All the earlier calls kept to their memory. -/
def History.Sound (pit : Interceptor) (history : History) : Prop :=
  ∀ call ∈ history.requests.flatMap ServedRequest.calls ++ history.calls,
    (call.emit pit history.memory).isSome

/-- The call keeps to its memory, and its span, under the same ids and at the
same times, is the same whatever came before. -/
def Isolated (pit : Interceptor) (port : Option Int) (call : SpanCall) :
    Prop :=
  ∃ span, ∀ history : History, history.Sound pit →
    call.emit (pit.after port history) history.memory = some span

/-! The record callbacks as one span and its annotations. -/

namespace MysqliRecord

theorem record_eq (call : MysqliRecord) (pit : Interceptor) (world : Mysqli)
    (frame : Frame) :
    call.record pit world frame =
      if frame.args.length < call.argsNeeded frame then none
      else some (recordBas frame frame.function (call.bas pit.pct world frame)
        (pit.withComponent databaseLayer mysqlCn)) := by
  cases call with
  | stmtExeOo =>
      by_cases hprepare : frame.function = "prepare"
      · simp only [record, mysqliStmtExeOoRecord, argsNeeded, bas,
          if_pos hprepare]
        rfl
      · simp only [record, mysqliStmtExeOoRecord, argsNeeded, bas,
          if_neg hprepare]
        rfl
  | _ => rfl

end MysqliRecord

def MongodbRecord.bas (call : MongodbRecord) (world : Mongodb)
    (frame : Frame) (pit : Interceptor) : List Ba :=
  [spanAddBaEx pit.pct "db.statement" (some (pit.convertArgsToString frame))
      .normal,
    spanAddBaEx pit.pct "db.type" (some "mongodb") .normal] ++
    call.source pit.pct (world.debugInfo frame.object) ++
    setSpanException pit.pct "Exception" world.exception

theorem MongodbRecord.record_eq (call : MongodbRecord) (pit : Interceptor)
    (world : Mongodb) (frame : Frame) :
    call.record pit world frame =
      if frame.args.length < 1 then some none
      else ((pit.withComponent cacheLayer mongodbCn).record frame
        frame.function (call.bas world frame pit)).map some := by
  rw [Option.map_eq_bind]
  cases call <;> rfl

/-! What is not the address of a peer comes from the chain. -/

section Under

variable (pct pct' : ChainInfo) (frame : Frame)

theorem under_setSpanException (exceptionCe : String)
    (exception : Option Thrown) :
    (setSpanException pct' exceptionCe exception).map (Ba.under pct) =
      setSpanException pct exceptionCe exception := by
  unfold setSpanException
  split
  · split <;> rfl
  · rfl

theorem under_pdoStatementBas :
    (pdoStatementBas pct' frame).map (Ba.under pct) =
      pdoStatementBas pct frame := by
  unfold pdoStatementBas
  split
  · split <;> rfl
  · rfl

theorem under_analyzeDataSource (dbType dataSource : String) :
    (analyzeDataSource pct' dbType dataSource).map (Ba.under pct) =
      analyzeDataSource pct dbType dataSource := by
  simp only [analyzeDataSource, List.map_append]
  cases pcreCommonMatch "dbname=" dataSource.toList <;>
    cases pcreCommonMatch "host=" dataSource.toList <;>
      cases pcreCommonMatch "port=" dataSource.toList <;> rfl

theorem under_pdoDbhBas (pdo : Pdo) :
    (pdoDbhBas pct' pdo).map (Ba.under pct) = pdoDbhBas pct pdo := by
  unfold pdoDbhBas
  split
  · simp only [List.map_append]
    refine congrArg₂ (· ++ ·) ?_ ?_
    · split <;> rfl
    · split
      · split
        · rfl
        · exact under_analyzeDataSource pct pct' _ _
      · rfl
  · rfl

theorem under_errorInfoBas (pdo : Pdo) (unknown : String) {type : BaType}
    (htype : type = .normal ∨ type = .error) :
    (errorInfoBas pct' pdo frame unknown type).map (List.map (Ba.under pct)) =
      errorInfoBas pct pdo frame unknown type := by
  unfold errorInfoBas
  split
  · obtain rfl | rfl := htype <;> cases pdo.errorInfo <;> rfl
  · rfl

theorem under_pdoSetException (pdo : Pdo) (exception : Option Thrown) :
    (pdoSetException pct' pdo exception).map (Ba.under pct) =
      pdoSetException pct pdo exception := by
  unfold pdoSetException
  split
  · exact under_setSpanException pct pct' _ _
  · rfl

theorem under_pdoStmtBas (pdo : Pdo) :
    (pdoStmtBas pct' pdo).map (Ba.under pct) = pdoStmtBas pct pdo := by
  unfold pdoStmtBas
  split
  · simp only [List.map_cons]
    refine congrArg₂ List.cons rfl ?_
    split
    · exact congrArg₂ List.cons rfl (under_analyzeDataSource pct pct' _ _)
    · rfl
  · rfl

theorem under_lastErrorBas (redis : Redis) :
    (redis.lastErrorBas frame).map (Ba.under pct) =
      redis.lastErrorBas frame := by
  unfold Redis.lastErrorBas
  split
  · split <;> rfl
  · rfl

theorem under_exceptionBas (redis : Redis) (exception : Option Thrown) :
    (redis.exceptionBas pct' exception).map (Ba.under pct) =
      redis.exceptionBas pct exception := by
  unfold Redis.exceptionBas
  split
  · exact under_setSpanException pct pct' _ _
  · rfl

theorem under_resultBas (memcached : Memcached) :
    (memcached.resultBas pct' frame).map (Ba.under pct) =
      memcached.resultBas pct frame := by
  unfold Memcached.resultBas
  split
  · split <;> rfl
  · rfl

theorem under_memcachedAddServer :
    (memcachedAddServer frame).map (Ba.under pct) =
      memcachedAddServer frame := by
  unfold memcachedAddServer
  split
  · split <;> rfl
  · rfl

theorem under_memcachedAddServers (memcached : Memcached) :
    (memcachedAddServers memcached frame).map (Ba.under pct) =
      memcachedAddServers memcached frame := by
  unfold memcachedAddServers
  split
  · rw [List.map_flatMap]
    refine List.flatMap_congr fun entry _ => ?_
    unfold Memcached.serverSa
    split <;> rfl
  · rfl

theorem under_connectSa (first : Nat) :
    (connectSa first frame).map (Ba.under pct) = connectSa first frame := by
  unfold connectSa
  dsimp only
  split
  · split
    · rfl
    · split <;> rfl
  · rfl

theorem under_connectInstance (first : Nat) :
    (connectInstance pct' first frame).map (Ba.under pct) =
      connectInstance pct first frame := by
  unfold connectInstance
  split <;> rfl

theorem under_connectFailure (world : Mysqli) :
    (connectFailure pct' world).map (Ba.under pct) =
      connectFailure pct world := by
  unfold connectFailure
  split
  · split
    · split <;> rfl
    · rfl
  · rfl

theorem under_dbStatement (procedural : Bool) :
    (dbStatement pct' frame procedural).map (Ba.under pct) =
      dbStatement pct frame procedural := by
  unfold dbStatement
  split <;> rfl

theorem under_dbType : (dbType pct').map (Ba.under pct) = dbType pct := rfl

theorem under_getSa (world : Mysqli) (procedural : Bool)
    (connection : Zval → Option Connection) :
    (getSa pct' world frame procedural connection).map (Ba.under pct) =
      getSa pct world frame procedural connection := by
  unfold getSa
  split
  · split
    · split <;> rfl
    · rfl
  · rfl

theorem under_mysqliCommonError (world : Mysqli) (procedural : Bool)
    (errorFunction className : String) :
    (mysqliCommonError pct' world frame procedural errorFunction
        className).map (Ba.under pct) =
      mysqliCommonError pct world frame procedural errorFunction
        className := by
  unfold mysqliCommonError
  dsimp only
  split <;> rfl

theorem under_source (call : MongodbRecord) (debugHash : HashTable) :
    (call.source pct' debugHash).map (Ba.under pct) =
      call.source pct debugHash := by
  cases call with
  | server =>
      simp only [MongodbRecord.source, mongodbServerSa]
      split <;> rfl
  | manager =>
      simp only [MongodbRecord.source, mongodbUri]
      split <;> rfl

theorem MysqliRecord.under_bas (call : MysqliRecord) (world : Mysqli) :
    (call.bas pct' world frame).map (Ba.under pct) =
      call.bas pct world frame := by
  have hconnect : ∀ first,
      (connectBas first pct' world frame).map (Ba.under pct) =
        connectBas first pct world frame := by
    intro first
    simp only [connectBas, List.map_append]
    rw [under_connectSa, under_connectInstance, under_connectFailure]
  have hquery : ∀ procedural,
      (queryBas procedural pct' world frame).map (Ba.under pct) =
        queryBas procedural pct world frame := by
    intro procedural
    simp only [queryBas, List.map_append, dbQueryGetSa, mysqliError]
    rw [under_dbStatement, under_dbType, under_getSa, under_mysqliCommonError]
  have hprepare : ∀ procedural,
      (prepareBas procedural pct' world frame).map (Ba.under pct) =
        prepareBas procedural pct world frame := by
    intro procedural
    simp only [prepareBas, List.map_append, mysqliStmtGetSa, mysqliStmtError]
    rw [under_dbStatement, under_dbType, under_getSa, under_mysqliCommonError]
  have hexecute : ∀ procedural,
      (executeBas procedural pct' world frame).map (Ba.under pct) =
        executeBas procedural pct world frame := by
    intro procedural
    simp only [executeBas, List.map_append, mysqliStmtGetSa, mysqliStmtError]
    rw [under_dbType, under_getSa, under_mysqliCommonError]
  cases call with
  | connect => exact hconnect 0
  | realConnect => exact hconnect 1
  | construct => exact hconnect 0
  | query => exact hquery true
  | ooQuery => exact hquery false
  | stmtPrepareProcedural => exact hprepare true
  | stmtExeProcedural => exact hexecute true
  | common => rfl
  | stmtExeOo =>
      simp only [bas]
      split
      · exact hprepare false
      · exact hexecute false

end Under

section Over

variable {pit pit' : Interceptor} (hrepr : pit'.reprZval = pit.reprZval)
  (frame : Frame)

include hrepr

theorem under_statement :
    (spanAddBaEx pit'.pct "db.statement"
        (some (pit'.convertArgsToString frame)) .normal).under pit.pct =
      spanAddBaEx pit.pct "db.statement"
        (some (pit.convertArgsToString frame)) .normal := by
  rw [Interceptor.convertArgsToString, hrepr]
  rfl

theorem under_memcachedCommonCall (memcached : Memcached) :
    (memcachedCommonCall pit' memcached frame).map (Ba.under pit.pct) =
      memcachedCommonCall pit memcached frame :=
  congrArg₂ List.cons (under_statement hrepr frame)
    (congrArg₂ List.cons rfl (under_resultBas _ _ frame memcached))

theorem ServiceCall.under_bas (call : ServiceCall) (world : ServiceWorld) :
    (call.bas world frame pit').map (List.map (Ba.under pit.pct)) =
      call.bas world frame pit := by
  cases call with
  | pdo =>
      simp only [ServiceCall.bas]
      rw [← under_errorInfoBas pit.pct pit'.pct frame _ _ (.inl rfl)]
      simp only [Option.map_map]
      refine Option.map_congr fun errors _ => ?_
      simp only [Function.comp, List.map_append]
      rw [under_pdoStatementBas, under_pdoDbhBas, under_pdoSetException]
  | pdoStatement =>
      simp only [ServiceCall.bas]
      rw [← under_errorInfoBas pit.pct pit'.pct frame _ _ (.inr rfl)]
      simp only [Option.map_map]
      refine Option.map_congr fun errors _ => ?_
      simp only [Function.comp, List.map_append]
      rw [under_pdoStmtBas]
  | redis =>
      simp only [ServiceCall.bas, Option.map_some, List.map_append]
      rw [under_exceptionBas, under_lastErrorBas, List.map_cons, List.map_cons,
        under_statement hrepr]
      rfl
  | memcachedCommon =>
      exact congrArg some (under_memcachedCommonCall hrepr frame _)
  | memcachedAddServer =>
      simp only [ServiceCall.bas, Option.map_some, List.map_append]
      rw [under_memcachedAddServer, under_memcachedCommonCall hrepr]
  | memcachedAddServers =>
      simp only [ServiceCall.bas, Option.map_some, List.map_append]
      rw [under_memcachedAddServers, under_memcachedCommonCall hrepr]

theorem MongodbRecord.under_bas (call : MongodbRecord) (world : Mongodb) :
    (call.bas world frame pit').map (Ba.under pit.pct) =
      call.bas world frame pit := by
  simp only [MongodbRecord.bas, List.map_append]
  rw [under_source, under_setSpanException, List.map_cons,
    under_statement hrepr]
  rfl

end Over

theorem under_curlBas {pit pit' : Interceptor}
    (htype : pit'.psb.type = pit.psb.type) (info : CurlInfo) :
    (curlBas pit' info).map (Ba.under pit.pct) = curlBas pit info := by
  rw [curlBas, curlBas, htype]
  refine congrArg₂ List.cons rfl (congrArg₂ List.cons ?_ rfl)
  split <;> rfl

theorem under_curlResponse (pct pct' : ChainInfo) (response : Option String) :
    (curlResponse pct' response).map (Ba.under pct) =
      curlResponse pct response := by
  unfold curlResponse
  split
  · split
    · rfl
    · split <;> rfl
  · rfl

/-! Calls that store their layer and component before their span is started. -/

section Stored

variable {pit : Interceptor} {port : Option Int} {call : SpanCall}

theorem sound_fresh (memory : Memory) :
    History.Sound pit ⟨[], [], memory⟩ := fun _ hcall => nomatch hcall

/-- Every memory can be met by a first call. -/
theorem Isolated.emit_eq (h : Isolated pit port call) :
    ∃ span, ∀ memory,
      call.emit (pit.withLeftover ⟨0, 0, port.getD 0⟩ memory) memory =
        some span := by
  obtain ⟨span, hspan⟩ := h
  exact ⟨span, fun memory => hspan ⟨[], [], memory⟩ (sound_fresh memory)⟩

theorem not_isolated_of_none
    (h : ∀ left memory,
      call.emit (pit.withLeftover left memory) memory = none) :
    ¬ Isolated pit port call := by
  intro hisolated
  obtain ⟨span, hspan⟩ := hisolated.emit_eq
  exact Option.some_ne_none _ ((hspan ⟨"", "", 0⟩).symm.trans (h _ _))

theorem isolated_iff_fits {span : HashTable} (timestamp : Nat)
    {bas : List Ba} {fits : Prop} [Decidable fits] (hspan : SkReady span)
    (hemit : ∀ left memory, call.emit (pit.withLeftover left memory) memory =
      if fits then
        some (some ((⟨.skywalking, memory.residue⟩ : SpanBuilder).spanAddBas
          timestamp span bas))
      else none) :
    Isolated pit port call ↔ fits ∧ ∀ ba ∈ bas, ba.Fits := by
  by_cases hfits : fits
  · simp only [if_pos hfits] at hemit
    rw [and_iff_right hfits]
    constructor
    · intro hisolated
      obtain ⟨emitted, heq⟩ := hisolated.emit_eq
      have hempty := heq ⟨"", "", 0⟩
      have hother := heq ⟨"x", "", 0⟩
      rw [hemit] at hempty hother
      exact fits_of_spanAddBas_eq hspan
        (Option.some.inj (Option.some.inj (hempty.trans hother.symm)))
    · intro hbas
      refine ⟨some ((⟨.skywalking, ""⟩ : SpanBuilder).spanAddBas timestamp
        span bas), fun history _ => ?_⟩
      rw [Interceptor.after, hemit, spanAddBas_of_fits rfl hbas]
  · simp only [if_neg hfits] at hemit
    exact iff_of_false (not_isolated_of_none hemit) fun h => hfits h.1

theorem record_over (hsky : pit.psb.type = .skywalking)
    (hip : pit.pct.ip.length ≤ 15) (frame : Frame) (name : String)
    (spanLayer componentId : Int) {bas bas' : List Ba} (left : Leftover)
    (memory : Memory)
    (hself : bas'.map (Ba.under (pit.withLeftover left memory).pct) = bas')
    (hunder : bas'.map (Ba.under pit.pct) = bas) :
    ((pit.withLeftover left memory).withComponent spanLayer
        componentId).record frame name bas' =
      if pit.Fits frame name bas then
        some ((⟨.skywalking, memory.residue⟩ : SpanBuilder).spanAddBas
          frame.exitTime
          ((pit.withComponent spanLayer componentId).startSpanEx frame name)
          bas)
      else none := by
  have hfits : ((pit.withLeftover left memory).withComponent spanLayer
      componentId).Fits frame name bas' ↔ pit.Fits frame name bas :=
    and_congr Iff.rfl (basFit_iff_of_under hip
      (show (pit.withLeftover left memory).pct.ip.length ≤ 15 from hip) rfl
      hself hunder)
  have hshown : bas'.map Ba.shown = bas.map Ba.shown := by
    rw [← hunder, List.map_map]
    exact List.map_congr_left fun ba _ => (ba.shown_under pit.pct).symm
  rw [Interceptor.record, if_congr hfits rfl rfl]
  refine if_congr Iff.rfl (congrArg some ?_) rfl
  obtain ⟨pct, ⟨type, residue⟩, reprZval⟩ := pit
  obtain rfl : type = .skywalking := hsky
  rw [← spanAddBas_shown, ← hshown, spanAddBas_shown]
  rfl

theorem skReady_startSpanEx {pit : Interceptor}
    (hsky : pit.psb.type = .skywalking) (frame : Frame) (name : String) :
    SkReady (pit.startSpanEx frame name) := by
  rw [Interceptor.startSpanEx, SpanBuilder.startSpan, hsky]
  exact (skStartSpanBuilder_view _ _ _).1

theorem isolated_record_iff (hsky : pit.psb.type = .skywalking)
    (hip : pit.pct.ip.length ≤ 15) {frame : Frame} {name : String}
    (spanLayer componentId : Int) (bas : Interceptor → Option (List Ba))
    (hunder : ∀ pit pit' : Interceptor, pit'.reprZval = pit.reprZval →
      (bas pit').map (List.map (Ba.under pit.pct)) = bas pit)
    (hemit : ∀ pit memory, call.emit pit memory =
      ((bas pit).bind ((pit.withComponent spanLayer componentId).record frame
        name)).map some) :
    Isolated pit port call ↔ ∃ recorded, bas pit = some recorded ∧
      pit.Fits frame name recorded ∧ ∀ ba ∈ recorded, ba.Fits := by
  cases hbas : bas pit with
  | none =>
      refine iff_of_false (not_isolated_of_none fun left memory => ?_) (by simp)
      have hnone := hunder pit (pit.withLeftover left memory) rfl
      rw [hbas, Option.map_eq_none_iff] at hnone
      rw [hemit, hnone]
      rfl
  | some recorded =>
      simp only [Option.some.injEq, exists_eq_left']
      refine isolated_iff_fits frame.exitTime (@skReady_startSpanEx
        (pit.withComponent spanLayer componentId) hsky frame name)
        fun left memory => ?_
      obtain ⟨recorded', hbas', hmap⟩ := Option.map_eq_some_iff.mp
        ((hunder pit (pit.withLeftover left memory) rfl).trans hbas)
      have hself := hunder (pit.withLeftover left memory)
        (pit.withLeftover left memory) rfl
      rw [hbas', Option.map_some] at hself
      rw [hemit, hbas', Option.bind_some, record_over hsky hip frame name
        spanLayer componentId left memory (Option.some.inj hself) hmap]
      split <;> rfl

theorem isolated_bas_iff (hsky : pit.psb.type = .skywalking)
    (hip : pit.pct.ip.length ≤ 15) {frame : Frame} {name : String}
    (spanLayer componentId : Int) (bas : Interceptor → List Ba)
    (hunder : ∀ pit pit' : Interceptor, pit'.reprZval = pit.reprZval →
      (bas pit').map (Ba.under pit.pct) = bas pit)
    (hemit : ∀ pit memory, call.emit pit memory =
      ((pit.withComponent spanLayer componentId).record frame name
        (bas pit)).map some) :
    Isolated pit port call ↔
      pit.Fits frame name (bas pit) ∧ ∀ ba ∈ bas pit, ba.Fits := by
  rw [isolated_record_iff hsky hip spanLayer componentId
    (fun pit => some (bas pit))
    (fun _ _ hrepr => congrArg some (hunder _ _ hrepr)) hemit]
  simp

theorem isolated_of_silent
    (h : ∀ pit memory, call.emit pit memory = some none) :
    Isolated pit port call := ⟨none, fun _ _ => h _ _⟩

end Stored

/-! `curl_exec`. -/

section Curl

variable {pit : Interceptor} {port : Option Int} {info : CurlInfo}

/-- The host, and the operation name that shows the url, fit their buffers. -/
def HostFits (pit : Interceptor) (info : CurlInfo) : Prop :=
  ((scanHost info.url).getD "").length < hostSize ∧
    (pit.pct.serviceName ++ "/" ++ info.url).length < onSize

instance (pit : Interceptor) (info : CurlInfo) :
    Decidable (HostFits pit info) := inferInstanceAs (Decidable (_ ∧ _))

def curlNamed (pit : Interceptor) (buffer : String) (info : CurlInfo)
    (span : HashTable) : HashTable :=
  (span.addAssoc "pn" (.string ((scanHost info.url).getD buffer))).addAssoc
    "on" (.string (pit.pct.serviceName ++ "/" ++ info.url))

theorem isPeer_curlBas {ba : Ba} (h : ba ∈ curlBas pit info) :
    ba.isPeer = false := by
  obtain rfl | rfl := List.mem_pair.mp h
  · rfl
  · split <;> rfl

theorem isPeer_curlResponse {pct : ChainInfo} {response : Option String}
    {ba : Ba} (h : ba ∈ curlResponse pct response) : ba.isPeer = false := by
  unfold curlResponse at h
  split at h
  · split at h
    · cases h
    · split at h <;> rw [List.mem_singleton.mp h] <;> rfl
  · cases h

variable (hsky : pit.psb.type = .skywalking) (hip : pit.pct.ip.length ≤ 15)

include hsky hip

theorem buildCurlBannotation_eq (buffer : String) (timestamp : Nat)
    (span : HashTable) :
    buildCurlBannotation pit buffer info timestamp span =
      if HostFits pit info then
        some (pit.psb.spanAddBas timestamp (curlNamed pit buffer info span)
          (curlBas pit info))
      else none := by
  have hbas := basFit_of_not_peer hip (@under_curlBas pit pit rfl info)
    (fun ba hba => isPeer_curlBas hba) pit.psb
  have hpeer : curlPeer pit buffer info span =
      if HostFits pit info then some (curlNamed pit buffer info span)
      else none := by
    rw [curlPeer, hsky]
    rfl
  rw [ buildCurlBannotation, hpeer]
  split
  · exact if_pos hbas
  · rfl

theorem startedCurl_eq (buffer : String) (start : SpanStart) :
    (pit.psb.tryStart pit.pct start .client).bind
        ( buildCurlBannotation pit buffer info start.finishTime) =
      if HostFits pit info ∧ pit.psb.StartFits pit.pct start then
        some (pit.psb.spanAddBas start.finishTime
          (curlNamed pit buffer info (pit.psb.startSpan pit.pct start .client))
          (curlBas pit info))
      else none := by
  rw [SpanBuilder.tryStart]
  by_cases hstart : pit.psb.StartFits pit.pct start
  · rw [if_pos hstart, Option.bind_some, buildCurlBannotation_eq hsky hip]
    exact if_congr (and_iff_left hstart).symm rfl rfl
  · rw [if_neg hstart, if_neg fun h => hstart h.2, Option.bind_none]

theorem curlExecSpan_eq (buffer : String) (response : Option String)
    (start : SpanStart) :
    curlExecSpan pit buffer info response start =
      if HostFits pit info ∧
          pit.psb.StartFits pit.pct { start with name := "php_curl" } then
        some (pit.psb.spanAddBas start.finishTime
          (curlNamed pit buffer info
            (pit.psb.startSpan (pit.withComponent httpLayer httpClientCn).pct
              { start with name := "php_curl" } .client))
          (curlBas pit info ++ curlResponse pit.pct response))
      else none := by
  have hresponse := basFit_of_not_peer hip
    (under_curlResponse pit.pct pit.pct response)
    (fun ba hba => isPeer_curlResponse hba) pit.psb
  have hstarted := @startedCurl_eq (pit.withComponent httpLayer httpClientCn)
    info hsky hip buffer { start with name := "php_curl" }
  have hcurl : curlExecSpan pit buffer info response start =
      (((pit.withComponent httpLayer httpClientCn).psb.tryStart
          (pit.withComponent httpLayer httpClientCn).pct
          { start with name := "php_curl" } .client).bind
        ( buildCurlBannotation (pit.withComponent httpLayer httpClientCn) buffer
          info start.finishTime)).bind fun span =>
            pit.psb.tryAddBas start.finishTime span
              (curlResponse pit.pct response) := by
    rw [Option.bind_assoc]
    rfl
  rw [hcurl, hstarted]
  refine (apply_ite (Option.bind · _) _ _ _).trans (if_congr Iff.rfl ?_ rfl)
  rw [Option.bind_some, SpanBuilder.tryAddBas, if_pos hresponse,
    SpanBuilder.spanAddBas, SpanBuilder.spanAddBas, SpanBuilder.spanAddBas,
    List.foldl_append]
  rfl

end Curl

section CurlExec

variable {pit : Interceptor} {port : Option Int} {info : CurlInfo}
  {response : Option String} {start : SpanStart}

theorem skReady_curlNamed (buffer : String) {span : HashTable}
    (hspan : SkReady span) : SkReady (curlNamed pit buffer info span) :=
  (hspan.addAssoc "pn" (by decide) (by decide) _).addAssoc "on" (by decide)
    (by decide) _

theorem find_curlNamed (buffer : String) (span : HashTable) :
    (curlNamed pit buffer info span).find (.name "pn") =
        some (.string ((scanHost info.url).getD buffer)) ∧
      (curlNamed pit buffer info span).find (.name "lv") =
        span.find (.name "lv") := by
  constructor
  · rw [curlNamed, HashTable.find_addAssoc_of_ne (by decide),
      HashTable.find_addAssoc_self]
  · rw [curlNamed, HashTable.find_addAssoc_of_ne (by decide),
      HashTable.find_addAssoc_of_ne (by decide)]

def curlStart (pit : Interceptor) (start : SpanStart) : HashTable :=
  pit.psb.startSpan (pit.withComponent httpLayer httpClientCn).pct
    { start with name := "php_curl" } .client

/-- What is printed for `curl_exec` fits. -/
def CurlFits (pit : Interceptor) (info : CurlInfo) (start : SpanStart) :
    Prop :=
  HostFits pit info ∧
    pit.psb.StartFits pit.pct { start with name := "php_curl" }

instance (pit : Interceptor) (info : CurlInfo) (start : SpanStart) :
    Decidable (CurlFits pit info start) := inferInstanceAs (Decidable (_ ∧ _))

theorem skReady_curlStart (hsky : pit.psb.type = .skywalking) :
    SkReady (curlStart pit start) := by
  rw [curlStart, SpanBuilder.startSpan, hsky]
  exact (skStartSpanBuilder_view _ _ _).1

theorem emit_curlExec (hsky : pit.psb.type = .skywalking)
    (hip : pit.pct.ip.length ≤ 15) (left : Leftover) (memory : Memory) :
    (SpanCall.curlExec info response start).emit (pit.withLeftover left memory)
        memory =
      if CurlFits pit info start then
        some (some ((⟨.skywalking, memory.residue⟩ : SpanBuilder).spanAddBas
          start.finishTime
          (curlNamed pit memory.buffer info (curlStart pit start))
          (curlBas pit info ++ curlResponse pit.pct response)))
      else none := by
  have hshown : (curlBas (pit.withLeftover left memory) info ++
      curlResponse (pit.withLeftover left memory).pct response).map Ba.shown =
        (curlBas pit info ++ curlResponse pit.pct response).map Ba.shown := by
    rw [← @under_curlBas pit (pit.withLeftover left memory) rfl,
      ← under_curlResponse pit.pct (pit.withLeftover left memory).pct,
      ← List.map_append, List.map_map]
    exact List.map_congr_left fun ba _ => (ba.shown_under pit.pct).symm
  rw [SpanCall.emit, @curlExecSpan_eq (pit.withLeftover left memory) info hsky
    hip]
  refine (apply_ite (Option.map some) _ _ _).trans (if_congr Iff.rfl ?_ rfl)
  rw [Option.map_some]
  refine congrArg (some ∘ some) ?_
  obtain ⟨pct, ⟨type, residue⟩, reprZval⟩ := pit
  obtain rfl : type = .skywalking := hsky
  rw [← spanAddBas_shown, ← hshown, spanAddBas_shown]
  rfl

theorem isolated_curlExec_iff (hsky : pit.psb.type = .skywalking)
    (hip : pit.pct.ip.length ≤ 15) :
    Isolated pit port (.curlExec info response start) ↔
      (scanHost info.url).isSome ∧ CurlFits pit info start ∧
        ∀ ba ∈ curlBas pit info ++ curlResponse pit.pct response, ba.Fits := by
  cases hscan : scanHost info.url with
  | some host =>
      have hnamed : ∀ buffer, curlNamed pit buffer info (curlStart pit start) =
          curlNamed pit "" info (curlStart pit start) := by
        intro buffer
        rw [curlNamed, curlNamed, hscan]
        rfl
      rw [Option.isSome_some, eq_self, true_and]
      exact isolated_iff_fits start.finishTime
        (skReady_curlNamed "" (skReady_curlStart hsky)) fun left memory => by
          rw [emit_curlExec hsky hip, hnamed]
  | none =>
      refine iff_of_false (fun hisolated => ?_) (by simp)
      obtain ⟨span, heq⟩ := hisolated.emit_eq
      have hempty := heq ⟨"", "", 0⟩
      have hother := heq ⟨"", "x", 0⟩
      rw [emit_curlExec hsky hip] at hempty hother
      obtain ⟨-, hempty⟩ := Option.ite_none_right_eq_some.mp hempty
      obtain ⟨-, hother⟩ := Option.ite_none_right_eq_some.mp hother
      have hspan := Option.some.inj
        (Option.some.inj (hempty.trans hother.symm))
      have hpn := congrArg (HashTable.find (.name "pn")) hspan
      have hpeer : ∀ ba ∈ curlBas pit info ++ curlResponse pit.pct response,
          ba.isPeer = false := fun ba hba =>
        (List.mem_append.mp hba).elim isPeer_curlBas isPeer_curlResponse
      rw [find_spanAddBas_of_ne (by decide) (.inr hpeer),
        find_spanAddBas_of_ne (by decide) (.inr hpeer), (find_curlNamed _ _).1,
        (find_curlNamed _ _).1, hscan] at hpn
      exact absurd (Zval.string.inj (Option.some.inj hpn)) (by decide)

end CurlExec

/-! Calls that show the layer of whatever was recorded before. -/

section Layer

variable {psb : SpanBuilder} (hsky : psb.type = .skywalking)

include hsky

theorem name_lt_of_startFits {pct : ChainInfo} {start : SpanStart}
    (h : psb.StartFits pct start) : pct.serviceName.length + 2 < onSize := by
  have hlength := h hsky
  simp only [skOperationName, String.length_append] at hlength
  have hslash : "/".length = 1 := rfl
  have hlow : "_".length = 1 := rfl
  omega

theorem find_lv_startSpan (pct : ChainInfo) (start : SpanStart)
    (anType : AnType) :
    (psb.startSpan pct start anType).find (.name "lv") =
      some (.long pct.spanLayer) := by
  rw [SpanBuilder.startSpan, hsky]
  exact find_skAddTag_of_ne (by decide) _ _ _

theorem of_tryStart {pct : ChainInfo} {start : SpanStart} {anType : AnType}
    {span : HashTable} (h : psb.tryStart pct start anType = some span) :
    pct.serviceName.length + 2 < onSize ∧
      span.find (.name "lv") = some (.long pct.spanLayer) := by
  obtain ⟨hfits, heq⟩ := Option.ite_none_right_eq_some.mp h
  obtain rfl := Option.some.inj heq
  exact ⟨name_lt_of_startFits hsky hfits, find_lv_startSpan hsky _ _ _⟩

theorem find_lv_spanAddBas (timestamp : Nat) (span : HashTable)
    (bas : List Ba) :
    (psb.spanAddBas timestamp span bas).find (.name "lv") =
      span.find (.name "lv") := by
  obtain ⟨type, residue⟩ := psb
  obtain rfl : type = .skywalking := hsky
  exact find_spanAddBas_of_ne (by decide) (.inl (by decide)) _ _ _

theorem find_lv_tryAddBas {timestamp : Nat} {span span' : HashTable}
    {bas : List Ba} (h : psb.tryAddBas timestamp span bas = some span') :
    span'.find (.name "lv") = span.find (.name "lv") := by
  obtain ⟨-, heq⟩ := Option.ite_none_right_eq_some.mp h
  obtain rfl := Option.some.inj heq
  exact find_lv_spanAddBas hsky _ _ _

end Layer

def silentMysqli : Mysqli where
  connectErrno := none
  connectError := none
  call := fun _ _ => none
  hasClass := fun _ => false
  readProperty := fun _ _ _ => .null
  linkConnection := fun _ => none
  stmtConnection := fun _ => none
  hasMysqlnd := false

/-- A call of mysqli, whose name is not longer than any other. -/
def plainCall : SpanCall :=
  .mysqli .common silentMysqli ⟨"", .null, [], none, 0, 0, "", none⟩

section Kept

variable {pit : Interceptor} (hsky : pit.psb.type = .skywalking)
  (hip : pit.pct.ip.length ≤ 15) (port : Option Int)

include hip in
theorem sound_plain (hname : pit.pct.serviceName.length + 2 < onSize)
    (memory : Memory) : History.Sound pit ⟨[], [plainCall], memory⟩ := by
  intro call hcall
  obtain rfl := List.mem_singleton.mp hcall
  have hbas : pit.psb.BasFit (dbType pit.pct) :=
    basFit_of_not_peer hip (under_dbType _ _)
      (fun ba hba => by rw [List.mem_singleton.mp hba]; rfl) _
  have hstart : pit.psb.StartFits pit.pct ⟨"", "", none, 0, 0⟩ := by
    intro _
    simp only [skOperationName, String.length_append]
    exact hname
  rw [plainCall, SpanCall.emit, if_pos (.inr ⟨hstart, hbas⟩)]
  rfl

include hip

/-- The layer is told apart by such a call. -/
theorem not_isolated_of_layer {call : SpanCall}
    (hlayer : ∀ left memory emitted,
      call.emit (pit.withLeftover left memory) memory = some emitted →
      ∃ span, emitted = some span ∧
        pit.pct.serviceName.length + 2 < onSize ∧
        span.find (.name "lv") = some (.long left.spanLayer)) :
    ¬ Isolated pit port call := by
  rintro ⟨emitted, hemitted⟩
  obtain ⟨span, rfl, hname, hlv⟩ := hlayer _ _ _
    (hemitted ⟨[], [], "", "", 0⟩ (sound_fresh _))
  obtain ⟨span', hspan, -, hlv'⟩ := hlayer _ _ _
    (hemitted ⟨[], [plainCall], "", "", 0⟩ (sound_plain hip hname _))
  obtain rfl := Option.some.inj hspan
  have hlayers := Zval.long.inj (Option.some.inj (hlv.symm.trans hlv'))
  exact absurd hlayers (by
    show (0 : Int) ≠ databaseLayer
    decide)

include hsky

theorem not_isolated_captured (call : CapturedCall) (world : CapturedWorld)
    (frame : Frame) : ¬ Isolated pit port (.captured call world frame) := by
  refine not_isolated_of_layer hip port fun left memory emitted h => ?_
  obtain ⟨hfits, heq⟩ := Option.ite_none_right_eq_some.mp h
  obtain rfl := Option.some.inj heq
  refine ⟨_, rfl, @name_lt_of_startFits pit.psb hsky _ _ hfits.1, ?_⟩
  have hover : (pit.withLeftover left memory).psb.type = .skywalking := hsky
  have hpsb : (pit.withLeftover left memory).psb.type ≠ .zipkin := by
    rw [hover]
    decide
  rw [CapturedCall.span, recordCaptured_eq_annotate hpsb frame
    fun ba hba => (CapturedCall.isNormal_captured hba).1]
  exact (find_lv_spanAddBas hover _ _ _).trans (find_lv_startSpan hover _ _ _)

theorem isolated_curlMultiRemove_iff (info : CurlInfo)
    (start : Option SpanStart) :
    Isolated pit port (.curlMultiRemove info start) ↔ start = none := by
  cases start with
  | none => exact iff_of_true (isolated_of_silent fun _ _ => rfl) rfl
  | some start =>
      refine iff_of_false (not_isolated_of_layer hip port
        fun left memory emitted h => ?_) (Option.some_ne_none _)
      simp only [SpanCall.emit, curlMultiRemoveSpan, Option.bind_eq_bind,
        Option.bind_eq_some_iff] at h
      obtain ⟨started, hstart, span, hspan, heq⟩ := h
      obtain rfl := Option.some.inj heq
      have hover : (pit.withLeftover left memory).psb.type = .skywalking :=
        hsky
      obtain ⟨hname, hlv⟩ := of_tryStart hover hstart
      rw [buildCurlBannotation_eq hover
        (show (pit.withLeftover left memory).pct.ip.length ≤ 15 from hip)]
        at hspan
      obtain ⟨-, heq⟩ := Option.ite_none_right_eq_some.mp hspan
      obtain rfl := Option.some.inj heq
      exact ⟨_, rfl, hname, (find_lv_spanAddBas hover _ _ _).trans
        ((find_curlNamed _ _).2.trans hlv)⟩

omit hip in
theorem find_lv_addUrl {request : MainRequest} {address timestamp : Nat}
    {span span' : HashTable}
    (h : request.addUrl pit address timestamp span = some span') :
    span'.find (.name "lv") = span.find (.name "lv") := by
  unfold MainRequest.addUrl at h
  split at h
  · rw [hsky] at h
    rw [find_lv_tryAddBas hsky h, HashTable.find_addAssoc_of_ne (by decide)]
  · rw [Option.some.inj h]

theorem not_isolated_main (request : MainRequest) (start : SpanStart) :
    ¬ Isolated pit port (.main request start) := by
  refine not_isolated_of_layer hip port fun left memory emitted h => ?_
  obtain ⟨span, hspan, rfl⟩ := Option.map_eq_some_iff.mp h
  simp only [mainSpanRecord, Option.bind_eq_bind,
    Option.bind_eq_some_iff] at hspan
  obtain ⟨started, hstart, annotated, hurl, hbas⟩ := hspan
  obtain ⟨-, hbas⟩ := Option.ite_none_right_eq_some.mp hbas
  have hover : (pit.withLeftover left memory).psb.type = .skywalking := hsky
  obtain ⟨hname, hlv⟩ := of_tryStart hover hstart
  refine ⟨_, rfl, hname, ?_⟩
  rw [find_lv_tryAddBas hover hbas]
  exact (find_lv_addUrl hover hurl).trans hlv

theorem isolated_service_iff (call : ServiceCall) (world : ServiceWorld)
    (frame : Frame) :
    Isolated pit port (.service call world frame) ↔
      ∃ bas, call.bas world frame pit = some bas ∧
        pit.Fits frame (call.spanName frame) bas ∧ ∀ ba ∈ bas, ba.Fits :=
  isolated_record_iff hsky hip _ _ (call.bas world frame)
    (fun _ _ hrepr => call.under_bas hrepr frame world)
    fun pit _ => congrArg (Option.map some) (call.record_eq world frame pit)

theorem isolated_mysqli_iff (call : MysqliRecord) (world : Mysqli)
    (frame : Frame) :
    Isolated pit port (.mysqli call world frame) ↔
      frame.args.length < call.argsNeeded frame ∨
        pit.Fits frame frame.function (call.bas pit.pct world frame) ∧
          ∀ ba ∈ call.bas pit.pct world frame, ba.Fits := by
  by_cases hargs : frame.args.length < call.argsNeeded frame
  · refine iff_of_true (isolated_of_silent fun pit _ => ?_) (.inl hargs)
    rw [SpanCall.emit, if_pos (.inl hargs), call.record_eq pit world frame,
      if_pos hargs]
  · rw [or_iff_right hargs]
    refine isolated_bas_iff hsky hip databaseLayer mysqlCn
      (fun pit => call.bas pit.pct world frame)
      (fun _ _ _ => call.under_bas _ _ frame world) fun pit _ => ?_
    have hrecord := (call.record_eq pit world frame).trans (if_neg hargs)
    rw [SpanCall.emit, hrecord, Interceptor.record]
    by_cases hfits : (pit.withComponent databaseLayer mysqlCn).Fits frame
      frame.function (call.bas pit.pct world frame)
    · rw [if_pos (.inr hfits), if_pos hfits]
      rfl
    · rw [if_neg hfits]
      exact if_neg (not_or.mpr ⟨hargs, hfits⟩)

theorem isolated_mongodb_iff (call : MongodbRecord) (world : Mongodb)
    (frame : Frame) :
    Isolated pit port (.mongodb call world frame) ↔
      frame.args.length < 1 ∨
        pit.Fits frame frame.function (call.bas world frame pit) ∧
          ∀ ba ∈ call.bas world frame pit, ba.Fits := by
  by_cases hargs : frame.args.length < 1
  · refine iff_of_true (isolated_of_silent fun pit _ => ?_) (.inl hargs)
    exact (call.record_eq pit world frame).trans (if_pos hargs)
  · rw [or_iff_right hargs]
    exact isolated_bas_iff hsky hip _ _ (call.bas world frame)
      (fun _ _ hrepr => call.under_bas hrepr frame world)
      fun pit _ => (call.record_eq pit world frame).trans (if_neg hargs)

end Kept

/-- The call stores its layer and component before its span is started, what is
printed for it fits the buffers, its texts end within theirs, and its host is
read off its url; or it emits nothing. -/
def SpanCall.SelfContained (pit : Interceptor) : SpanCall → Prop
  | .service call world frame =>
      ∃ bas, call.bas world frame pit = some bas ∧
        pit.Fits frame (call.spanName frame) bas ∧ ∀ ba ∈ bas, ba.Fits
  | .mysqli call world frame =>
      frame.args.length < call.argsNeeded frame ∨
        pit.Fits frame frame.function (call.bas pit.pct world frame) ∧
          ∀ ba ∈ call.bas pit.pct world frame, ba.Fits
  | .mongodb call world frame =>
      frame.args.length < 1 ∨
        pit.Fits frame frame.function (call.bas world frame pit) ∧
          ∀ ba ∈ call.bas world frame pit, ba.Fits
  | .captured _ _ _ => False
  | .curlExec info response start =>
      (scanHost info.url).isSome ∧ CurlFits pit info start ∧
        ∀ ba ∈ curlBas pit info ++ curlResponse pit.pct response, ba.Fits
  | .curlMultiRemove _ start => start = none
  | .main _ _ => False

def pdoExecCall : SpanCall := .service .pdo failedService pdoExecFrame

def skyInterceptor : Interceptor where
  pct := ⟨"default", "00000000000000a1", "127.0.0.1", 0, 1, 0, 0, true⟩
  psb := ⟨.skywalking, ""⟩
  reprZval := fun _ => ""

def guzzleCall : SpanCall :=
  .captured .guzzleRequest answeredWorld guzzleFrame

def freshHistory : History := ⟨[], [], "", "", 0⟩

def queriedHistory : History := ⟨[], [pdoExecCall], "", "", 0⟩

end Molten.Intercept
