import Molten.Intercept.Frame

namespace Molten.Intercept

open Molten.Php
open Molten.Span
open Molten.Text

/-! The record callbacks of PDO, redis, memcached and mongodb.  They have no
result when they leave their memory. -/

def Frame.retFalse (frame : Frame) : Bool :=
  match frame.oriRet with
  | some (.bool false) => true
  | _ => false

/-! PDO. -/

/-- `pdo_dbh_t`: a driver may be missing, and so may its name, which has less
than 64 bytes. -/
structure PdoDbh where
  driver : Option (Option String)
  dataSource : Option String

structure PdoStmt where
  queryString : Option String
  dbh : Option PdoDbh

/-- What `errorInfo` returns.  Its message, if there is one, is a string, and
`NULL` when the driver has none. -/
inductive ErrorInfo
  | failed
  | withoutMessage
  | null
  | message (text : String)
  deriving DecidableEq, Repr

structure Pdo where
  hasPdo : Bool
  dbh : Option PdoDbh
  stmt : Option PdoStmt
  errorInfo : ErrorInfo

/-- The first match of `word=([^;\s]+)`; the outer brackets of the pattern are
its delimiters. -/
def pcreCommonMatch (word : String) : List Char → Option String
  | [] => none
  | c :: chars =>
      let found := ((c :: chars).drop word.length).takeWhile
        fun c => c ≠ ';' && !isSpace c
      if word.toList.isPrefixOf (c :: chars) && !found.isEmpty then
        some (String.ofList found)
      else pcreCommonMatch word chars

def analyzeDataSource (pct : ChainInfo) (dbType dataSource : String) :
    List Ba :=
  let dbname := pcreCommonMatch "dbname=" dataSource.toList
  let host := pcreCommonMatch "host=" dataSource.toList
  let port := pcreCommonMatch "port=" dataSource.toList
  let sa : List Ba :=
    match host, port with
    | some host, some port =>
        [⟨"sa", some "true", dbType, some host, atoi port, .sa⟩]
    | _, _ => []
  (dbname.map fun dbname =>
      spanAddBaEx pct "db.instance" (some dbname) .normal).toList ++ sa ++
    if dbname.isNone || host.isNone || port.isNone then
      [spanAddBaEx pct "php.db.data_source" (some dataSource) .saDsn]
    else []

/-- `Z_STRVAL_P` is taken of the message without a look at its type. -/
def errorInfoBas (pct : ChainInfo) (pdo : Pdo) (frame : Frame)
    (unknown : String) (type : BaType) : Option (List Ba) :=
  if frame.retFalse then
    match pdo.errorInfo with
    | .failed => some []
    | .withoutMessage => some [spanAddBaEx pct "error" (some unknown) type]
    | .null => none
    | .message text => some [spanAddBaEx pct "error" (some text) type]
  else some []

def pdoSetException (pct : ChainInfo) (pdo : Pdo)
    (exception : Option Thrown) : List Ba :=
  if pdo.hasPdo then setSpanException pct "PDOException" exception else []

def pdoStatementBas (pct : ChainInfo) (frame : Frame) : List Ba :=
  match frame.args.head? with
  | some (.string statement) =>
      if startsWith frame.function "commit" then []
      else [spanAddBaEx pct "db.statement" (some statement) .normal]
  | _ => []

def pdoDbhBas (pct : ChainInfo) (pdo : Pdo) : List Ba :=
  match pdo.hasPdo, pdo.dbh with
  | true, some dbh =>
      let dbType := (dbh.driver.bind id).getD ""
      let type : List Ba :=
        match dbh.driver with
        | some (some _) => [spanAddBaEx pct "db.type" (some dbType) .normal]
        | _ => []
      let source : List Ba :=
        match dbh.dataSource with
        | some dataSource =>
            if dbType = "" then [] else analyzeDataSource pct dbType dataSource
        | none => []
      type ++ source
  | _, _ => []

def pdoRecord (pit : Interceptor) (pdo : Pdo) (exception : Option Thrown)
    (frame : Frame) : Option HashTable := do
  let pit := pit.withComponent databaseLayer mysqlCn
  let spanName := cutToBuffer 64 ("PDO::" ++ frame.function)
  let errors ← errorInfoBas pit.pct pdo frame "unknown" .normal
  pit.record frame spanName <|
    pdoStatementBas pit.pct frame ++ pdoDbhBas pit.pct pdo ++ errors ++
      pdoSetException pit.pct pdo exception

/-- A handle with a driver has a data source. -/
def pdoStmtBas (pct : ChainInfo) (pdo : Pdo) : List Ba :=
  match pdo.hasPdo, pdo.stmt with
  | true, some stmt =>
      let driver : List Ba :=
        match stmt.dbh with
        | some ⟨some driverName, dataSource⟩ =>
            let dbType := driverName.getD ""
            spanAddBaEx pct "db.type" (some dbType) .normal ::
              analyzeDataSource pct dbType (dataSource.getD "")
        | _ => []
      spanAddBaEx pct "db.statement" stmt.queryString .normal :: driver
  | _, _ => []

def pdoStatementRecord (pit : Interceptor) (pdo : Pdo) (frame : Frame) :
    Option HashTable := do
  let pit := pit.withComponent databaseLayer mysqlCn
  let errors ← errorInfoBas pit.pct pdo frame "unkown" .error
  pit.record frame "PDOStatement::execute" (pdoStmtBas pit.pct pdo ++ errors)

/-! Redis. -/

/-- The results of the methods that are called; `none` when a call fails. -/
structure Redis where
  getHost : Option Zval
  getPort : Option Zval
  getLastError : Option Zval
  hasException : Bool

namespace Redis

def host (redis : Redis) : String :=
  match redis.getHost with
  | some (.string host) => host
  | _ => "unkown"

def port (redis : Redis) : Int :=
  match redis.getPort with
  | some (.long port) => port
  | _ => 0

def lastErrorBas (redis : Redis) (frame : Frame) : List Ba :=
  if frame.retFalse then
    match redis.getLastError with
    | some (.string error) =>
        [⟨"error", some error, "Redis", some redis.host, redis.port, .sa⟩]
    | _ => []
  else []

def exceptionBas (redis : Redis) (pct : ChainInfo)
    (exception : Option Thrown) : List Ba :=
  if redis.hasException then setSpanException pct "redisexception" exception
  else []

end Redis

def redisRecord (pit : Interceptor) (redis : Redis)
    (exception : Option Thrown) (frame : Frame) : Option HashTable :=
  let pit := pit.withComponent cacheLayer jedisCn
  pit.record frame frame.function <|
    [⟨"sa", some "true", "redis", some redis.host, redis.port, .sa⟩,
        spanAddBaEx pit.pct "db.statement"
          (some (pit.convertArgsToString frame)) .normal,
        spanAddBaEx pit.pct "db.type" (some "redis") .normal] ++
      redis.lastErrorBas frame ++ redis.exceptionBas pit.pct exception

/-! Memcached. -/

structure Memcached where
  getResultMessage : Option Zval
  getString : Zval → String
  getLong : Zval → Int

def Memcached.resultBas (memcached : Memcached) (pct : ChainInfo)
    (frame : Frame) : List Ba :=
  if frame.retFalse then
    match memcached.getResultMessage with
    | some (.string message) =>
        [spanAddBaEx pct "error" (some message) .error]
    | some _ => [spanAddBaEx pct "error" (some "unknown") .error]
    | none => []
  else []

def memcachedCommonCall (pit : Interceptor) (memcached : Memcached)
    (frame : Frame) : List Ba :=
  [spanAddBaEx pit.pct "db.statement" (some (pit.convertArgsToString frame))
      .normal,
    spanAddBaEx pit.pct "db.type" (some "memcache") .normal] ++
    memcached.resultBas pit.pct frame

def memcachedRecord (servers : Frame → List Ba) (pit : Interceptor)
    (memcached : Memcached) (frame : Frame) : Option HashTable :=
  let pit := pit.withComponent cacheLayer memcachedCn
  pit.record frame frame.function <|
    servers frame ++ memcachedCommonCall pit memcached frame

def memcachedCommonRecord := memcachedRecord fun _ => []

def memcachedSa (host : String) (port : Int) : Ba :=
  ⟨"sa", some "true", "memcache", some host, port, .sa⟩

def memcachedAddServer (frame : Frame) : List Ba :=
  match frame.args with
  | .string host :: port :: _ =>
      match port with
      | .string port => [memcachedSa host (atoi port)]
      | .long port => [memcachedSa host port]
      | _ => [memcachedSa host 0]
  | _ => []

def memcachedAddServerRecord := memcachedRecord memcachedAddServer

/-- Entries that are not arrays, or too short, are passed over. -/
def Memcached.serverSa (memcached : Memcached) : Zval → List Ba
  | .array ((_, host) :: (_, port) :: _) =>
      [memcachedSa (memcached.getString host) (memcached.getLong port)]
  | _ => []

def memcachedAddServers (memcached : Memcached) (frame : Frame) : List Ba :=
  match frame.args.head? with
  | some (.array servers) =>
      servers.flatMap fun entry => memcached.serverSa entry.2
  | _ => []

def memcachedAddServersRecord (pit : Interceptor) (memcached : Memcached) :=
  memcachedRecord (memcachedAddServers memcached) pit memcached

/-! Mongodb. -/

structure Mongodb where
  /-- `Z_OBJDEBUG_P` -/
  debugInfo : Zval → HashTable
  exception : Option Thrown

/-- What both callbacks do; they name the server in different ways.  Without
arguments there is no span. -/
def mongodbCommon (source : ChainInfo → HashTable → List Ba)
    (pit : Interceptor) (mongodb : Mongodb) (frame : Frame) :
    Option (Option HashTable) :=
  if frame.args.length < 1 then some none
  else do
    let pit := pit.withComponent cacheLayer mongodbCn
    let span ← pit.record frame frame.function <|
      [spanAddBaEx pit.pct "db.statement"
          (some (pit.convertArgsToString frame)) .normal,
        spanAddBaEx pit.pct "db.type" (some "mongodb") .normal] ++
        source pit.pct (mongodb.debugInfo frame.object) ++
        setSpanException pit.pct "Exception" mongodb.exception
    some (some span)

def mongodbUri (pct : ChainInfo) (debugHash : HashTable) : List Ba :=
  match debugHash.find (.name "uri") with
  | some (.string uri) =>
      [spanAddBaEx pct "php.db.source" (some uri) .saDsn]
  | _ => []

def mongodbRecord := mongodbCommon mongodbUri

def mongodbServerSa (_ : ChainInfo) (debugHash : HashTable) : List Ba :=
  match debugHash.find (.name "host"), debugHash.find (.name "port") with
  | some (.string host), some (.long port) =>
      [⟨"sa", some "true", "mongodb", some host, port, .sa⟩]
  | _, _ => []

def mongodbServerRecord := mongodbCommon mongodbServerSa

end Molten.Intercept
