import Molten.Intercept.Frame

namespace Molten.Intercept

open Molten.Php
open Molten.Span
open Molten.Text

/-! The record callbacks of mysqli. -/

structure Connection where
  hostname : Option String
  port : Int
  connectOrSelectDb : Option String

/-- What mysqli answers while a call is recorded.  A call of a function is
`none` when it fails, and so is a connection that cannot be fetched. -/
structure Mysqli where
  connectErrno : Option Zval
  connectError : Option Zval
  call : String → Zval → Option Zval
  hasClass : String → Bool
  readProperty : String → Zval → String → Zval
  linkConnection : Zval → Option Connection
  stmtConnection : Zval → Option Connection
  hasMysqlnd : Bool

def connectSa (first : Nat) (frame : Frame) : List Ba :=
  let sa (host : String) (port : Int) : List Ba :=
    [⟨"sa", some "true", "mysql", some host, port, .sa⟩]
  match frame.args[first]? with
  | some (.string host) =>
      if frame.args.length < first + 5 then sa host 3306
      else
        match frame.args[first + 4]? with
        | some (.long port) => sa host port
        | some (.string port) => sa host (atoi port)
        | _ => []
  | _ => []

def connectInstance (pct : ChainInfo) (first : Nat) (frame : Frame) :
    List Ba :=
  match frame.args[first + 3]? with
  | some (.string dbname) =>
      [spanAddBaEx pct "db.instance" (some dbname) .normal]
  | _ => []

def connectFailure (pct : ChainInfo) (mysqli : Mysqli) : List Ba :=
  match mysqli.connectErrno with
  | some (.long errno) =>
      if errno > 0 then
        match mysqli.connectError with
        | some (.string error) => [spanAddBaEx pct "error" (some error) .error]
        | _ => []
      else []
  | _ => []

/-- The record of a connection call whose host is the argument `first`. -/
def connectRecord (first : Nat) (pit : Interceptor) (mysqli : Mysqli)
    (frame : Frame) : Option HashTable :=
  if frame.args.length < first + 1 then none
  else
    some <| pit.annotate frame (pit.buildComRecord frame) <|
      connectSa first frame ++ connectInstance pit.pct first frame ++
        connectFailure pit.pct mysqli

def mysqliConnectCommonRecord := connectRecord 0

def mysqliConnectRecord (pit : Interceptor) :=
  mysqliConnectCommonRecord (pit.withComponent databaseLayer mysqlCn)

def mysqliConstructRecord (pit : Interceptor) :=
  mysqliConnectCommonRecord (pit.withComponent databaseLayer mysqlCn)

def mysqliRealConnectRecord (pit : Interceptor) :=
  connectRecord 1 (pit.withComponent databaseLayer mysqlCn)

/-! The error of a link or a statement. -/

def errorText : Zval → Option String
  | .string text => if text.length > 0 then some text else none
  | _ => none

def mysqliCommonError (pct : ChainInfo) (mysqli : Mysqli) (frame : Frame)
    (procedural : Bool) (errorFunction className : String) : List Ba :=
  let result : Option String :=
    if procedural then
      match frame.args.head? with
      | some (.resource handle) =>
          (mysqli.call errorFunction (.resource handle)).bind errorText
      | _ => none
    else if mysqli.hasClass className then
      errorText (mysqli.readProperty className frame.object "error")
    else none
  match result with
  | some error => [spanAddBaEx pct "error" (some error) .error]
  | none => []

def mysqliError (pct : ChainInfo) (mysqli : Mysqli) (frame : Frame)
    (procedural : Bool) : List Ba :=
  mysqliCommonError pct mysqli frame procedural "mysqli_error" "mysqli"

def mysqliStmtError (pct : ChainInfo) (mysqli : Mysqli) (frame : Frame)
    (procedural : Bool) : List Ba :=
  mysqliCommonError pct mysqli frame procedural "mysqli_stmt_error"
    "mysqli_stmt"

def getSa (pct : ChainInfo) (mysqli : Mysqli) (frame : Frame)
    (procedural : Bool) (connection : Zval → Option Connection) : List Ba :=
  if mysqli.hasMysqlnd then
    match if procedural then frame.args.head? else some frame.object with
    | some (.object handle) =>
        match connection (.object handle) with
        | some data =>
            [⟨"sa", some "true", "mysql", data.hostname, data.port, .sa⟩,
              spanAddBaEx pct "db.instance" data.connectOrSelectDb .normal]
        | none => []
    | _ => []
  else []

def dbQueryGetSa (pct : ChainInfo) (mysqli : Mysqli) (frame : Frame)
    (procedural : Bool) : List Ba :=
  getSa pct mysqli frame procedural mysqli.linkConnection

def mysqliStmtGetSa (pct : ChainInfo) (mysqli : Mysqli) (frame : Frame)
    (procedural : Bool) : List Ba :=
  getSa pct mysqli frame procedural mysqli.stmtConnection

/-! Queries and statements. -/

def sqlIndex (procedural : Bool) : Nat :=
  if procedural then 1 else 0

def dbStatement (pct : ChainInfo) (frame : Frame) (procedural : Bool) :
    List Ba :=
  match frame.args[sqlIndex procedural]? with
  | some (.string sql) => [spanAddBaEx pct "db.statement" (some sql) .normal]
  | _ => []

def dbType (pct : ChainInfo) : List Ba :=
  [spanAddBaEx pct "db.type" (some "mysql") .normal]

def dbQueryRecord (pit : Interceptor) (mysqli : Mysqli) (frame : Frame)
    (procedural : Bool) : Option HashTable :=
  if frame.args.length < sqlIndex procedural + 1 then none
  else
    some <| pit.annotate frame (pit.buildComRecord frame) <|
      dbStatement pit.pct frame procedural ++ dbType pit.pct ++
        dbQueryGetSa pit.pct mysqli frame procedural ++
        mysqliError pit.pct mysqli frame procedural

def mysqliQueryRecord (pit : Interceptor) (mysqli : Mysqli) (frame : Frame) :=
  dbQueryRecord (pit.withComponent databaseLayer mysqlCn) mysqli frame true

def mysqliOoQueryRecord (pit : Interceptor) (mysqli : Mysqli)
    (frame : Frame) :=
  dbQueryRecord (pit.withComponent databaseLayer mysqlCn) mysqli frame false

def mysqliStmtPrepareCommonRecord (pit : Interceptor) (mysqli : Mysqli)
    (frame : Frame) (procedural : Bool) : Option HashTable :=
  if frame.args.length < sqlIndex procedural + 1 then none
  else
    some <| pit.annotate frame (pit.buildComRecord frame) <|
      dbStatement pit.pct frame procedural ++ dbType pit.pct ++
        mysqliStmtGetSa pit.pct mysqli frame procedural ++
        mysqliStmtError pit.pct mysqli frame procedural

def mysqliStmtExeCommonRecord (pit : Interceptor) (mysqli : Mysqli)
    (frame : Frame) (procedural : Bool) : Option HashTable :=
  some <| pit.annotate frame (pit.buildComRecord frame) <|
    dbType pit.pct ++ mysqliStmtGetSa pit.pct mysqli frame procedural ++
      mysqliStmtError pit.pct mysqli frame procedural

def mysqliStmtExeOoRecord (pit : Interceptor) (mysqli : Mysqli)
    (frame : Frame) : Option HashTable :=
  let pit := pit.withComponent databaseLayer mysqlCn
  if frame.function = "prepare" then
    mysqliStmtPrepareCommonRecord pit mysqli frame false
  else mysqliStmtExeCommonRecord pit mysqli frame false

def mysqliStmtPrepareProceduralRecord (pit : Interceptor) (mysqli : Mysqli)
    (frame : Frame) :=
  mysqliStmtPrepareCommonRecord (pit.withComponent databaseLayer mysqlCn)
    mysqli frame true

def mysqliStmtExeProceduralRecord (pit : Interceptor) (mysqli : Mysqli)
    (frame : Frame) :=
  mysqliStmtExeCommonRecord (pit.withComponent databaseLayer mysqlCn)
    mysqli frame true

def mysqliCommonRecord (pit : Interceptor) (frame : Frame) :
    Option HashTable :=
  let pit := pit.withComponent databaseLayer mysqlCn
  some (pit.annotate frame (pit.buildComRecord frame) (dbType pit.pct))

/-! The two forms of a call. -/

inductive MysqliCall
  | connect
  | realConnect
  | query
  | prepare
  | stmtPrepare
  | stmtExecute
  deriving DecidableEq, Repr

namespace MysqliCall

def proceduralName : MysqliCall → String
  | .connect => "mysqli_connect"
  | .realConnect => "mysqli_real_connect"
  | .query => "mysqli_query"
  | .prepare => "mysqli_prepare"
  | .stmtPrepare => "mysqli_stmt_prepare"
  | .stmtExecute => "mysqli_stmt_execute"

def methodName : MysqliCall → String
  | .connect => "__construct"
  | .realConnect => "real_connect"
  | .query => "query"
  | .prepare => "prepare"
  | .stmtPrepare => "prepare"
  | .stmtExecute => "execute"

def proceduralRecord :
    MysqliCall → Interceptor → Mysqli → Frame → Option HashTable
  | .connect => mysqliConnectRecord
  | .realConnect => mysqliRealConnectRecord
  | .query => mysqliQueryRecord
  | .prepare => mysqliQueryRecord
  | .stmtPrepare => mysqliStmtPrepareProceduralRecord
  | .stmtExecute => mysqliStmtExeProceduralRecord

def methodRecord :
    MysqliCall → Interceptor → Mysqli → Frame → Option HashTable
  | .connect => mysqliConstructRecord
  | .realConnect => mysqliConstructRecord
  | .query => mysqliOoQueryRecord
  | .prepare => mysqliOoQueryRecord
  | .stmtPrepare => mysqliStmtExeOoRecord
  | .stmtExecute => mysqliStmtExeOoRecord

def methodFrame (call : MysqliCall) (object : Nat) (args : List Zval)
    (frame : Frame) : Frame :=
  { frame with
    function := call.methodName
    object := .object object
    args := args }

/-- The same call as a function: the object is the first argument, except for
`mysqli_connect`. -/
def proceduralFrame (call : MysqliCall) (object : Nat) (args : List Zval)
    (frame : Frame) : Frame :=
  { frame with
    function := call.proceduralName
    object := .null
    args :=
      match call with
      | .connect => args
      | _ => .object object :: args }

/-- Both forms, at the same times and under the same ids, leave the same span
but for its name.  They find the same memory behind a value of more than 128
bytes, which SkyWalking reads on into. -/
def RecordedAlike (call : MysqliCall) (pit : Interceptor) (mysqli : Mysqli)
    (object : Nat) (args : List Zval) (frame : Frame) : Prop :=
  (call.proceduralRecord pit mysqli
      (call.proceduralFrame object args frame)).map
        (HashTable.without nameFields) =
    (call.methodRecord pit mysqli (call.methodFrame object args frame)).map
      (HashTable.without nameFields)

/-- The class whose property "error" the method form reads. -/
def errorClass : MysqliCall → String
  | .stmtPrepare => "mysqli_stmt"
  | .stmtExecute => "mysqli_stmt"
  | _ => "mysqli"

def reachesError (call : MysqliCall) (args : List Zval) : Bool :=
  match call with
  | .connect => false
  | .realConnect => false
  | .stmtExecute => true
  | _ => decide (0 < args.length)

def objectError (call : MysqliCall) (mysqli : Mysqli) (object : Nat) :
    Option String :=
  if mysqli.hasClass call.errorClass then
    errorText (mysqli.readProperty call.errorClass (.object object) "error")
  else none

end MysqliCall

/-! Spans of frames that differ in what was called only. -/

def Frame.SameTime (f g : Frame) : Prop :=
  f.entryTime = g.entryTime ∧ f.exitTime = g.exitTime ∧
    f.spanId = g.spanId ∧ f.parentSpanId = g.parentSpanId

namespace Interceptor

variable {f g : Frame}

theorem without_annotate (pit : Interceptor) (h : f.SameTime g)
    (bas : List Ba) :
    (pit.annotate f (pit.buildComRecord f) bas).without nameFields =
      (pit.annotate g (pit.buildComRecord g) bas).without nameFields := by
  obtain ⟨hentry, hexit, hid, hparent⟩ := h
  have hstart : (pit.buildComRecord f).without nameFields =
      (pit.buildComRecord g).without nameFields := by
    rw [buildComRecord, startSpanEx, Frame.start, hentry, hexit, hid,
      hparent]
    exact pit.psb.without_startSpan pit.pct ⟨g.function, g.spanId,
      g.parentSpanId, g.entryTime, g.exitTime⟩ .client f.function
  rw [annotate, annotate, SpanBuilder.without_spanAddBas,
    SpanBuilder.without_spanAddBas, hstart, hexit]

theorem without_annotate_error (pit : Interceptor) (h : f.SameTime g)
    (bas : List Ba) (error : String) :
    (pit.annotate f (pit.buildComRecord f) bas).without nameFields ≠
      (pit.annotate g (pit.buildComRecord g)
        (bas ++ [spanAddBaEx pit.pct "error" (some error) .error])).without
          nameFields := by
  intro heq
  rw [pit.without_annotate h] at heq
  have hready : pit.psb.Ready (pit.annotate g (pit.buildComRecord g) bas) :=
    (pit.psb.ready_startSpan _ _ _).spanAddBas _ _
  have hinner : ∀ span : HashTable,
      (span.without nameFields).inner pit.psb.errorList =
        span.inner pit.psb.errorList := by
    intro span
    rw [HashTable.inner, HashTable.find_without, HashTable.inner]
    cases htype : pit.psb.type <;>
      simp [SpanBuilder.errorList, htype, nameFields]
  have hlength := congrArg
    (fun span : HashTable => (span.inner pit.psb.errorList).length) heq
  simp only [hinner, annotate, SpanBuilder.spanAddBas, List.foldl_append,
    List.foldl_cons, List.foldl_nil] at hlength
  have hmore := hready.length_error g.exitTime
    (spanAddBaEx pit.pct "error" (some error) .error) rfl rfl rfl
  rw [annotate, SpanBuilder.spanAddBas] at hmore
  omega

theorem without_annotate_iff (pit : Interceptor) (h : f.SameTime g)
    (bas : List Ba) (error : Option String) :
    (pit.annotate f (pit.buildComRecord f) bas).without nameFields =
        (pit.annotate g (pit.buildComRecord g)
          (bas ++ (error.map fun error =>
            spanAddBaEx pit.pct "error" (some error) .error).toList)).without
              nameFields ↔
      error = none := by
  cases error with
  | none => simpa using pit.without_annotate h bas
  | some error => simpa using pit.without_annotate_error h bas error

end Interceptor

namespace MysqliCall

theorem sameTime (call : MysqliCall) (object : Nat) (args : List Zval)
    (frame : Frame) :
    (call.proceduralFrame object args frame).SameTime
      (call.methodFrame object args frame) :=
  ⟨rfl, rfl, rfl, rfl⟩

theorem connectRecord_alike (pit : Interceptor) (mysqli : Mysqli)
    {f g : Frame} (h : f.SameTime g) (before : List Zval)
    (hargs : f.args = before ++ g.args) :
    (connectRecord before.length pit mysqli f).map
        (HashTable.without nameFields) =
      (connectRecord 0 pit mysqli g).map (HashTable.without nameFields) := by
  have hget : ∀ index, f.args[before.length + index]? = g.args[index]? := by
    intro index
    rw [hargs, List.getElem?_append_right (Nat.le_add_right _ _),
      Nat.add_sub_cancel_left]
  have hlength : ∀ count, f.args.length < before.length + count ↔
      g.args.length < 0 + count := by
    intro count
    rw [hargs, List.length_append]
    omega
  have hhost : f.args[before.length]? = g.args[0]? := hget 0
  have hbas : connectSa before.length f ++
      connectInstance pit.pct before.length f ++
        connectFailure pit.pct mysqli =
      connectSa 0 g ++ connectInstance pit.pct 0 g ++
        connectFailure pit.pct mysqli := by
    simp only [connectSa, connectInstance, hhost, hget, hlength, Nat.zero_add]
  unfold connectRecord
  simp only [hlength, hbas]
  split
  · rfl
  · exact congrArg some (pit.without_annotate h _)

theorem mysqliCommonError_object (pct : ChainInfo) (mysqli : Mysqli)
    {frame : Frame} {object : Nat} {args : List Zval}
    (h : frame.args = .object object :: args) (errorFunction className : String) :
    mysqliCommonError pct mysqli frame true errorFunction className = [] := by
  simp [mysqliCommonError, h]

theorem mysqliCommonError_method (pct : ChainInfo) (mysqli : Mysqli)
    (frame : Frame) (errorFunction className : String) :
    mysqliCommonError pct mysqli frame false errorFunction className =
      ((if mysqli.hasClass className then
          errorText (mysqli.readProperty className frame.object "error")
        else none).map fun error =>
          spanAddBaEx pct "error" (some error) .error).toList := by
  simp only [mysqliCommonError, Bool.false_eq_true, if_false]
  split <;> rename_i h <;> rw [h] <;> rfl

theorem getSa_alike (pct : ChainInfo) (mysqli : Mysqli) {f g : Frame}
    {object : Nat} {args : List Zval} (hf : f.args = .object object :: args)
    (hg : g.object = .object object)
    (connection : Zval → Option Connection) :
    getSa pct mysqli f true connection =
      getSa pct mysqli g false connection := by
  simp only [getSa, hf, hg, List.head?_cons, if_true, Bool.false_eq_true,
    if_false]

theorem dbStatement_alike (pct : ChainInfo) {f g : Frame} {first : Zval}
    (h : f.args = first :: g.args) :
    dbStatement pct f true = dbStatement pct g false := by
  simp only [dbStatement, sqlIndex, h, if_true, Bool.false_eq_true, if_false,
    List.getElem?_cons_succ]

theorem sql_alike_iff (pit : Interceptor) {f g : Frame} (h : f.SameTime g)
    {first : Zval} (hargs : f.args = first :: g.args) (bas : List Ba)
    (error : Option String) :
    (if f.args.length < sqlIndex true + 1 then none
      else some (pit.annotate f (pit.buildComRecord f) bas)).map
        (HashTable.without nameFields) =
      (if g.args.length < sqlIndex false + 1 then none
        else some (pit.annotate g (pit.buildComRecord g) (bas ++
          (error.map fun error =>
            spanAddBaEx pit.pct "error" (some error) .error).toList))).map
              (HashTable.without nameFields) ↔
      decide (0 < g.args.length) = false ∨ error = none := by
  have hlength : f.args.length < sqlIndex true + 1 ↔ g.args.length = 0 := by
    rw [hargs, List.length_cons, sqlIndex, if_pos rfl]
    omega
  have hlength' : g.args.length < sqlIndex false + 1 ↔ g.args.length = 0 := by
    rw [sqlIndex, if_neg (by decide)]
    omega
  simp only [hlength, hlength']
  by_cases hempty : g.args.length = 0
  · simp [hempty]
  · have hpos : 0 < g.args.length := Nat.pos_of_ne_zero hempty
    rw [if_neg hempty, if_neg hempty, Option.map_some, Option.map_some,
      Option.some_inj, pit.without_annotate_iff h]
    simp [hpos]

theorem dbQueryRecord_alike_iff (pit : Interceptor) (mysqli : Mysqli)
    {f g : Frame} (h : f.SameTime g) {object : Nat}
    (hargs : f.args = .object object :: g.args)
    (hobject : g.object = .object object) :
    (dbQueryRecord pit mysqli f true).map (HashTable.without nameFields) =
        (dbQueryRecord pit mysqli g false).map
          (HashTable.without nameFields) ↔
      decide (0 < g.args.length) = false ∨
        (if mysqli.hasClass "mysqli" then
          errorText (mysqli.readProperty "mysqli" (.object object) "error")
        else none) = none := by
  have hsa := getSa_alike pit.pct mysqli hargs hobject mysqli.linkConnection
  rw [dbQueryRecord, dbQueryRecord, mysqliError, mysqliError,
    mysqliCommonError_object pit.pct mysqli hargs, mysqliCommonError_method,
    List.append_nil, dbQueryGetSa, hsa, dbStatement_alike pit.pct hargs,
    hobject]
  exact sql_alike_iff pit h hargs _ _

theorem mysqliStmtPrepareCommonRecord_alike_iff (pit : Interceptor)
    (mysqli : Mysqli) {f g : Frame} (h : f.SameTime g) {object : Nat}
    (hargs : f.args = .object object :: g.args)
    (hobject : g.object = .object object) :
    (mysqliStmtPrepareCommonRecord pit mysqli f true).map
          (HashTable.without nameFields) =
        (mysqliStmtPrepareCommonRecord pit mysqli g false).map
          (HashTable.without nameFields) ↔
      decide (0 < g.args.length) = false ∨
        (if mysqli.hasClass "mysqli_stmt" then
          errorText
            (mysqli.readProperty "mysqli_stmt" (.object object) "error")
        else none) = none := by
  have hsa := getSa_alike pit.pct mysqli hargs hobject mysqli.stmtConnection
  rw [mysqliStmtPrepareCommonRecord, mysqliStmtPrepareCommonRecord,
    mysqliStmtError, mysqliStmtError,
    mysqliCommonError_object pit.pct mysqli hargs, mysqliCommonError_method,
    List.append_nil, mysqliStmtGetSa, hsa, dbStatement_alike pit.pct hargs,
    hobject]
  exact sql_alike_iff pit h hargs _ _

theorem mysqliStmtExeCommonRecord_alike_iff (pit : Interceptor)
    (mysqli : Mysqli) {f g : Frame} (h : f.SameTime g) {object : Nat}
    (hargs : f.args = .object object :: g.args)
    (hobject : g.object = .object object) :
    (mysqliStmtExeCommonRecord pit mysqli f true).map
          (HashTable.without nameFields) =
        (mysqliStmtExeCommonRecord pit mysqli g false).map
          (HashTable.without nameFields) ↔
      (if mysqli.hasClass "mysqli_stmt" then
        errorText (mysqli.readProperty "mysqli_stmt" (.object object) "error")
      else none) = none := by
  have hsa := getSa_alike pit.pct mysqli hargs hobject mysqli.stmtConnection
  rw [mysqliStmtExeCommonRecord, mysqliStmtExeCommonRecord, mysqliStmtError,
    mysqliStmtError, mysqliCommonError_object pit.pct mysqli hargs,
    mysqliCommonError_method, List.append_nil, mysqliStmtGetSa, hsa, hobject,
    Option.map_some, Option.map_some, Option.some_inj]
  exact pit.without_annotate_iff h _ _

/-- The procedural and the method form leave the same span, but for its name,
exactly when no error of the object is left to record. -/
theorem recordedAlike_iff (call : MysqliCall) (pit : Interceptor)
    (mysqli : Mysqli) (object : Nat) (args : List Zval) (frame : Frame) :
    call.RecordedAlike pit mysqli object args frame ↔
      call.reachesError args = false ∨
        call.objectError mysqli object = none := by
  have h := call.sameTime object args frame
  cases call with
  | connect =>
      simp only [reachesError, true_or, iff_true]
      exact connectRecord_alike _ mysqli h [] rfl
  | realConnect =>
      simp only [reachesError, true_or, iff_true]
      exact connectRecord_alike _ mysqli h [.object object] rfl
  | query => exact dbQueryRecord_alike_iff _ mysqli h rfl rfl
  | prepare => exact dbQueryRecord_alike_iff _ mysqli h rfl rfl
  | stmtPrepare =>
      exact mysqliStmtPrepareCommonRecord_alike_iff _ mysqli h rfl rfl
  | stmtExecute =>
      simp only [reachesError, Bool.true_eq_false, false_or]
      exact mysqliStmtExeCommonRecord_alike_iff _ mysqli h rfl rfl

end MysqliCall

def failedMysqli : Mysqli where
  connectErrno := some (.long 0)
  connectError := some .null
  call := fun _ _ => some (.string "You have an error in your SQL syntax")
  hasClass := fun _ => true
  readProperty := fun _ _ _ => .string "You have an error in your SQL syntax"
  linkConnection := fun _ => some ⟨some "127.0.0.1", 3306, some "test"⟩
  stmtConnection := fun _ => none
  hasMysqlnd := true

def scriptInterceptor : Interceptor where
  pct := ⟨"test", "00000000000000a1", "127.0.0.1", 0, 1, 0, 0, true⟩
  psb := ⟨.zipkin, ""⟩
  reprZval := fun _ => ""

def scriptFrame : Frame :=
  ⟨"", .null, [], some (.bool false), 1, 2, "1.1", some "1"⟩

/-- `mysqli_query($link, "SELEC 1")` loses the error that
`$link->query("SELEC 1")` records. -/
theorem not_recordedAlike_query :
    ¬ MysqliCall.query.RecordedAlike scriptInterceptor failedMysqli 3
      [.string "SELEC 1"] scriptFrame := by
  intro halike
  have h := (MysqliCall.dbQueryRecord_alike_iff _ failedMysqli
    (MysqliCall.query.sameTime 3 [.string "SELEC 1"] scriptFrame) rfl
    rfl).mp halike
  exact absurd h (by decide)

end Molten.Intercept
