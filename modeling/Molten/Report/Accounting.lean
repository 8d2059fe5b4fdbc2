import Mathlib.Data.List.Forall2
import Molten.Control.Machine
import Molten.Report.Errors
import Molten.Text.Block

namespace Molten.Report

open Molten.Control Molten.Log Molten.Php

/-! Which errors each report lists, over all the reports of a worker. -/

def readEntry : Zval → Option RepError
  | .array pack =>
      let field (name : String) := HashTable.find (.name name) pack
      match field "uri", field "error", field "timestamp" with
      | some (.string uri), some (.string error), some (.double timestamp) =>
          some ⟨uri, error, timestamp⟩
      | _, _, _ => none
  | _ => none

/-- What the array of a report lists under its one key, in order. -/
def listed (out : HashTable) : Option (List RepError) :=
  match out with
  | [(.name "error", .array pack)] => (HashTable.values pack).mapM readEntry
  | _ => none

theorem readEntry_errorEntry (error : RepError) :
    readEntry (.array (errorEntry error)) = some error := rfl

theorem listed_errorArray (errorList : List RepError) :
    listed (errorArray errorList) = some errorList := by
  show ((errorList.foldl llistApplyFunc []).values).mapM readEntry = _
  rw [values_llistApplyFunc]
  show (errorList.map fun error => Zval.array (errorEntry error)).mapM
    readEntry = some errorList
  induction errorList with
  | nil => rfl
  | cons error errorList induction =>
      rw [List.map_cons, List.mapM_cons, induction, readEntry_errorEntry]
      rfl

def moRepCtor (now repInterval reportLimit : Int) : ErrorReport :=
  { lastRepTime := now, repInterval, reportLimit, errorList := [] }

inductive ReportCall
  | recordError (uri : Option String) (error : String) (usec : Int)
  | recordData (usec : Int)

/-- The error that the call records, if there is a request uri. -/
def ReportCall.recorded : ReportCall → List RepError
  | .recordError (some uri) error usec => [⟨uri, error, usec⟩]
  | _ => []

/-- The module, its sink, and the errors recorded since the last write. -/
structure Reporter where
  report : ErrorReport
  sink : List SinkWrite
  since : List RepError

section Calls

variable (encode : Zval → Bytes) (log : ChainLog)

def nextReport (s : Reporter) (call : ReportCall) : Reporter :=
  match call with
  | .recordError uri error usec =>
      { s with
        report := moRepRecordError uri error usec s.report
        since := s.since ++ call.recorded }
  | .recordData usec =>
      let next := moRepRecordData encode usec log s.report s.sink
      { report := next.1
        sink := next.2
        since := if next.2 = s.sink then s.since else [] }

def Due (usec : Int) (report : ErrorReport) : Prop :=
  report.repInterval < usec.tdiv 1000000 - report.lastRepTime ∨
    report.reportLimit ≤ report.errorList.length

instance (usec : Int) (report : ErrorReport) : Decidable (Due usec report) :=
  inferInstanceAs (Decidable (_ ∨ _))

/-- The bytes are a line with the text of an array that lists the errors. -/
def Lists (write : SinkWrite) (errors : List RepError) : Prop :=
  write.origin = .report ∧ ∃ out,
    write.bytes = encode (.array out) ++ [10] ∧ listed out = some errors

/-- A report is written when one is due and there is something to report: what
was recorded since the last. -/
def ReportsRight (s : Reporter) (call : ReportCall) : Prop :=
  ∃ writes, (nextReport encode log s call).sink = s.sink ++ writes ∧
    match call with
    | .recordError .. => writes = []
    | .recordData usec =>
        if Due usec s.report ∧ s.report.errorList ≠ [] then
          ∃ report, writes = [report] ∧ Lists encode report s.since
        else writes = []

/-- Every error is in one report, or still there to be reported, and all are in
the order in which they were recorded. -/
def Accounted (start : Reporter) (calls : List ReportCall) : Prop :=
  ∃ writes reported,
    (calls.foldl (nextReport encode log) start).sink = start.sink ++ writes ∧
    List.Forall₂ (Lists encode) writes reported ∧
    reported.flatten ++
        (calls.foldl (nextReport encode log) start).report.errorList =
      start.report.errorList ++ calls.flatMap ReportCall.recorded

def DueWithErrors (s : Reporter) (call : ReportCall) : Prop :=
  match call with
  | .recordError .. => True
  | .recordData usec => Due usec s.report → s.report.errorList ≠ []

end Calls

section Writes

variable {encode : Zval → Bytes} {log : ChainLog}
  (hsink : log.sinkType ∈ [sinkStd, sinkLog, sinkSyslog, sinkHttp])

include hsink

theorem moRepRecordData_eq (usec : Int) (report : ErrorReport)
    (sink : List SinkWrite) :
    moRepRecordData encode usec log report sink =
      if Due usec report then
        ({ report with
            lastRepTime := usec.tdiv 1000000
            errorList := [] },
          sink ++ [⟨.report, formatLlistToArray encode report.errorList⟩])
      else (report, sink) := by
  have hwrite : ∀ bytes, moLogWrite log .report bytes sink =
      sink ++ [⟨.report, bytes⟩] := fun bytes => if_pos hsink
  by_cases hinterval :
      report.repInterval < usec.tdiv 1000000 - report.lastRepTime
  · rw [if_pos (.inl hinterval)]
    simp [moRepRecordData, checkInterval, hinterval, hwrite]
  by_cases hlimit : report.reportLimit ≤ report.errorList.length
  · rw [if_pos (.inr hlimit)]
    simp [moRepRecordData, checkInterval, hinterval, hlimit, hwrite]
  · have hdue : ¬ Due usec report := not_or.mpr ⟨hinterval, hlimit⟩
    rw [if_neg hdue]
    simp [moRepRecordData, checkInterval, hinterval, hlimit]

theorem since_nextReport {s : Reporter}
    (hsince : s.since = s.report.errorList) (call : ReportCall) :
    (nextReport encode log s call).since =
      (nextReport encode log s call).report.errorList := by
  cases call with
  | recordError uri error usec =>
      cases uri with
      | none => simpa [nextReport, moRepRecordError, ReportCall.recorded]
      | some uri =>
          simp [nextReport, moRepRecordError, ReportCall.recorded, hsince]
  | recordData usec =>
      by_cases hdue : Due usec s.report
      · simp [nextReport, moRepRecordData_eq hsink, hdue]
      · simpa [nextReport, moRepRecordData_eq hsink, hdue] using hsince

omit hsink in
variable (encode) in
theorem lists_formatLlistToArray (errorList : List RepError) :
    Lists encode ⟨.report, formatLlistToArray encode errorList⟩ errorList :=
  ⟨rfl, _, rfl, listed_errorArray errorList⟩

theorem reportsRight_iff {s : Reporter}
    (hsince : s.since = s.report.errorList) (call : ReportCall) :
    ReportsRight encode log s call ↔ DueWithErrors s call := by
  cases call with
  | recordError uri error usec =>
      exact iff_of_true ⟨[], (List.append_nil _).symm, rfl⟩ trivial
  | recordData usec =>
      have written :=
        @moRepRecordData_eq encode log hsink usec s.report s.sink
      rw [ReportsRight, DueWithErrors, nextReport, written]
      by_cases hdue : Due usec s.report
      · by_cases herrors : s.report.errorList = []
        · simp [hdue, herrors]
        · refine iff_of_true ⟨_, by rw [if_pos hdue], ?_⟩ fun _ => herrors
          dsimp only
          rw [if_pos ⟨hdue, herrors⟩, hsince]
          exact ⟨_, rfl, lists_formatLlistToArray encode _⟩
      · simp [hdue]

variable (encode) in
theorem accounted_singleton (s : Reporter) (call : ReportCall) :
    Accounted encode log s [call] := by
  cases call with
  | recordError uri error usec =>
      refine ⟨[], [], (List.append_nil _).symm, .nil, ?_⟩
      cases uri <;>
        simp [nextReport, moRepRecordError, ReportCall.recorded]
  | recordData usec =>
      by_cases hdue : Due usec s.report
      · refine ⟨[⟨.report, formatLlistToArray encode s.report.errorList⟩],
          [s.report.errorList], ?_,
          .cons (lists_formatLlistToArray encode _) .nil, ?_⟩
        · simp [nextReport, moRepRecordData_eq hsink, hdue]
        · simp [nextReport, moRepRecordData_eq hsink, hdue,
            ReportCall.recorded]
      · refine ⟨[], [], ?_, .nil, ?_⟩
        · simp [nextReport, moRepRecordData_eq hsink, hdue]
        · simp [nextReport, moRepRecordData_eq hsink, hdue,
            ReportCall.recorded]

theorem accounted (start : Reporter) (calls : List ReportCall) :
    Accounted encode log start calls := by
  induction calls generalizing start with
  | nil => exact ⟨[], [], by simp⟩
  | cons call calls ih =>
      obtain ⟨first, listed₁, hsink₁, lists₁, herrors₁⟩ :=
        accounted_singleton encode hsink start call
      obtain ⟨rest, listed₂, hsink₂, lists₂, herrors₂⟩ :=
        ih (nextReport encode log start call)
      rw [List.foldl_cons, List.foldl_nil] at hsink₁ herrors₁
      refine ⟨first ++ rest, listed₁ ++ listed₂, ?_,
        List.rel_append lists₁ lists₂, ?_⟩
      · rw [List.foldl_cons, hsink₂, hsink₁, List.append_assoc]
      · rw [List.foldl_cons, List.flatten_append, List.append_assoc, herrors₂,
          ← List.append_assoc, herrors₁, List.append_assoc,
          List.flatMap_singleton, List.flatMap_cons]

end Writes

def Accounts (encode : Zval → Bytes) (log : ChainLog)
    (report : ErrorReport) (calls : List ReportCall) : Prop :=
  Along (nextReport encode log) (ReportsRight encode log) ⟨report, [], []⟩
      calls ∧
    Accounted encode log ⟨report, [], []⟩ calls

/-- Any times, interval and limit: all that goes wrong are reports of
nothing. -/
theorem moRepRecordData_accounts_iff (encode : Zval → Bytes)
    (log : ChainLog)
    (hsink : log.sinkType ∈ [sinkStd, sinkLog, sinkSyslog, sinkHttp])
    (now repInterval reportLimit : Int) (calls : List ReportCall) :
    Accounts encode log (moRepCtor now repInterval reportLimit) calls ↔
      Along (nextReport encode log) DueWithErrors
        ⟨moRepCtor now repInterval reportLimit, [], []⟩ calls := by
  refine Iff.trans (and_iff_left (accounted hsink _ calls)) ?_
  refine along_congr (fun s => s.since = s.report.errorList) ?_ ?_ rfl calls
  · exact fun s call hsince => reportsRight_iff hsink hsince call
  · exact fun s call hsince _ => since_nextReport hsink hsince call

def quoted (text : String) : String :=
  let escape (c : Char) : List Char := if c = '/' then ['\\', '/'] else [c]
  "\"" ++ String.ofList (text.toList.flatMap escape) ++ "\""

/-- The text of a report in whose strings only slashes need an escape. -/
def reportText : Zval → Bytes
  | .array [(_, .array pack)] =>
      let entry (error : RepError) : String :=
        "\x7b\"uri\":" ++ quoted error.uri ++ ",\"error\":" ++
          quoted error.error ++ ",\"timestamp\":" ++
            toString error.timestamp ++ "\x7d"
      let errors := ((HashTable.values pack).filterMap readEntry).map entry
      Text.Block.ofString
        ("\x7b\"error\":[" ++ String.intercalate "," errors ++ "]\x7d")
  | _ => Text.Block.ofString "[]"

def stdLog : ChainLog := ⟨sinkStd, spansWrap, fun _ => 0, 1024, 0⟩

/-- An error that is reported alone, one that has no request, and two that are
reported together. -/
def threeErrors : List ReportCall :=
  [.recordError (some "/index.php") "no such file" 100000001,
    .recordData 100000002, .recordError none "not in a request" 100000003,
    .recordError (some "/a") "no such class" 100000004,
    .recordError (some "/b") "no memory" 100000005, .recordData 100000006]

theorem moRepRecordData_accounts_threeErrors :
    Accounts reportText stdLog (moRepCtor 100 60 1) threeErrors ∧
      (threeErrors.foldl (nextReport reportText stdLog)
        ⟨moRepCtor 100 60 1, [], []⟩).sink =
        [⟨.report, Text.Block.ofString ("\x7b\"error\":[\x7b\"uri\":" ++
            "\"\\/index.php\",\"error\":\"no such file\"," ++
            "\"timestamp\":100000001\x7d]\x7d\n")⟩,
          ⟨.report, Text.Block.ofString ("\x7b\"error\":[\x7b\"uri\":" ++
            "\"\\/a\",\"error\":\"no such class\"," ++
            "\"timestamp\":100000004\x7d,\x7b\"uri\":" ++
            "\"\\/b\",\"error\":\"no memory\"," ++
            "\"timestamp\":100000005\x7d]\x7d\n")⟩] := by
  refine ⟨(moRepRecordData_accounts_iff reportText stdLog (by decide) 100 60 1
    threeErrors).mpr ?_, by decide +kernel⟩
  exact ⟨trivial, fun _ => List.cons_ne_nil _ _, trivial, trivial, trivial,
    fun _ => List.cons_ne_nil _ _, trivial⟩

/-- After the interval the first request without errors writes a report. -/
theorem not_accounts_quiet :
    ¬ Accounts reportText stdLog (moRepCtor 100 60 100)
      [.recordData 200000000] := by
  rintro ⟨⟨hright, -⟩, -⟩
  have hdue := (reportsRight_iff (by decide) rfl _).mp hright
  exact hdue (by decide) rfl

end Molten.Report
