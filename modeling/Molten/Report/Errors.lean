import Molten.Log.ChainLog
import Molten.Php.Zval
import Molten.Text.CString

namespace Molten.Report

open Molten.Log
open Molten.Php
open Molten.Text

/-! The errors a worker has seen and not yet reported. -/

/-- `mo_rep_error_t` -/
structure RepError where
  uri : String
  error : String
  timestamp : Int
  deriving DecidableEq, Repr

/-- `mo_report_t` -/
structure ErrorReport where
  lastRepTime : Int
  repInterval : Int
  reportLimit : Int
  errorList : List RepError
  deriving DecidableEq, Repr

/-- The arguments of the error callback, with whether the error is handled in
the normal way. -/
structure ErrorArgs where
  type : Int
  normal : Bool
  file : String
  line : Int
  message : String
  deriving DecidableEq, Repr

def eError : Int := 1
def eCoreError : Int := 16
def eUserError : Int := 256

def ErrorArgs.Recorded (args : ErrorArgs) : Prop :=
  args.normal = true ∧ args.type ∈ [eError, eCoreError, eUserError]

instance (args : ErrorArgs) : Decidable args.Recorded := by
  unfold ErrorArgs.Recorded
  infer_instance

def errorTotalLen : Nat := 200

/-- `error_info`.  The message stands behind the place and is cut one byte short
of the buffer's end. -/
def errorInfo (args : ErrorArgs) : String :=
  let place := "type:" ++ toString args.type ++ ", file:" ++ args.file ++
    ", line:" ++ toString args.line ++ " "
  let pos := place.toList.length
  if pos < errorTotalLen - 1 then
    place ++ cutToBuffer (errorTotalLen - pos - 1) args.message
  else cutToBuffer errorTotalLen place

def moRepRecordError (uri : Option String) (error : String) (usec : Int)
    (report : ErrorReport) : ErrorReport :=
  match uri with
  | some uri =>
      { report with errorList := report.errorList ++ [⟨uri, error, usec⟩] }
  | none => report

def checkInterval (usec : Int) (report : ErrorReport) : Nat × ErrorReport :=
  let sec := usec.tdiv 1000000
  if report.repInterval < sec - report.lastRepTime then
    (2, { report with lastRepTime := sec })
  else if report.reportLimit ≤ report.errorList.length then
    (1, { report with lastRepTime := sec })
  else (0, report)

def errorEntry (error : RepError) : HashTable :=
  let pack : HashTable := []
  let pack := pack.addAssoc "uri" (.string error.uri)
  let pack := pack.addAssoc "error" (.string error.error)
  pack.addAssoc "timestamp" (.double error.timestamp)

def llistApplyFunc (arr : HashTable) (error : RepError) : HashTable :=
  arr.push (.array (errorEntry error))

/-- The array that `format_llist_to_array` builds. -/
def errorArray (errorList : List RepError) : HashTable :=
  let out : HashTable := []
  out.addAssoc "error" (.array (errorList.foldl llistApplyFunc []))

/-- `encode` is what `php_json_encode` appends. -/
def formatLlistToArray (encode : Zval → Bytes) (errorList : List RepError) :
    Bytes :=
  encode (.array (errorArray errorList)) ++ [10]

/-- The test `zend_llist_count > 0` compares the address of a function and
always holds. -/
def moRepRecordData (encode : Zval → Bytes) (usec : Int)
    (log : ChainLog) (report : ErrorReport) (sink : List SinkWrite) :
    ErrorReport × List SinkWrite :=
  match checkInterval usec report with
  | (0, report) => (report, sink)
  | (_, report) =>
      ({ report with errorList := [] },
        moLogWrite log .report (formatLlistToArray encode report.errorList)
          sink)

theorem values_llistApplyFunc (errorList : List RepError)
    (arr : HashTable) :
    (errorList.foldl llistApplyFunc arr).values =
      arr.values ++ errorList.map fun error => .array (errorEntry error) := by
  induction errorList generalizing arr with
  | nil => exact (List.append_nil _).symm
  | cons error errorList induction =>
      rw [List.foldl_cons, induction, llistApplyFunc, HashTable.values_push,
        List.append_assoc]
      rfl

theorem onlyReports_moRepRecordData (encode : Zval → Bytes)
    (usec : Int) (log : ChainLog) (report : ErrorReport)
    (sink : List SinkWrite) :
    OnlyReports sink (moRepRecordData encode usec log report sink).2 := by
  unfold moRepRecordData
  split
  · exact .refl sink
  · exact onlyReports_moLogWrite log _ sink

end Molten.Report
