import Molten.Ctrl.RateSafety

namespace Molten.Ctrl

open Molten.Chain
open Molten.Control
open Molten.Php
open Molten.Text

/-! The switch over a run, and what of the run decides whether it is obeyed.
Lists of earlier requests have the latest first. -/

section Inputs

variable (jsonDecode : String → Zval) (toLong : Zval → Int)
  (build : HeaderBuild) (mcm : CtrlModule)

def switchedOn : List Request → Bool
  | [] => true
  | request :: earlier => switch jsonDecode toLong (switchedOn earlier) request

/-- The last type that was posted, where no post has none. -/
def typeInForce : List Request → Nat
  | [] => mcm.samplingType
  | request :: earlier =>
      ((appliedField jsonDecode toLong request "samplingType").map
        toByte).getD (typeInForce earlier)

/-- The last rate that was posted while requests were sampled by rate. -/
def rateInForce : List Request → Int
  | [] => mcm.samplingRate
  | request :: earlier =>
      if typeInForce jsonDecode toLong mcm (request :: earlier) =
          samplingRateType then
        (appliedField jsonDecode toLong request "samplingRate").getD
          (rateInForce earlier)
      else rateInForce earlier

def limitInForce : List Request → Int
  | [] => mcm.samplingRequest
  | request :: earlier =>
      if typeInForce jsonDecode toLong mcm (request :: earlier) =
          samplingRateType then
        limitInForce earlier
      else
        (appliedField jsonDecode toLong request "samplingRequest").getD
          (limitInForce earlier)

/-- The minutes of the requests without a `Sampled` header that came under a
limit. -/
def countedMinutes : List Request → List Int
  | [] => []
  | request :: earlier =>
      if request.input.received build.recSampled = none ∧
          typeInForce jsonDecode toLong mcm (request :: earlier) ≠
            samplingRateType then
        request.input.minute :: countedMinutes earlier
      else countedMinutes earlier

/-- How many of them a minute had before, one after the other.  The record of
the start goes on when there was no other minute since. -/
def requestsOf (msr : SamplingRecord) (minute : Int) (minutes : List Int) :
    Int :=
  let same := minutes.takeWhile (· = minute)
  if same.length = minutes.length ∧ minute = msr.lastMin then
    msr.requestNum + same.length + 1
  else same.length

/-- A request that carries no `Sampled` header, served while off, is not
sampled. -/
def Obeyed (server : Server) (request : Request) : Prop :=
  switch jsonDecode toLong server.on request = false →
    request.input.received build.recSampled = none →
      (serve jsonDecode toLong build server.mrt request).1 ≠ some true

/-- A request of this kind draws a number that the rate in force does not
divide, or its minute has had as many requests as the limit in force. -/
def LeftOut (mrt : MoCtrl) (earlier : List Request) (request : Request) :
    Prop :=
  let requests := request :: earlier
  switchedOn jsonDecode toLong requests = false →
    request.input.received build.recSampled = none →
      if typeInForce jsonDecode toLong mrt.mcm requests =
          samplingRateType then
        rateInForce jsonDecode toLong mrt.mcm requests = 0 ∨
          ¬ rateInForce jsonDecode toLong mrt.mcm requests ∣
            (request.input.num : Int)
      else
        limitInForce jsonDecode toLong mrt.mcm requests ≤
          requestsOf mrt.msr request.input.minute
            (countedMinutes jsonDecode toLong build mrt.mcm earlier)

end Inputs

/-! The record of a minute. -/

def recordAfter (msr : SamplingRecord) : List Int → SamplingRecord
  | [] => msr
  | minute :: minutes => (recordAfter msr minutes).count minute

theorem lastMin_count (msr : SamplingRecord) (minute : Int) :
    (msr.count minute).lastMin = minute := by
  rw [SamplingRecord.count]
  split
  · rename_i same
    exact same.symm
  · rfl

theorem requestNum_recordAfter (msr : SamplingRecord) (minute : Int)
    (minutes : List Int) :
    ((recordAfter msr minutes).count minute).requestNum =
      requestsOf msr minute minutes := by
  induction minutes generalizing minute with
  | nil =>
      rw [recordAfter, SamplingRecord.count]
      by_cases same : minute = msr.lastMin <;> simp [requestsOf, same]
  | cons last minutes induction =>
      rw [recordAfter, SamplingRecord.count, lastMin_count]
      by_cases same : minute = last
      · subst same
        rw [if_pos rfl, induction, requestsOf, requestsOf]
        simp only [List.takeWhile_cons, decide_true, if_true,
          List.length_cons, Nat.add_right_cancel_iff]
        split <;> omega
      · rw [if_neg same, requestsOf]
        simp [Ne.symm same]

section Runs

variable {jsonDecode : String → Zval} {toLong : Zval → Int}
  {build : HeaderBuild} {mrt : MoCtrl}

theorem checkHitRatio_eq_some_true {num : Nat} {base : Int} :
    checkHitRatio num base = some true ↔ base ≠ 0 ∧ base ∣ (num : Int) := by
  unfold checkHitRatio
  by_cases hbase : base = 0
  · simp [hbase]
  · simp [hbase, Int.dvd_iff_tmod_eq_zero]

theorem moCtrlSampling_misses_iff {input : RequestInput} {mcm : CtrlModule}
    {msr : SamplingRecord} (h : input.received build.recSampled = none) :
    (moCtrlSampling build input mcm msr).map Prod.fst ≠ some true ↔
      if mcm.samplingType = samplingRateType then
        mcm.samplingRate = 0 ∨ ¬ mcm.samplingRate ∣ (input.num : Int)
      else mcm.samplingRequest ≤ (msr.count input.minute).requestNum := by
  by_cases htype : mcm.samplingType = samplingRateType
  · have hsampling : (moCtrlSampling build input mcm msr).map Prod.fst =
        checkHitRatio input.num mcm.samplingRate := by
      simp [moCtrlSampling, h, htype, Function.comp_def]
    rw [hsampling, if_pos htype, Ne, checkHitRatio_eq_some_true]
    tauto
  · rw [moCtrlSampling_of_limit h htype, if_neg htype]
    simp

/-- What the server holds is what the requests so far tell. -/
structure Tells (jsonDecode : String → Zval) (toLong : Zval → Int)
    (build : HeaderBuild) (mrt : MoCtrl) (server : Server)
    (earlier : List Request) : Prop where
  on : server.on = switchedOn jsonDecode toLong earlier
  samplingType : server.mrt.mcm.samplingType =
    typeInForce jsonDecode toLong mrt.mcm earlier
  samplingRate : server.mrt.mcm.samplingRate =
    rateInForce jsonDecode toLong mrt.mcm earlier
  samplingRequest : server.mrt.mcm.samplingRequest =
    limitInForce jsonDecode toLong mrt.mcm earlier
  msr : server.mrt.msr = recordAfter mrt.msr
    (countedMinutes jsonDecode toLong build mrt.mcm earlier)

theorem Tells.settings {server : Server} {earlier : List Request}
    (tells : Tells jsonDecode toLong build mrt server earlier)
    (request : Request) :
    (moRequestHandle jsonDecode toLong server.mrt request).1.samplingType =
        typeInForce jsonDecode toLong mrt.mcm (request :: earlier) ∧
      (moRequestHandle jsonDecode toLong server.mrt request).1.samplingRate =
        rateInForce jsonDecode toLong mrt.mcm (request :: earlier) ∧
      (moRequestHandle jsonDecode toLong server.mrt
          request).1.samplingRequest =
        limitInForce jsonDecode toLong mrt.mcm (request :: earlier) := by
  obtain ⟨type, rate, limit⟩ :=
    moRequestHandle_settings jsonDecode toLong server.mrt request
  have same : typeAfter jsonDecode toLong server.mrt.mcm request =
      typeInForce jsonDecode toLong mrt.mcm (request :: earlier) := by
    rw [typeAfter, tells.samplingType, typeInForce]
  refine ⟨type.trans same, rate.trans ?_, limit.trans ?_⟩
  · rw [rateAfter, same, tells.samplingRate, rateInForce]
  · rw [limitAfter, same, tells.samplingRequest, limitInForce]

theorem Tells.obeyed_iff {server : Server} {earlier : List Request}
    (tells : Tells jsonDecode toLong build mrt server earlier)
    (request : Request) :
    Obeyed jsonDecode toLong build server request ↔
      LeftOut jsonDecode toLong build mrt earlier request := by
  obtain ⟨type, rate, limit⟩ := tells.settings request
  rw [Obeyed, LeftOut, tells.on]
  refine imp_congr_right fun _ => imp_congr_right fun received => ?_
  rw [serve_fst, moCtrlSampling_misses_iff received, type, rate, limit,
    tells.msr, requestNum_recordAfter]

/-- Only a request that is decided by the limit is counted. -/
theorem msr_serve (mrt : MoCtrl) (request : Request) :
    (serve jsonDecode toLong build mrt request).2.msr =
      if request.input.received build.recSampled = none ∧
          (moRequestHandle jsonDecode toLong mrt request).1.samplingType ≠
            samplingRateType then
        mrt.msr.count request.input.minute
      else mrt.msr := by
  unfold serve
  dsimp only
  cases received : request.input.received build.recSampled with
  | some text =>
      rw [moCtrlSampling_of_received received]
      simp
  | none =>
      by_cases rated : (moRequestHandle jsonDecode toLong mrt
          request).1.samplingType = samplingRateType
      · simp only [moCtrlSampling, received, rated, if_true]
        cases checkHitRatio request.input.num (moRequestHandle jsonDecode
          toLong mrt request).1.samplingRate <;> simp
      · rw [moCtrlSampling_of_limit received rated]
        simp [rated]

theorem Tells.next {server : Server} {earlier : List Request}
    (tells : Tells jsonDecode toLong build mrt server earlier)
    (request : Request) :
    Tells jsonDecode toLong build mrt
      (server.next jsonDecode toLong build request) (request :: earlier) := by
  obtain ⟨type, rate, limit⟩ := tells.settings request
  refine ⟨?_, ?_, ?_, ?_, ?_⟩
  · rw [Server.next, tells.on, switchedOn]
  · rw [Server.next, serve_mcm, type]
  · rw [Server.next, serve_mcm, rate]
  · rw [Server.next, serve_mcm, limit]
  · rw [Server.next, msr_serve, type, tells.msr, countedMinutes]
    split <;> rfl

/-- Along every run the switch is obeyed exactly when the numbers drawn, and
the requests that every minute had, leave out the requests served while off:
the rates, limits and types in force are those that were posted. -/
theorem obeyed_along_iff (jsonDecode : String → Zval) (toLong : Zval → Int)
    (build : HeaderBuild) (mrt : MoCtrl) (requests : List Request) :
    Along (Server.next jsonDecode toLong build)
        (Obeyed jsonDecode toLong build) ⟨true, mrt⟩ requests ↔
      Along (fun earlier request => request :: earlier)
        (LeftOut jsonDecode toLong build mrt) [] requests :=
  along_related (Tells jsonDecode toLong build mrt)
    (fun _ _ request tells => tells.obeyed_iff request)
    (fun _ _ request tells => tells.next request) ⟨rfl, rfl, rfl, rfl, rfl⟩
    requests

end Runs

/-! A run that posts the switch and then asks for a page. -/

def offRequest : Request where
  requestUri := some "/molten/status"
  requestMethod := some "POST"
  body := some offPost
  input := ⟨false, fun _ => none, "10.0.0.1", 20, 7, "0011223344556677"⟩

def pageRequest : Request where
  requestUri := some "/index.php"
  requestMethod := some "GET"
  body := none
  input := ⟨false, fun _ => none, "10.0.0.1", 40, 7, "8899aabbccddeeff"⟩

theorem switch_disobeyed :
    ¬ Along (Server.next (fun text => .array (decodedPost text)) longValue
          .molten)
        (Obeyed (fun text => .array (decodedPost text)) longValue .molten)
        ⟨true, ⟨defaultSettings, ⟨0, 0⟩, ⟨7, 0⟩⟩⟩
        [offRequest, pageRequest] := by
  rintro ⟨-, hpage, -⟩
  exact hpage (by decide) rfl (by decide)

end Molten.Ctrl
