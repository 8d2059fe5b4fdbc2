import Molten.Ctrl.Status

namespace Molten.Ctrl

open Molten.Chain
open Molten.Control
open Molten.Php

/-! The divisor of the sampling by rate, over the posts that store it. -/

structure IniSettings where
  samplingType : Int
  samplingRate : Int
  samplingRequest : Int
  samplingRate_pos : 1 ≤ samplingRate

/-- `mo_ctrl_ctor`, on slots that nobody has filled yet. -/
def moCtrlCtor (ini : IniSettings) (min : Int) : MoCtrl where
  mcm :=
    { enable := 1
      samplingType := toByte ini.samplingType
      samplingRate := ini.samplingRate
      samplingRequest := ini.samplingRequest }
  mri := ⟨0, 0⟩
  msr := ⟨min, 0⟩

section Settings

variable (jsonDecode : String → Zval) (toLong : Zval → Int)

def postedTable (request : Request) : Option HashTable :=
  if request.asks "GET" then none
  else if request.asks "POST" then
    match request.body.map jsonDecode with
    | some (.array ht) => some ht
    | _ => none
  else none

/-- The fields of a post that are looked at beyond `enable`. -/
def appliedPost (request : Request) : Option HashTable :=
  match postedTable jsonDecode request with
  | some ht => if posted toLong ht "enable" = some 0 then none else some ht
  | none => none

def appliedField (request : Request) (name : String) : Option Int :=
  (appliedPost jsonDecode toLong request).bind (posted toLong · name)

def typeAfter (mcm : CtrlModule) (request : Request) : Nat :=
  ((appliedField jsonDecode toLong request "samplingType").map toByte).getD
    mcm.samplingType

def rateAfter (mcm : CtrlModule) (request : Request) : Int :=
  if typeAfter jsonDecode toLong mcm request = samplingRateType then
    (appliedField jsonDecode toLong request "samplingRate").getD
      mcm.samplingRate
  else mcm.samplingRate

def limitAfter (mcm : CtrlModule) (request : Request) : Int :=
  if typeAfter jsonDecode toLong mcm request = samplingRateType then
    mcm.samplingRequest
  else
    (appliedField jsonDecode toLong request "samplingRequest").getD
      mcm.samplingRequest

def StoresZero (mrt : MoCtrl) (request : Request) : Prop :=
  typeAfter jsonDecode toLong mrt.mcm request = samplingRateType ∧
    appliedField jsonDecode toLong request "samplingRate" = some 0

variable (build : HeaderBuild)

/-- A request sampled by rate finds one, its own post included. -/
def FindsRate (mrt : MoCtrl) (request : Request) : Prop :=
  request.input.received build.recSampled = none →
    typeAfter jsonDecode toLong mrt.mcm request = samplingRateType →
      rateAfter jsonDecode toLong mrt.mcm request ≠ 0

def Divides (mrt : MoCtrl) (request : Request) : Prop :=
  (serve jsonDecode toLong build mrt request).1 ≠ none

def servedAfter (mrt : MoCtrl) (request : Request) : MoCtrl :=
  (serve jsonDecode toLong build mrt request).2

end Settings

section Runs

variable {jsonDecode : String → Zval} {toLong : Zval → Int}
  {build : HeaderBuild}

theorem updateType_samplingType_eq (mcm : CtrlModule) (ht : HashTable) :
    (mcm.updateType toLong ht).samplingType =
      ((posted toLong ht "samplingType").map toByte).getD
        mcm.samplingType := by
  unfold CtrlModule.updateType
  cases posted toLong ht "samplingType" <;> rfl

theorem updateLimit_settings (toLong : Zval → Int) (mcm : CtrlModule)
    (ht : HashTable) :
    (mcm.updateLimit toLong ht).samplingType = mcm.samplingType ∧
      (mcm.updateLimit toLong ht).samplingRate =
        (if mcm.samplingType = samplingRateType then
          (posted toLong ht "samplingRate").getD mcm.samplingRate
        else mcm.samplingRate) ∧
      (mcm.updateLimit toLong ht).samplingRequest =
        if mcm.samplingType = samplingRateType then mcm.samplingRequest
        else (posted toLong ht "samplingRequest").getD
          mcm.samplingRequest := by
  rw [updateLimit_eq]
  split
  · exact ⟨rfl, rfl, rfl⟩
  · exact ⟨rfl, rfl, rfl⟩

theorem update_settings (mcm : CtrlModule) {ht : HashTable}
    (enabled : posted toLong ht "enable" ≠ some 0) :
    (mcm.update toLong ht).samplingType =
        ((posted toLong ht "samplingType").map toByte).getD mcm.samplingType ∧
      (mcm.update toLong ht).samplingRate =
        (if ((posted toLong ht "samplingType").map toByte).getD
            mcm.samplingType = samplingRateType then
          (posted toLong ht "samplingRate").getD mcm.samplingRate
        else mcm.samplingRate) ∧
      (mcm.update toLong ht).samplingRequest =
        if ((posted toLong ht "samplingType").map toByte).getD
            mcm.samplingType = samplingRateType then mcm.samplingRequest
        else (posted toLong ht "samplingRequest").getD
          mcm.samplingRequest := by
  obtain ⟨on, updated, onType, onRate, onRequest⟩ :=
    update_of_enabled mcm enabled
  have settings := updateLimit_settings toLong (on.updateType toLong ht) ht
  rw [updateType_samplingType_eq, (updateType_limits on ht).1,
    (updateType_limits on ht).2, onType, onRate, onRequest] at settings
  rw [updated]
  exact settings

theorem update_of_disabled (mcm : CtrlModule) {ht : HashTable}
    (disabled : posted toLong ht "enable" = some 0) :
    mcm.update toLong ht = { mcm with enable := 0 } := by
  rw [CtrlModule.update, disabled]
  rfl

theorem moRequestHandle_fst (mrt : MoCtrl) (request : Request) :
    (moRequestHandle jsonDecode toLong mrt request).1 =
      match postedTable jsonDecode request with
      | some ht => mrt.mcm.update toLong ht
      | none => mrt.mcm := by
  unfold moRequestHandle postedTable
  by_cases get : request.asks "GET"
  · rw [if_pos get, if_pos get]
  · rw [if_neg get, if_neg get]
    by_cases post : request.asks "POST"
    · rw [if_pos post, if_pos post]
      cases request.body with
      | none => rfl
      | some body =>
          rw [Option.map_some]
          cases decoded : jsonDecode body with
          | array ht => rw [moCtrlUpdateSampling_of_array decoded]
          | _ => rw [moCtrlUpdateSampling_of_not_array (by simp [decoded])]
    · rw [if_neg post, if_neg post]

theorem settings_of_not_applied (mcm : CtrlModule) {request : Request}
    (unread : appliedPost jsonDecode toLong request = none) :
    typeAfter jsonDecode toLong mcm request = mcm.samplingType ∧
      rateAfter jsonDecode toLong mcm request = mcm.samplingRate ∧
      limitAfter jsonDecode toLong mcm request = mcm.samplingRequest := by
  simp [limitAfter, rateAfter, typeAfter, appliedField, unread]

theorem moRequestHandle_settings (jsonDecode : String → Zval)
    (toLong : Zval → Int) (mrt : MoCtrl) (request : Request) :
    (moRequestHandle jsonDecode toLong mrt request).1.samplingType =
        typeAfter jsonDecode toLong mrt.mcm request ∧
      (moRequestHandle jsonDecode toLong mrt request).1.samplingRate =
        rateAfter jsonDecode toLong mrt.mcm request ∧
      (moRequestHandle jsonDecode toLong mrt request).1.samplingRequest =
        limitAfter jsonDecode toLong mrt.mcm request := by
  rw [moRequestHandle_fst]
  cases table : postedTable jsonDecode request with
  | none =>
      have unread : appliedPost jsonDecode toLong request = none := by
        rw [appliedPost, table]
      have kept := settings_of_not_applied mrt.mcm unread
      exact ⟨kept.1.symm, kept.2.1.symm, kept.2.2.symm⟩
  | some ht =>
      by_cases off : posted toLong ht "enable" = some 0
      · have unread : appliedPost jsonDecode toLong request = none := by
          rw [appliedPost, table]
          exact if_pos off
        have kept := settings_of_not_applied mrt.mcm unread
        show (mrt.mcm.update toLong ht).samplingType = _ ∧
          (mrt.mcm.update toLong ht).samplingRate = _ ∧
            (mrt.mcm.update toLong ht).samplingRequest = _
        rw [update_of_disabled mrt.mcm off]
        exact ⟨kept.1.symm, kept.2.1.symm, kept.2.2.symm⟩
      · have applied : appliedPost jsonDecode toLong request = some ht := by
          rw [appliedPost, table]
          exact if_neg off
        rw [limitAfter, rateAfter, typeAfter, appliedField, appliedField,
          appliedField, applied]
        exact update_settings mrt.mcm off

theorem moCtrlSampling_eq_none_iff {input : RequestInput} {mcm : CtrlModule}
    {msr : SamplingRecord} :
    moCtrlSampling build input mcm msr = none ↔
      input.received build.recSampled = none ∧
        mcm.samplingType = samplingRateType ∧ mcm.samplingRate = 0 := by
  cases received : input.received build.recSampled with
  | some text => simp [moCtrlSampling_of_received received]
  | none =>
      by_cases rated : mcm.samplingType = samplingRateType
      · simp [moCtrlSampling, received, rated, checkHitRatio]
      · simp [moCtrlSampling_of_limit received rated, rated]

theorem divides_iff_findsRate (mrt : MoCtrl) (request : Request) :
    Divides jsonDecode toLong build mrt request ↔
      FindsRate jsonDecode toLong build mrt request := by
  have settings := moRequestHandle_settings jsonDecode toLong mrt request
  rw [Divides, serve_fst, Ne, Option.map_eq_none_iff,
    moCtrlSampling_eq_none_iff, settings.1, settings.2.1, FindsRate]
  tauto

theorem rateAfter_ne_zero {mrt : MoCtrl} {request : Request}
    (rate : mrt.mcm.samplingRate ≠ 0)
    (stores : ¬ StoresZero jsonDecode toLong mrt request) :
    rateAfter jsonDecode toLong mrt.mcm request ≠ 0 := by
  rw [rateAfter]
  split
  · rename_i rated
    cases field : appliedField jsonDecode toLong request "samplingRate" with
    | none => exact rate
    | some value =>
        rintro zero
        exact stores ⟨rated, field.trans (congrArg some zero)⟩
  · exact rate

theorem servedAfter_samplingRate (mrt : MoCtrl) (request : Request) :
    (servedAfter jsonDecode toLong build mrt request).mcm.samplingRate =
      rateAfter jsonDecode toLong mrt.mcm request := by
  rw [servedAfter, serve_mcm]
  exact (moRequestHandle_settings jsonDecode toLong mrt request).2.1

theorem divides_of_not_storesZero {mrt : MoCtrl} {requests : List Request}
    (rate : mrt.mcm.samplingRate ≠ 0)
    (stores : Along (servedAfter jsonDecode toLong build)
      (fun mrt request => ¬ StoresZero jsonDecode toLong mrt request) mrt
      requests) :
    Along (servedAfter jsonDecode toLong build)
      (Divides jsonDecode toLong build) mrt requests := by
  induction requests generalizing mrt with
  | nil => trivial
  | cons request requests induction =>
      have kept := rateAfter_ne_zero rate stores.1
      constructor
      · exact (divides_iff_findsRate mrt request).mpr fun _ _ => kept
      · refine induction ?_ stores.2
        rw [servedAfter_samplingRate]
        exact kept

/-- From every configuration the run divides by zero just when a request is
sampled by a rate of zero, and never as long as no post stores a zero. -/
theorem sampling_divides_iff (jsonDecode : String → Zval)
    (toLong : Zval → Int) (build : HeaderBuild) (ini : IniSettings) (min : Int)
    (requests : List Request) :
    (Along (servedAfter jsonDecode toLong build)
        (Divides jsonDecode toLong build) (moCtrlCtor ini min) requests ↔
      Along (servedAfter jsonDecode toLong build)
        (FindsRate jsonDecode toLong build) (moCtrlCtor ini min) requests) ∧
    (Along (servedAfter jsonDecode toLong build)
        (fun mrt request => ¬ StoresZero jsonDecode toLong mrt request)
        (moCtrlCtor ini min) requests →
      Along (servedAfter jsonDecode toLong build)
        (Divides jsonDecode toLong build) (moCtrlCtor ini min) requests) := by
  have rate : (moCtrlCtor ini min).mcm.samplingRate ≠ 0 := by
    have positive := ini.samplingRate_pos
    show ini.samplingRate ≠ 0
    omega
  exact ⟨along_iff divides_iff_findsRate, divides_of_not_storesZero rate⟩

end Runs

/-! A run whose first post stores a zero. -/

def defaultIni : IniSettings where
  samplingType := 1
  samplingRate := 64
  samplingRequest := 1000
  samplingRate_pos := by decide

def zeroRatePost : String := "\x7b\"samplingRate\":0\x7d"

def zeroRateRequest : Request where
  requestUri := some statusUri
  requestMethod := some "POST"
  body := some zeroRatePost
  input := ⟨false, fun _ => none, "10.0.0.1", 20, 7, "0011223344556677"⟩

def zeroRateTable (body : String) : Zval :=
  if body = zeroRatePost then .array [(.name "samplingRate", .long 0)]
  else .null

theorem zeroRateRequest_divides :
    ¬ Along (servedAfter zeroRateTable longValue .molten)
        (Divides zeroRateTable longValue .molten) (moCtrlCtor defaultIni 7)
        [zeroRateRequest] := by
  intro along
  obtain ⟨divides, -⟩ := along
  exact divides (by decide)

end Molten.Ctrl
