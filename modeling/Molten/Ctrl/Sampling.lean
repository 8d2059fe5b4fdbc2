import Molten.Chain.Names

namespace Molten.Ctrl

open Molten.Chain
open Molten.Text

/-! The sampling decision taken when a request starts. -/

structure CtrlModule where
  enable : Nat
  samplingType : Nat
  samplingRate : Int
  samplingRequest : Int
  deriving DecidableEq, Repr

structure SamplingRecord where
  lastMin : Int
  requestNum : Int
  deriving DecidableEq, Repr

def samplingRateType : Nat := 1

/-- `num` is what `random` drew.  A zero base raises `SIGFPE`. -/
def checkHitRatio (num : Nat) (base : Int) : Option Bool :=
  if base = 0 then none else some ((num : Int).tmod base = 0)

def SamplingRecord.count (record : SamplingRecord) (minute : Int) :
    SamplingRecord :=
  if minute = record.lastMin then
    { record with requestNum := record.requestNum + 1 }
  else
    { lastMin := minute, requestNum := 0 }

/-- The decision and the record afterwards, or `none` when the rate is zero. -/
def moCtrlSampling (build : HeaderBuild) (input : RequestInput)
    (module : CtrlModule) (record : SamplingRecord) :
    Option (Bool × SamplingRecord) :=
  match input.received build.recSampled with
  | some text => some (startsWith text "1", record)
  | none =>
      if module.samplingType = samplingRateType then
        (checkHitRatio input.num module.samplingRate).map (·, record)
      else
        let record := record.count input.minute
        some (record.requestNum < module.samplingRequest, record)

theorem moCtrlSampling_of_received {build : HeaderBuild}
    {input : RequestInput} {text : String}
    (h : input.received build.recSampled = some text)
    (module : CtrlModule) (record : SamplingRecord) :
    moCtrlSampling build input module record =
      some (startsWith text "1", record) := by
  simp [moCtrlSampling, h]

theorem moCtrlSampling_of_limit {build : HeaderBuild}
    {input : RequestInput} {module : CtrlModule}
    (h : input.received build.recSampled = none)
    (htype : module.samplingType ≠ samplingRateType)
    (record : SamplingRecord) :
    moCtrlSampling build input module record =
      some (decide ((record.count input.minute).requestNum <
        module.samplingRequest), record.count input.minute) := by
  simp [moCtrlSampling, h, htype]

end Molten.Ctrl
