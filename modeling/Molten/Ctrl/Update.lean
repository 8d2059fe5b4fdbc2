import Molten.Ctrl.Sampling
import Molten.Php.Zval

namespace Molten.Ctrl

open Molten.Php

/-! The control settings that a `POST` changes and a `GET` reports. -/

structure ReportInfo where
  requestAll : Nat
  requestCapture : Nat
  deriving DecidableEq, Repr

def spanVersion : String := "php-4"

def longText (count : Nat) : String :=
  toString ((count : Int).bmod (2 ^ 64))

def metric (name help kind value : String) : String :=
  "# HELP " ++ name ++ " " ++ help ++ "\n" ++
  "# TYPE " ++ name ++ " " ++ kind ++ "\n" ++
  name ++ " " ++ value ++ "\n"

/-- The text of the report with its values left open. -/
def statusText (requestAll requestCapture samplingType samplingRate
    samplingRequest : String) : String :=
  metric "molten_request_all" "Number of all request." "counter"
    requestAll ++
  metric "molten_request_capture" "Number of request be capture." "counter"
    requestCapture ++
  metric "molten_sampling_type" "the type of sampling." "gauge"
    samplingType ++
  metric "molten_sampling_rate" "the rate of sampling." "gauge"
    samplingRate ++
  metric "molten_sampling_request" "the request be capture one min." "gauge"
    samplingRequest ++
  metric "molten_version" "current molten span version." "gauge" spanVersion

theorem metric_inj {name help kind value other : String} :
    metric name help kind value = metric name help kind other ↔
      value = other := by
  unfold metric
  rw [String.append_left_inj, String.append_right_inj]

theorem statusText_type_inj {a b c c' d e : String} :
    statusText a b c d e = statusText a b c' d e ↔ c = c' := by
  unfold statusText
  rw [String.append_left_inj, String.append_left_inj, String.append_left_inj,
    String.append_right_inj, metric_inj]

theorem statusText_rate_inj {a b c d d' e : String} :
    statusText a b c d e = statusText a b c d' e ↔ d = d' := by
  unfold statusText
  rw [String.append_left_inj, String.append_left_inj,
    String.append_right_inj, metric_inj]

def moCtrlSerializeMsg (mri : ReportInfo) (mcm : CtrlModule) : String :=
  statusText (longText mri.requestAll) (longText mri.requestCapture)
    (toString mcm.samplingType) (toString mcm.samplingRate)
    (toString mcm.samplingRequest)

section Update

-- `php_json_decode_ex` with objects as arrays, and `convert_to_long`
variable (jsonDecode : String → Zval) (toLong : Zval → Int)

def posted (ht : HashTable) (name : String) : Option Int :=
  (ht.find (.name name)).map toLong

def toByte (value : Int) : Nat := (value % 2 ^ 8).toNat

def CtrlModule.updateType (mcm : CtrlModule) (ht : HashTable) : CtrlModule :=
  match posted toLong ht "samplingType" with
  | some value => { mcm with samplingType := toByte value }
  | none => mcm

def CtrlModule.updateLimit (mcm : CtrlModule) (ht : HashTable) : CtrlModule :=
  if mcm.samplingType = samplingRateType then
    match posted toLong ht "samplingRate" with
    | some value => { mcm with samplingRate := value }
    | none => mcm
  else
    match posted toLong ht "samplingRequest" with
    | some value => { mcm with samplingRequest := value }
    | none => mcm

def CtrlModule.update (mcm : CtrlModule) (ht : HashTable) : CtrlModule :=
  match posted toLong ht "enable" with
  | some 0 => { mcm with enable := 0 }
  | some _ =>
      (({ mcm with enable := 1 }).updateType toLong ht).updateLimit toLong ht
  | none => (mcm.updateType toLong ht).updateLimit toLong ht

def moCtrlUpdateSampling (rec : Option String) (mcm : CtrlModule) :
    Int × CtrlModule :=
  match rec with
  | none => (-1, mcm)
  | some rec =>
      match jsonDecode rec with
      | .array ht => (0, mcm.update toLong ht)
      | _ => (-1, mcm)

end Update

/-! What a `POST` promises of the next report. -/

def Integers (ht : HashTable) : Prop :=
  ∀ name ∈ ["enable", "samplingType", "samplingRate", "samplingRequest"],
    ∀ value, ht.find (.name name) = some value → ∃ number, value = .long number

def postedLong (ht : HashTable) (name : String) : Option Int :=
  match ht.find (.name name) with
  | some (.long number) => some number
  | _ => none

def reportText (mri : ReportInfo) (samplingType samplingRate
    samplingRequest : Int) : String :=
  statusText (longText mri.requestAll) (longText mri.requestCapture)
    (toString samplingType) (toString samplingRate) (toString samplingRequest)

def Agrees (ht : HashTable) (mri : ReportInfo) (mcm : CtrlModule)
    (text : String) : Prop :=
  text = reportText mri
    ((postedLong ht "samplingType").getD mcm.samplingType)
    ((postedLong ht "samplingRate").getD mcm.samplingRate)
    ((postedLong ht "samplingRequest").getD mcm.samplingRequest)

/-- The settings that a post leaves: all of them when it switches off, and
otherwise only the limit of the resulting type is replaced. -/
def Applied (ht : HashTable) (mri : ReportInfo) (mcm : CtrlModule)
    (text : String) : Prop :=
  ∃ samplingType samplingRate samplingRequest : Int,
    text = reportText mri samplingType samplingRate samplingRequest ∧
    (postedLong ht "enable" = some 0 →
      samplingType = mcm.samplingType ∧ samplingRate = mcm.samplingRate ∧
        samplingRequest = mcm.samplingRequest) ∧
    (postedLong ht "enable" ≠ some 0 →
      samplingType =
        ((postedLong ht "samplingType").map (· % 2 ^ 8)).getD
          (mcm.samplingType : Int) ∧
      samplingRate =
        (if samplingType = samplingRateType then
          (postedLong ht "samplingRate").getD mcm.samplingRate
        else mcm.samplingRate) ∧
      samplingRequest =
        (if samplingType = samplingRateType then mcm.samplingRequest
        else (postedLong ht "samplingRequest").getD mcm.samplingRequest))

section Reports

variable {jsonDecode : String → Zval} {toLong : Zval → Int}

theorem posted_eq_postedLong {ht : HashTable}
    (hlong : ∀ number, toLong (.long number) = number)
    (hinteger : Integers ht) (name : String)
    (hname : name ∈
      ["enable", "samplingType", "samplingRate", "samplingRequest"]) :
    posted toLong ht name = postedLong ht name := by
  unfold posted postedLong
  cases hfind : ht.find (.name name) with
  | none => rfl
  | some value =>
      obtain ⟨number, rfl⟩ := hinteger name hname value hfind
      rw [Option.map_some, hlong]

theorem moCtrlSerializeMsg_eq (mri : ReportInfo) (mcm : CtrlModule) :
    moCtrlSerializeMsg mri mcm =
      reportText mri mcm.samplingType mcm.samplingRate mcm.samplingRequest :=
  rfl

theorem updateType_samplingType (mcm : CtrlModule) (ht : HashTable) :
    ((mcm.updateType toLong ht).samplingType : Int) =
      ((posted toLong ht "samplingType").map (· % 2 ^ 8)).getD
        (mcm.samplingType : Int) := by
  unfold CtrlModule.updateType
  cases posted toLong ht "samplingType" with
  | none => rfl
  | some value =>
      show ((toByte value : Nat) : Int) = value % 2 ^ 8
      unfold toByte
      omega

theorem updateType_limits (mcm : CtrlModule) (ht : HashTable) :
    (mcm.updateType toLong ht).samplingRate = mcm.samplingRate ∧
      (mcm.updateType toLong ht).samplingRequest = mcm.samplingRequest := by
  unfold CtrlModule.updateType
  split <;> exact ⟨rfl, rfl⟩

theorem updateLimit_eq (mcm : CtrlModule) (ht : HashTable) :
    mcm.updateLimit toLong ht =
      if mcm.samplingType = samplingRateType then
        { mcm with
          samplingRate :=
            (posted toLong ht "samplingRate").getD mcm.samplingRate }
      else
        { mcm with
          samplingRequest :=
            (posted toLong ht "samplingRequest").getD
              mcm.samplingRequest } := by
  unfold CtrlModule.updateLimit
  split
  · cases posted toLong ht "samplingRate" <;> rfl
  · cases posted toLong ht "samplingRequest" <;> rfl

theorem updateLimit_reports (mri : ReportInfo) (mcm : CtrlModule)
    (ht : HashTable) (samplingType : Int)
    (htype : (mcm.samplingType : Int) = samplingType) :
    moCtrlSerializeMsg mri (mcm.updateLimit toLong ht) =
      reportText mri samplingType
        (if samplingType = samplingRateType then
          (posted toLong ht "samplingRate").getD mcm.samplingRate
        else mcm.samplingRate)
        (if samplingType = samplingRateType then mcm.samplingRequest
        else (posted toLong ht "samplingRequest").getD
          mcm.samplingRequest) := by
  subst htype
  rw [updateLimit_eq, moCtrlSerializeMsg_eq]
  by_cases hrate : mcm.samplingType = samplingRateType
  · have hrate' : (mcm.samplingType : Int) = samplingRateType := by
      rw [hrate]
    rw [if_pos hrate, if_pos hrate', if_pos hrate']
  · have hrate' : (mcm.samplingType : Int) ≠ samplingRateType := by
      exact_mod_cast hrate
    rw [if_neg hrate, if_neg hrate', if_neg hrate']

/-- Unless it switches off, a post changes at most the switch before the other
fields are looked at. -/
theorem update_of_enabled (mcm : CtrlModule) {ht : HashTable}
    (henable : posted toLong ht "enable" ≠ some 0) :
    ∃ on : CtrlModule,
      mcm.update toLong ht = (on.updateType toLong ht).updateLimit toLong ht ∧
      on.samplingType = mcm.samplingType ∧
      on.samplingRate = mcm.samplingRate ∧
      on.samplingRequest = mcm.samplingRequest := by
  rw [CtrlModule.update]
  split
  · contradiction
  · exact ⟨{ mcm with enable := 1 }, rfl, rfl, rfl, rfl⟩
  · exact ⟨mcm, rfl, rfl, rfl, rfl⟩

theorem update_applied (hlong : ∀ number, toLong (.long number) = number)
    {ht : HashTable} (hinteger : Integers ht) (mri : ReportInfo)
    (mcm : CtrlModule) :
    Applied ht mri mcm (moCtrlSerializeMsg mri (mcm.update toLong ht)) := by
  have henable := posted_eq_postedLong hlong hinteger "enable" (by simp)
  have htype := posted_eq_postedLong hlong hinteger "samplingType" (by simp)
  have hrate := posted_eq_postedLong hlong hinteger "samplingRate" (by simp)
  have hrequest :=
    posted_eq_postedLong hlong hinteger "samplingRequest" (by simp)
  by_cases hoff : postedLong ht "enable" = some 0
  · refine ⟨_, _, _, ?_, fun _ => ⟨rfl, rfl, rfl⟩, fun h => absurd hoff h⟩
    rw [CtrlModule.update, henable, hoff]
    rfl
  · -- `enable` itself is not reported
    obtain ⟨on, hupdate, honType, honRate, honRequest⟩ :=
      update_of_enabled mcm
        (show posted toLong ht "enable" ≠ some 0 from henable ▸ hoff)
    refine ⟨_, _, _, ?_, fun h => absurd h hoff, fun _ => ⟨rfl, rfl, rfl⟩⟩
    rw [hupdate, updateLimit_reports mri _ ht _
      (updateType_samplingType on ht), (updateType_limits on ht).1,
      (updateType_limits on ht).2, honType, honRate, honRequest, htype, hrate,
      hrequest]

theorem moCtrlUpdateSampling_of_array {body : String} {ht : HashTable}
    (h : jsonDecode body = .array ht) (mcm : CtrlModule) :
    moCtrlUpdateSampling jsonDecode toLong (some body) mcm =
      (0, mcm.update toLong ht) := by
  simp only [moCtrlUpdateSampling, h]

theorem moCtrlUpdateSampling_of_not_array {body : String}
    (h : ∀ ht, jsonDecode body ≠ .array ht) (mcm : CtrlModule) :
    moCtrlUpdateSampling jsonDecode toLong (some body) mcm = (-1, mcm) := by
  unfold moCtrlUpdateSampling
  cases hdecode : jsonDecode body with
  | array ht => exact absurd hdecode (h ht)
  | _ => simp only

end Reports

/-! The post of the status test, one that switches off and sets a rate, and
one whose type does not fit a byte. -/

def statusPost : String :=
  "\x7b\"samplingType\":2,\"samplingRate\":1783,\"samplingRequest\":4443\x7d"

def offPost : String := "\x7b\"enable\":0,\"samplingRate\":5\x7d"

def widePost : String := "\x7b\"samplingType\":257\x7d"

def decodedPost (body : String) : HashTable :=
  if body = statusPost then
    [(.name "samplingType", .long 2), (.name "samplingRate", .long 1783),
      (.name "samplingRequest", .long 4443)]
  else if body = offPost then
    [(.name "enable", .long 0), (.name "samplingRate", .long 5)]
  else if body = widePost then [(.name "samplingType", .long 257)]
  else []

def longValue : Zval → Int
  | .bool true => 1
  | .long number => number
  | _ => 0

def defaultSettings : CtrlModule :=
  { enable := 1, samplingType := 1, samplingRate := 20,
    samplingRequest := 100 }

theorem decodedPost_statusPost :
    decodedPost statusPost =
      [(.name "samplingType", .long 2), (.name "samplingRate", .long 1783),
        (.name "samplingRequest", .long 4443)] :=
  if_pos rfl

theorem decodedPost_offPost :
    decodedPost offPost =
      [(.name "enable", .long 0), (.name "samplingRate", .long 5)] := by
  rw [decodedPost, if_neg (by decide), if_pos rfl]

theorem decodedPost_widePost :
    decodedPost widePost = [(.name "samplingType", .long 257)] := by
  rw [decodedPost, if_neg (by decide), if_neg (by decide), if_pos rfl]

/-- A `POST` either fails and changes nothing, or the next report shows what
it applied. -/
theorem status_after_update {jsonDecode : String → Zval}
    {toLong : Zval → Int}
    (hlong : ∀ number, toLong (.long number) = number)
    {rec : Option String}
    (hinteger : ∀ body ht, rec = some body → jsonDecode body = .array ht →
      Integers ht)
    (mri : ReportInfo) (mcm : CtrlModule) :
    (moCtrlUpdateSampling jsonDecode toLong rec mcm).1 = -1 ∧
        (moCtrlUpdateSampling jsonDecode toLong rec mcm).2 = mcm ∨
      (moCtrlUpdateSampling jsonDecode toLong rec mcm).1 = 0 ∧
        ∃ body ht, rec = some body ∧ jsonDecode body = .array ht ∧
          Applied ht mri mcm (moCtrlSerializeMsg mri
            (moCtrlUpdateSampling jsonDecode toLong rec mcm).2) := by
  cases rec with
  | none => exact .inl ⟨rfl, rfl⟩
  | some body =>
      by_cases harray : ∃ ht, jsonDecode body = .array ht
      · obtain ⟨ht, hdecode⟩ := harray
        rw [moCtrlUpdateSampling_of_array hdecode]
        exact .inr ⟨rfl, body, ht, rfl, hdecode,
          update_applied hlong (hinteger body ht rfl hdecode) mri mcm⟩
      · rw [moCtrlUpdateSampling_of_not_array (not_exists.mp harray)]
        exact .inl ⟨rfl, rfl⟩

theorem integers_statusPost : Integers (decodedPost statusPost) := by
  rw [decodedPost_statusPost]
  intro name _ value hfind
  simp only [HashTable.find] at hfind
  split at hfind
  · exact ⟨_, (Option.some.inj hfind).symm⟩
  · split at hfind
    · exact ⟨_, (Option.some.inj hfind).symm⟩
    · split at hfind
      · exact ⟨_, (Option.some.inj hfind).symm⟩
      · contradiction

theorem status_after_statusPost :
    Applied (decodedPost statusPost) ⟨7, 3⟩ defaultSettings
      (moCtrlSerializeMsg ⟨7, 3⟩ (moCtrlUpdateSampling
        (fun text => .array (decodedPost text)) longValue (some statusPost)
        defaultSettings).2) := by
  have hinteger : ∀ body ht, some statusPost = some body →
      Zval.array (decodedPost body) = .array ht → Integers ht := by
    rintro _ _ ⟨⟩ ⟨⟩
    exact integers_statusPost
  obtain ⟨hret, -⟩ | ⟨-, _, _, ⟨⟩, ⟨⟩, happlied⟩ :=
    @status_after_update (fun text => .array (decodedPost text)) longValue
      (fun _ => rfl) _ hinteger ⟨7, 3⟩ defaultSettings
  · exact absurd hret (by decide)
  · exact happlied

def reportAfter (body : String) : String :=
  moCtrlSerializeMsg ⟨7, 3⟩
    (moCtrlUpdateSampling (fun text => .array (decodedPost text)) longValue
      (some body) defaultSettings).2

theorem posts_disagree :
    ¬ Agrees (decodedPost statusPost) ⟨7, 3⟩ defaultSettings
        (reportAfter statusPost) ∧
      ¬ Agrees (decodedPost offPost) ⟨7, 3⟩ defaultSettings
        (reportAfter offPost) ∧
      ¬ Agrees (decodedPost widePost) ⟨7, 3⟩ defaultSettings
        (reportAfter widePost) := by
  refine ⟨fun hagrees => ?_, fun hagrees => ?_, fun hagrees => ?_⟩
  all_goals rw [reportAfter, moCtrlUpdateSampling_of_array rfl] at hagrees
  · -- a rate is dropped when the resulting type is another one
    rw [decodedPost_statusPost] at hagrees
    exact absurd (statusText_rate_inj.mp hagrees) (by decide)
  · -- switching off drops everything else
    rw [decodedPost_offPost] at hagrees
    exact absurd (statusText_rate_inj.mp hagrees) (by decide)
  · -- the type keeps one byte
    rw [decodedPost_widePost] at hagrees
    exact absurd (statusText_type_inj.mp hagrees) (by decide)

end Molten.Ctrl
