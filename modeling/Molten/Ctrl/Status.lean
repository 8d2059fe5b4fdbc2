import Molten.Control.Machine
import Molten.Ctrl.Update

namespace Molten.Ctrl

open Molten.Chain
open Molten.Control
open Molten.Php
open Molten.Text

/-! The status URI, and the switch that is posted to it. -/

def contains (text part : String) : Bool :=
  text.toList.tails.any fun rest => part.toList.isPrefixOf rest

def statusUri : String := "/molten/status"

structure Request where
  requestUri : Option String
  requestMethod : Option String
  body : Option String
  input : RequestInput

structure Response where
  code : Nat
  headers : List String
  output : String
  deriving DecidableEq, Repr

structure MoCtrl where
  mcm : CtrlModule
  mri : ReportInfo
  msr : SamplingRecord
  deriving DecidableEq, Repr

def Request.asks (request : Request) (method : String) : Bool :=
  match request.requestUri, request.requestMethod with
  | some uri, some requested =>
      contains uri statusUri && startsWith requested method
  | _, _ => false

def noCache : String :=
  "Cache-Control: no-cache, no-store, must-revalidate, max-age=0"

def expired : String := "Expires: Thu, 01 Jan 1970 00:00:00 GMT"

def plainText : String := "Content-Type: text/plain"

def moCtrlRecord (mri : ReportInfo) (isSampled : Bool) : ReportInfo where
  requestAll := (mri.requestAll + 1) % 2 ^ 64
  requestCapture :=
    if isSampled then (mri.requestCapture + 1) % 2 ^ 64
    else mri.requestCapture

section Handle

variable (jsonDecode : String → Zval) (toLong : Zval → Int)

/-- The settings afterwards, and the response when the request is one for the
status. -/
def moRequestHandle (mrt : MoCtrl) (request : Request) :
    CtrlModule × Option Response :=
  if request.asks "GET" then
    (mrt.mcm, some
      { code := 200
        headers := [expired, noCache, plainText]
        output := moCtrlSerializeMsg mrt.mri mrt.mcm })
  else if request.asks "POST" then
    let (res, mcm) :=
      moCtrlUpdateSampling jsonDecode toLong request.body mrt.mcm
    (mcm, some
      (if res = -1 then
        { code := 400
          headers := [noCache, plainText]
          output := "[molten] update sampling error!!!" }
      else
        { code := 200
          headers := [noCache, plainText]
          output := "[molten] update sampling success!!!" }))
  else (mrt.mcm, none)

variable (build : HeaderBuild)

/-- The decision for one request and the shared memory after it.  A zero rate
raises `SIGFPE` before the request is recorded. -/
def serve (mrt : MoCtrl) (request : Request) : Option Bool × MoCtrl :=
  let mcm := (moRequestHandle jsonDecode toLong mrt request).1
  match moCtrlSampling build request.input mcm mrt.msr with
  | none => (none, { mrt with mcm })
  | some (isSampled, msr) =>
      (some isSampled, { mcm, mri := moCtrlRecord mrt.mri isSampled, msr })

def enablePosted (request : Request) : Option Int :=
  if request.asks "GET" then none
  else if request.asks "POST" then
    match request.body.map jsonDecode with
    | some (.array ht) => posted toLong ht "enable"
    | _ => none
  else none

def switch (on : Bool) (request : Request) : Bool :=
  match enablePosted jsonDecode toLong request with
  | some value => decide (value ≠ 0)
  | none => on

structure Server where
  on : Bool
  mrt : MoCtrl

def Server.next (server : Server) (request : Request) : Server where
  on := switch jsonDecode toLong server.on request
  mrt := (serve jsonDecode toLong build server.mrt request).2

end Handle

section Switch

variable {jsonDecode : String → Zval} {toLong : Zval → Int}
  {build : HeaderBuild}

theorem updateType_enable (mcm : CtrlModule) (ht : HashTable) :
    (mcm.updateType toLong ht).enable = mcm.enable := by
  unfold CtrlModule.updateType
  split <;> rfl

theorem updateLimit_enable (mcm : CtrlModule) (ht : HashTable) :
    (mcm.updateLimit toLong ht).enable = mcm.enable := by
  rw [updateLimit_eq]
  split <;> rfl

theorem update_enable (mcm : CtrlModule) (ht : HashTable) :
    (mcm.update toLong ht).enable =
      match posted toLong ht "enable" with
      | some value => if value = 0 then 0 else 1
      | none => mcm.enable := by
  unfold CtrlModule.update
  cases posted toLong ht "enable" with
  | none => rw [updateLimit_enable, updateType_enable]
  | some value =>
      by_cases hvalue : value = 0
      · rw [hvalue]
        rfl
      · show _ = if value = 0 then 0 else 1
        rw [if_neg hvalue]
        split
        · rename_i heq
          exact absurd (Option.some.inj heq) hvalue
        · rw [updateLimit_enable, updateType_enable]
        · contradiction

theorem moRequestHandle_enable (mrt : MoCtrl) (request : Request) :
    (moRequestHandle jsonDecode toLong mrt request).1.enable =
      match enablePosted jsonDecode toLong request with
      | some value => if value = 0 then 0 else 1
      | none => mrt.mcm.enable := by
  unfold moRequestHandle enablePosted
  by_cases hget : request.asks "GET"
  · rw [if_pos hget, if_pos hget]
  · rw [if_neg hget, if_neg hget]
    by_cases hpost : request.asks "POST"
    · rw [if_pos hpost, if_pos hpost]
      cases hbody : request.body with
      | none => rfl
      | some body =>
          by_cases harray : ∃ ht, jsonDecode body = .array ht
          · obtain ⟨ht, hdecode⟩ := harray
            rw [moCtrlUpdateSampling_of_array hdecode, Option.map_some,
              hdecode]
            exact update_enable mrt.mcm ht
          · have hdecode := not_exists.mp harray
            rw [moCtrlUpdateSampling_of_not_array hdecode, Option.map_some]
            cases hvalue : jsonDecode body with
            | array ht => exact absurd hvalue (hdecode ht)
            | _ => rfl
    · rw [if_neg hpost, if_neg hpost]

theorem serve_mcm (mrt : MoCtrl) (request : Request) :
    (serve jsonDecode toLong build mrt request).2.mcm =
      (moRequestHandle jsonDecode toLong mrt request).1 := by
  unfold serve
  dsimp only
  split <;> rfl

theorem enable_records {server : Server}
    (h : server.on = decide (server.mrt.mcm.enable ≠ 0))
    (requests : List Request) :
    (requests.foldl (Server.next jsonDecode toLong build) server).on =
      decide ((requests.foldl (Server.next jsonDecode toLong build)
        server).mrt.mcm.enable ≠ 0) := by
  induction requests generalizing server with
  | nil => exact h
  | cons request requests ih =>
      apply ih
      show switch jsonDecode toLong server.on request = _
      rw [Server.next, serve_mcm, moRequestHandle_enable, switch]
      cases enablePosted jsonDecode toLong request with
      | none => exact h
      | some value => by_cases hvalue : value = 0 <;> simp [hvalue]

theorem serve_fst (mrt : MoCtrl) (request : Request) :
    (serve jsonDecode toLong build mrt request).1 =
      (moCtrlSampling build request.input
        (moRequestHandle jsonDecode toLong mrt request).1 mrt.msr).map
          Prod.fst := by
  unfold serve
  dsimp only
  split <;> simp [*]

end Switch

end Molten.Ctrl
