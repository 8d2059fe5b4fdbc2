import Molten.Chain.Header
import Molten.Ctrl.Sampling

namespace Molten.Chain

open Molten.Text
open Molten.Span
open Molten.Ctrl

/-! The trace state at the start of a request. -/

structure ChainState where
  isSampled : Bool
  pch : ChainHeader
  span : SpanState
  deriving DecidableEq, Repr

def moChainCtor (headers : HeaderBuild) (build : IdBuild)
    (input : RequestInput) (state : ChainState) : ChainState :=
  if state.isSampled then
    let (pch, span) := moBuildChainHeader build input
      (moInitChainHeader headers state.pch.ip state.pch.port) state.span
    { state with pch := pch, span := span }
  else state

def startChain (headers : HeaderBuild) (build : IdBuild)
    (input : RequestInput) (module : CtrlModule) (record : SamplingRecord)
    (prior : ChainState) : Option (ChainState × SamplingRecord) :=
  (moCtrlSampling headers input module record).map fun (isSampled, record) =>
    let span := if isSampled then prior.span.initSpanContext else prior.span
    (moChainCtor headers build input
      { prior with isSampled := isSampled, span := span }, record)

theorem startChain_sampled {headers : HeaderBuild} {build : IdBuild}
    {input : RequestInput} {module : CtrlModule}
    {record record' : SamplingRecord} {prior state : ChainState}
    (h : startChain headers build input module record prior =
      some (state, record')) (hsampled : state.isSampled = true) :
    moCtrlSampling headers input module record = some (true, record') ∧
    ∃ ip port, state.pch =
        (TraceContext.ofInput headers input).header headers ip port ∧
      state.span = (TraceContext.ofInput headers input).entry build
        prior.span.initSpanContext := by
  rw [startChain, Option.map_eq_some_iff] at h
  obtain ⟨⟨decision, after⟩, hdecision, hstate⟩ := h
  obtain ⟨rfl, rfl⟩ := Prod.mk.injEq .. ▸ hstate
  cases decision with
  | false => simp [moChainCtor] at hsampled
  | true =>
      obtain ⟨ip, port, hbuild⟩ := moBuildChainHeader_init headers build input
        prior.pch.ip prior.pch.port prior.span.initSpanContext
      exact ⟨hdecision, ip, port, by simp [moChainCtor, hbuild]⟩

theorem ids_startChain {headers : HeaderBuild} {build : IdBuild}
    {input : RequestInput} {module : CtrlModule}
    {record record' : SamplingRecord} {prior state : ChainState}
    (h : startChain headers build input module record prior =
      some (state, record')) (hsampled : state.isSampled = true) :
    ∃ mainId, state.span.ids =
      mainId :: (input.received headers.recParentSpanId).toList := by
  obtain ⟨-, ip, port, -, hspan⟩ := startChain_sampled h hsampled
  rw [hspan, TraceContext.entry, ids_pushEntry, SpanState.ids_initSpanContext,
    List.append_nil]
  exact ⟨_, rfl⟩

theorem startsWith_sampled_of_moCtrlSampling {headers : HeaderBuild}
    {input : RequestInput} {module : CtrlModule}
    {record record' : SamplingRecord}
    (h : moCtrlSampling headers input module record = some (true, record')) :
    startsWith (TraceContext.ofInput headers input).sampled "1" = true := by
  cases hreceived : input.received headers.recSampled with
  | none =>
      have hdefault : startsWith "1" "1" = true := by decide
      simpa [TraceContext.ofInput, hreceived] using hdefault
  | some text =>
      rw [moCtrlSampling_of_received hreceived] at h
      simpa [TraceContext.ofInput, hreceived] using
        congrArg Prod.fst (Option.some.inj h)

end Molten.Chain
