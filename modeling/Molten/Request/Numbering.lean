import Mathlib.Data.List.Nodup
import Molten.Request.Contexts
import Molten.Request.TraceTree
import Molten.Span.Builder

namespace Molten.Request

open Molten.Php
open Molten.Span
open Molten.Chain
open Molten.Text

/-! The numbers `sk_add_span` reads off the ids of a request. -/

/-- A span with what else `sk_add_span` is given of it. -/
structure Emission where
  span : Span
  pct : ChainInfo
  name : String

namespace Emission

def table (emission : Emission) : HashTable :=
  skAddSpan emission.pct
    { name := emission.name
      spanId := emission.span.id.getD ""
      parentId := emission.span.parentId
      startTime := emission.span.start
      finishTime := emission.span.finish }

def si (emission : Emission) : Option Zval := emission.table.find (.name "si")

def ps (emission : Emission) : Option Zval := emission.table.find (.name "ps")

end Emission

/-- No number is given twice, a span without parent shows -1, and a span whose
parent is emitted shows the number of that span and of no other. -/
structure Numbered (emissions : List Emission) : Prop where
  distinct : (emissions.map Emission.si).Nodup
  root : ∀ emission ∈ emissions, emission.span.parentId = none →
    emission.ps = some (.long (-1))
  parent : ∀ emission ∈ emissions, ∀ parent ∈ emissions, ∀ id,
    emission.span.parentId = some id → parent.span.id = some id →
      ∀ other ∈ emissions, other.si = emission.ps ↔ other = parent

/-- The emitted spans show contexts whose numbers an `int` tells apart; a level
id always reads as 1. -/
def NumbersApart (ids : IdBuild) (phases : List CallSeq) : Prop :=
  match ids with
  | .level => (phasesTally phases .start).recorded = []
  | .random => ((spanContexts phases).take maxSpans).Pairwise
      fun context other => context % 2 ^ 32 ≠ other % 2 ^ 32

theorem Emission.si_eq (emission : Emission) :
    emission.si = some (.long (skReadId (emission.span.id.getD ""))) := rfl

theorem Emission.ps_eq (emission : Emission) :
    emission.ps = some (match emission.span.parentId with
      | none => .long (-1)
      | some parentId => .long (skReadId parentId)) := rfl

theorem numbered_iff_distinct (emissions : List Emission) :
    Numbered emissions ↔ (emissions.map Emission.si).Nodup := by
  refine ⟨Numbered.distinct, fun hdistinct => ⟨hdistinct, ?_, ?_⟩⟩
  · intro emission _ hnone
    rw [Emission.ps_eq, hnone]
  · intro emission _ parent hparent id hparentId hid other hother
    have hps : emission.ps = parent.si := by
      rw [Emission.ps_eq, Emission.si_eq, hparentId, hid, Option.getD_some]
    rw [hps]
    exact ⟨fun heq => List.inj_on_of_nodup_map hdistinct hother hparent heq,
      fun heq => by rw [heq]⟩

/-! What the ids read as. -/

def numberOf (ids : IdBuild) (base context : Nat) : Int :=
  match ids with
  | .level => 1
  | .random => ((base + context : Nat) : Int) % 2 ^ 32

theorem atoi_of_level {id : String}
    (h : id = "1" ∨ "1.".toList <+: id.toList) : atoi id = 1 := by
  obtain rfl | ⟨rest, hrest⟩ := h
  · decide
  · have hlist : id.toList = '1' :: '.' :: rest := hrest.symm
    have hspace : isSpace '1' = false := by decide
    have hdigit : Char.isDigit '1' = true := by decide
    have hdot : ¬ Char.isDigit '.' = true := by decide
    rw [atoi, hlist, List.dropWhile_cons_of_neg (by simp [hspace])]
    show (leadingDigits ('1' :: '.' :: rest) : Int) = 1
    rw [leadingDigits, List.takeWhile_cons_of_pos hdigit,
      List.takeWhile_cons_of_neg hdot]
    rfl

theorem skReadId_of_idOf {ids : IdBuild} {base context : Nat} {id : String}
    (h : IdOf ids base id context) :
    skReadId id = numberOf ids base context := by
  cases ids with
  | level =>
      rw [skReadId, atoi_of_level h]
      rfl
  | random =>
      have hid : id = buildSpanIdRandom (base + context) := h
      rw [hid, buildSpanIdRandom_eq_intText, skReadId, atoi_intText]
      exact Int.bmod_emod

theorem map_si_of_shows {ids : IdBuild} {base : Nat}
    {emissions : List Emission} {contexts : List Nat}
    (h : List.Forall₂ (Shows ids base) (emissions.map Emission.span)
      contexts) :
    emissions.map Emission.si =
      contexts.map fun context => some (.long (numberOf ids base context)) := by
  induction emissions generalizing contexts with
  | nil =>
      rw [List.map_nil] at h
      cases h
      rfl
  | cons emission emissions ih =>
      rw [List.map_cons] at h
      cases h with
      | cons hshows hrest =>
          obtain ⟨id, hid, hof⟩ := hshows
          rw [List.map_cons, List.map_cons, ih hrest, Emission.si_eq, hid,
            Option.getD_some, skReadId_of_idOf hof]

/-! The batch of a request. -/

theorem tallied_start {build : Build} {input : RequestInput}
    {module : Ctrl.CtrlModule} {record record' : Ctrl.SamplingRecord}
    {prior start : Globals}
    (hstart : phpRinit build input module record prior =
      some (start, record'))
    (hsampled : start.chain.isSampled = true)
    (hspanId : input.received build.headers.recSpanId = none)
    (hparentId : input.received build.headers.recParentSpanId = none) :
    Tallied build prior.chain.span.step 0 start .start := by
  obtain ⟨hactive, hspans, -⟩ := phpRinit_sampled hstart hsampled
  have hspan : start.chain.span =
      (prior.chain.span.initSpanContext).pushSpanContext build.ids := by
    rw [phpRinit, Option.map_eq_some_iff] at hstart
    obtain ⟨⟨chain, after⟩, hchain, heq⟩ := hstart
    obtain ⟨rfl, rfl⟩ := Prod.mk.injEq .. ▸ heq
    obtain ⟨-, -, -, -, hentry⟩ := startChain_sampled hchain hsampled
    rw [TraceContext.entry, TraceContext.ofInput, hspanId, hparentId] at hentry
    exact hentry
  refine ⟨hactive, Nat.one_pos, ?_, fun hrandom => ?_,
    ⟨[], hspans.trans (by rw [List.take_nil]), .nil⟩, fun handle => ?_⟩
  · rw [Globals.ids, hspan, SpanState.ids_pushSpanContext,
      SpanState.ids_initSpanContext]
    refine .cons ?_ .nil
    cases build.ids with
    | level => exact .inl rfl
    | random => rfl
  · rw [hspan, hrandom]
    rfl
  · rw [spanInfoCache_phpRinit hstart]
    rfl

theorem shows_batch {build : Build} {base : Nat} {start : Globals}
    (hstart : Tallied build base 0 start .start) (phases : List CallSeq) :
    ∃ spans, batch build phases start = some spans ∧
      List.Forall₂ (Shows build.ids base) spans
        ((spanContexts phases).take maxSpans) := by
  have hend := tallied_runPhases hstart phases
  obtain ⟨spans, hspans, hshows⟩ := hend.spans
  exact ⟨_, phpRshutdown_spans hend.active.1 hspans, List.forall₂_take _
    (List.rel_append hshows (.cons (hend.shows_startSpan .server _ _) .nil))⟩

theorem distinct_iff {ids : IdBuild} {base : Nat}
    {emissions : List Emission} {phases : List CallSeq}
    (h : List.Forall₂ (Shows ids base) (emissions.map Emission.span)
      ((spanContexts phases).take maxSpans)) :
    (emissions.map Emission.si).Nodup ↔ NumbersApart ids phases := by
  rw [map_si_of_shows h, List.Nodup, List.pairwise_map]
  cases ids with
  | random =>
      refine List.Pairwise.iff fun {context other} => ?_
      simp only [numberOf, ne_eq, Option.some.injEq, Zval.long.injEq]
      omega
  | level =>
      rw [NumbersApart, spanContexts]
      cases (phasesTally phases .start).recorded with
      | nil => simp [maxSpans]
      | cons context contexts =>
          obtain ⟨other, others, hlast⟩ : ∃ other others,
              contexts ++ [(phasesTally phases .start).top] =
                other :: others :=
            List.exists_cons_of_ne_nil (by simp)
          rw [List.cons_append, hlast]
          refine iff_of_false (fun hpairwise => ?_) (List.cons_ne_nil _ _)
          exact List.rel_of_pairwise_cons hpairwise List.mem_cons_self rfl

theorem numbersApart_of_clean {phases : List CallSeq}
    (hclean : ∀ phase ∈ phases, phase.Clean)
    (hopened : (phasesTally phases .start).opened ≤ 2 ^ 32) :
    NumbersApart .random phases := by
  obtain ⟨hstack, hlow, added, hrecorded, hnodup, hadded⟩ :=
    phasesTally_extends hclean (t := Tally.start) Nat.one_pos
  rw [NumbersApart, spanContexts, Tally.top, hstack, hrecorded]
  have hmem : ∀ context ∈ added,
      1 ≤ context ∧ context < (phasesTally phases .start).opened :=
    fun context hcontext =>
      (hadded context hcontext).resolve_left List.not_mem_nil
  have hall : (added ++ [0]).Nodup :=
    List.nodup_append.mpr ⟨hnodup, List.nodup_singleton 0, by
      rintro context hcontext _ hzero rfl
      have hpos := (hmem context hcontext).1
      rw [List.mem_singleton.mp hzero] at hpos
      contradiction⟩
  refine (hall.imp_of_mem ?_).sublist (List.take_sublist _ _)
  intro context other hcontext hother hne
  have hbound : ∀ context ∈ added ++ [0], context < 2 ^ 32 := by
    intro context hcontext
    obtain hcontext | hcontext := List.mem_append.mp hcontext
    · exact (hmem context hcontext).2.trans_le hopened
    · rw [List.mem_singleton.mp hcontext]
      decide
  rwa [Nat.mod_eq_of_lt (hbound _ hcontext),
    Nat.mod_eq_of_lt (hbound _ hother)]

/-- Without received ids, a request is numbered right exactly when the contexts
its spans show can be told apart. -/
theorem numbered_iff {build : Build} {input : RequestInput}
    {module : Ctrl.CtrlModule} {record record' : Ctrl.SamplingRecord}
    {prior start : Globals} {phases : List CallSeq}
    {emissions : List Emission}
    (hstart : phpRinit build input module record prior =
      some (start, record'))
    (hsampled : start.chain.isSampled = true)
    (hspanId : input.received build.headers.recSpanId = none)
    (hparentId : input.received build.headers.recParentSpanId = none)
    (hbatch : batch build phases start =
      some (emissions.map Emission.span)) :
    Numbered emissions ↔ NumbersApart build.ids phases := by
  have htallied := tallied_start hstart hsampled hspanId hparentId
  obtain ⟨spans, hspans, hshows⟩ := shows_batch htallied phases
  obtain rfl := Option.some.inj (hspans.symm.trans hbatch)
  rw [numbered_iff_distinct, distinct_iff hshows]

def oneCall : List CallSeq :=
  [.next (.intercepted (.span .done .done) .done) .done]

def oneCallEmissions (callId mainId : String) : List Emission :=
  let pct : ChainInfo :=
    { serviceName := "default", traceId := "00000000000000a1"
      ip := "127.0.0.1", port := 0, spanType := 1, spanLayer := 1
      componentId := 0, hasErrorList := true }
  [⟨⟨some callId, some mainId, .client, 0, 0⟩, pct, "PDO::query"⟩,
    ⟨⟨some mainId, none, .server, 0, 0⟩, { pct with spanType := 0 }, "cli"⟩]

theorem numbered_oneCall : Numbered (oneCallEmissions "1" "0") :=
  (numbered_iff (phpRinit_script .random) rfl rfl rfl
    (by decide : batch ⟨.molten, .random⟩ oneCall (scriptStart .random) =
      some ((oneCallEmissions "1" "0").map Emission.span))).mpr
    (by decide : (spanContexts oneCall).Pairwise
      fun context other => context % 2 ^ 32 ≠ other % 2 ^ 32)

/-- With level ids the call "1.1" and the main span "1" both get the number
1. -/
theorem not_numbered_oneCall :
    phpRinit ⟨.molten, .level⟩ scriptInput ⟨1, 1, 1, 0⟩ ⟨0, 0⟩ freshGlobals =
        some (scriptStart .level, ⟨0, 0⟩) ∧
      batch ⟨.molten, .level⟩ oneCall (scriptStart .level) =
        some ((oneCallEmissions "1.1" "1").map Emission.span) ∧
      (oneCallEmissions "1.1" "1").map Emission.si =
        [some (.long 1), some (.long 1)] ∧
      ¬ Numbered (oneCallEmissions "1.1" "1") := by
  have hnumbers : (oneCallEmissions "1.1" "1").map Emission.si =
      [some (.long 1), some (.long 1)] := rfl
  refine ⟨phpRinit_script .level, by decide, hnumbers, fun hnumbered => ?_⟩
  have hdistinct := hnumbered.distinct
  rw [hnumbers] at hdistinct
  exact absurd List.mem_cons_self (List.nodup_cons.mp hdistinct).1

end Molten.Request
