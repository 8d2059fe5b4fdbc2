import Molten.Cluster.Invariant

namespace Molten.Cluster

open Molten.Data
open Molten.Span
open Molten.Chain

/-! Distinct ids, and what follows from them. -/

theorem Inv.distinct {headers : HeaderBuild} {system : System}
    (inv : Inv headers system) {traceId : Option String}
    (h : system.CountersApart traceId) :
    ((system.drawnCalls traceId).map Call.spanId).Nodup := by
  have hsub : (system.drawnCalls traceId).Pairwise fun call other =>
      ¬ (call.worker = other.worker ∧ call.drawn = other.drawn) := by
    have hfilter : system.drawnCalls traceId =
        (system.calls.filter fun call => call.drawn.isSome).filter
          fun call => call.traceId == traceId := by
      simp [System.drawnCalls, List.filter_filter]
    rw [hfilter]
    exact inv.apart.filter _
  rw [List.Nodup, List.pairwise_map]
  refine hsub.imp_of_mem fun {call other} hcall hother hapart heq => hapart ?_
  obtain ⟨hmem, htrace, hsome⟩ := System.mem_drawnCalls.mp hcall
  obtain ⟨hmem', htrace', hsome'⟩ := System.mem_drawnCalls.mp hother
  obtain ⟨value, hvalue⟩ := Option.isSome_iff_exists.mp hsome
  obtain ⟨value', hvalue'⟩ := Option.isSome_iff_exists.mp hsome'
  obtain ⟨hid, hpass⟩ := inv.drawn call hmem value hvalue
  obtain ⟨hid', hpass'⟩ := inv.drawn other hmem' value' hvalue'
  have hmod : value % 2 ^ 32 = value' % 2 ^ 32 :=
    buildSpanIdRandom_eq_iff.mp (hid.symm.trans (heq.trans hid'))
  obtain ⟨hworker, hsame⟩ := h _ _ _ _ (htrace ▸ hpass) (htrace' ▸ hpass')
    hmod
  exact ⟨hworker, by rw [hvalue, hvalue', hsame]⟩

theorem Inv.countersApart {headers : HeaderBuild} {system : System}
    (inv : Inv headers system) {traceId : Option String}
    (h : ((system.drawnCalls traceId).map Call.spanId).Nodup) :
    system.CountersApart traceId := by
  intro worker value worker' value' hpass hpass' hmod
  obtain ⟨call, hcall, htrace, rfl, hvalue⟩ := inv.passed _ _ _ hpass
  obtain ⟨other, hother, htrace', rfl, hvalue'⟩ := inv.passed _ _ _ hpass'
  have hid := (inv.drawn call hcall value hvalue).1
  have hid' := (inv.drawn other hother value' hvalue').1
  have hsame : call.spanId = other.spanId := by
    rw [hid, hid', buildSpanIdRandom_eq_iff.mpr hmod]
  have hmem := System.mem_drawnCalls.mpr ⟨hcall, htrace, by simp [hvalue]⟩
  have hmem' := System.mem_drawnCalls.mpr ⟨hother, htrace', by simp [hvalue']⟩
  have heq := List.inj_on_of_nodup_map h hmem hmem' hsame
  subst heq
  exact ⟨rfl, Option.some.inj (hvalue.symm.trans hvalue')⟩

/-- A received main span repeats the edge of the call it stands for, so the
drawn calls already show every edge of the trace. -/
theorem Inv.acyclic {headers : HeaderBuild} {system : System}
    (inv : Inv headers system) {traceId : Option String}
    (h : ((system.drawnCalls traceId).map Call.spanId).Nodup)
    (spanId : String) :
    ¬ Relation.TransGen (system.ParentOf traceId) spanId spanId := by
  have hedges : ∀ child parent, system.ParentOf traceId child parent →
      ParentEdge ((system.drawnCalls traceId).map fun call =>
        (call.spanId, call.parentId)) child parent := by
    rintro child parent ⟨call, hcall, rfl, rfl, hparent⟩
    cases hdrawn : call.drawn with
    | none =>
        obtain ⟨other, hother, hid, hsame⟩ := inv.received call hcall hdrawn
        exact List.mem_map.mpr ⟨other, hother, by rw [hid, hsame, hparent]⟩
    | some value =>
        exact List.mem_map.mpr ⟨call, System.mem_drawnCalls.mpr
          ⟨hcall, rfl, by simp [hdrawn]⟩, by rw [hparent]⟩
  intro hcycle
  refine (inv.earlier traceId).acyclic ?_ spanId
    (Relation.TransGen.mono hedges _ _ hcycle)
  simpa [Function.comp_def] using h

/-- The ids of a trace are distinct, and its parent relation acyclic, exactly
when its requests took the counters through different values. -/
theorem trace_sound_iff {headers : HeaderBuild} {system : System}
    (h : Reachable headers system) (traceId : Option String) :
    system.TraceSound traceId ↔ system.CountersApart traceId :=
  ⟨fun sound => h.inv.countersApart sound.distinct,
    fun apart => ⟨h.inv.distinct apart, h.inv.acyclic (h.inv.distinct apart)⟩⟩

/-! Two workers, the first calling the second. -/

def freshWorkers : System :=
  ⟨fun _ => ⟨⟨false, moInitChainHeader .molten "" 0, ⟨[], 0⟩⟩, none⟩, [], [],
    []⟩

theorem initial_freshWorkers : Initial freshWorkers :=
  ⟨fun _ => rfl, fun _ => rfl, rfl, rfl, rfl⟩

def rootChain : ChainState where
  isSampled := true
  pch := TraceContext.header .molten ⟨"00000000000000a1", none, none, "1", "0"⟩
    "127.0.0.1" 0
  span := ⟨[⟨"0", 1⟩], 1⟩

theorem reachable_root : Reachable .molten (freshWorkers.rinit 0 rootChain) :=
  ⟨freshWorkers, initial_freshWorkers, .single
    (.rinit 0 ⟨false, fun _ => none, "127.0.0.1", 0, 0, "00000000000000a1"⟩
      ⟨1, 1, 1, 0⟩ ⟨0, 0⟩ ⟨0, 0⟩ rootChain rfl (.inl ⟨rfl, rfl, rfl⟩)
      (by decide))⟩

def rootLines : List String :=
  traceLines .molten ⟨"00000000000000a1", none, none, "1", "0"⟩ "1" "0"

def calledServer : ServerVars := fun key =>
  (rootLines.find? fun line => serverKey (lineName line) == key).map
    (.string <| lineValue ·)

def calledChain : ChainState where
  isSampled := true
  pch := TraceContext.header .molten
    ⟨"00000000000000a1", some "1", some "0", "1", "0"⟩ "127.0.0.1" 0
  span := ⟨[⟨"1", 1⟩, ⟨"0", 1⟩], 0⟩

def calledSystem : System :=
  (((freshWorkers.rinit 0 rootChain).curlExec 0 rootLines).rinit 1
    calledChain).enter 1

theorem reachable_called : Reachable .molten calledSystem := by
  obtain ⟨initial, hinitial, hroot⟩ := reachable_root
  have hdelivers : Delivers rootLines calledServer :=
    Delivers.of_lines (by decide)
  exact ⟨initial, hinitial, ((hroot.tail
    (.curlExec 0 [] rootLines rfl (by decide))).tail
    (.rinit 1 ⟨false, calledServer, "127.0.0.1", 0, 0, ""⟩ ⟨1, 1, 1, 0⟩ ⟨0, 0⟩
      ⟨0, 0⟩ calledChain rfl
      (.inr ⟨rfl, rootLines, List.mem_cons_self, hdelivers⟩)
      (by decide))).tail (.enter 1 rfl)⟩

/-- The second worker after a request of its own with one call. -/
def otherChain : ChainState where
  isSampled := true
  pch := TraceContext.header .molten ⟨"00000000000000b2", none, none, "1", "0"⟩
    "127.0.0.1" 0
  span := ⟨[⟨"0", 1⟩], 1⟩

def busySystem : System :=
  ((freshWorkers.rinit 1 otherChain).enter 1).rshutdown 1
    ⟨1, some "00000000000000b2", 0⟩

/-- The request that the first worker calls draws from 2 on. -/
def linkedSystem : System :=
  (((busySystem.rinit 0 rootChain).curlExec 0 rootLines).rinit 1
    { calledChain with span := { calledChain.span with step := 2 } }).enter 1

theorem reachable_linked : Reachable .molten linkedSystem := by
  have hdelivers : Delivers rootLines calledServer :=
    Delivers.of_lines (by decide)
  have hbusy : Relation.ReflTransGen (Step .molten) freshWorkers busySystem :=
    ((Relation.ReflTransGen.single
      (.rinit 1 ⟨false, fun _ => none, "127.0.0.1", 0, 0, "00000000000000b2"⟩
        ⟨1, 1, 1, 0⟩ ⟨0, 0⟩ ⟨0, 0⟩ otherChain rfl (.inl ⟨rfl, rfl, rfl⟩)
        (by decide))).tail (.enter 1 rfl)).tail (.rshutdown 1 _ rfl)
  have hroot := hbusy.tail
    (.rinit 0 ⟨false, fun _ => none, "127.0.0.1", 0, 0, "00000000000000a1"⟩
      ⟨1, 1, 1, 0⟩ ⟨0, 0⟩ ⟨0, 0⟩ rootChain rfl (.inl ⟨rfl, rfl, rfl⟩)
      (by decide))
  exact ⟨freshWorkers, initial_freshWorkers, ((hroot.tail
    (.curlExec 0 [] rootLines rfl (by decide))).tail
    (.rinit 1 ⟨false, calledServer, "127.0.0.1", 0, 0, ""⟩ ⟨1, 1, 1, 0⟩ ⟨0, 0⟩
      ⟨0, 0⟩ _ rfl (.inr ⟨rfl, rootLines, List.mem_cons_self, hdelivers⟩)
      (by decide))).tail (.enter 1 rfl)⟩

/-- Both workers have calls in one trace, and took different ids for them. -/
theorem trace_sound_linked :
    linkedSystem.CountersApart (some "00000000000000a1") ∧
      linkedSystem.TraceSound (some "00000000000000a1") := by
  have hapart : linkedSystem.CountersApart (some "00000000000000a1") :=
    reachable_linked.inv.countersApart (by decide)
  exact ⟨hapart, (trace_sound_iff reachable_linked _).mpr hapart⟩

/-- Both workers hand out "0" in one trace, and "0" becomes its own
ancestor. -/
theorem not_trace_sound_called :
    Reachable .molten calledSystem ∧
      ¬ calledSystem.TraceSound (some "00000000000000a1") ∧
      Relation.TransGen (calledSystem.ParentOf (some "00000000000000a1"))
        "0" "0" := by
  have hcalls : calledSystem.calls =
      [⟨1, some 0, some "00000000000000a1", "0", some "1"⟩,
        ⟨1, none, some "00000000000000a1", "1", some "0"⟩,
        ⟨0, some 1, some "00000000000000a1", "1", some "0"⟩,
        ⟨0, some 0, some "00000000000000a1", "0", none⟩] := by decide
  have hcalled : calledSystem.ParentOf (some "00000000000000a1") "0" "1" :=
    ⟨⟨1, some 0, some "00000000000000a1", "0", some "1"⟩, by simp [hcalls],
      rfl, rfl, rfl⟩
  have hcurl : calledSystem.ParentOf (some "00000000000000a1") "1" "0" :=
    ⟨⟨0, some 1, some "00000000000000a1", "1", some "0"⟩, by simp [hcalls],
      rfl, rfl, rfl⟩
  have hcycle := Relation.TransGen.tail (.single hcalled) hcurl
  exact ⟨reachable_called, fun sound => sound.acyclic "0" hcycle, hcycle⟩

end Molten.Cluster
