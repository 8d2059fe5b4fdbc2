import Molten.Cluster.Step
import Molten.Data.ParentLog

namespace Molten.Cluster

open Molten.Data
open Molten.Span
open Molten.Chain
open Molten.Ctrl

/-! What every reachable system keeps. -/

namespace System

def Drew (system : System) (traceId : Option String) (spanId : String) :
    Prop :=
  spanId ∈ (system.drawnCalls traceId).map Call.spanId

theorem mem_drawnCalls {system : System} {traceId : Option String}
    {call : Call} :
    call ∈ system.drawnCalls traceId ↔
      call ∈ system.calls ∧ call.traceId = traceId ∧ call.drawn.isSome := by
  simp [drawnCalls]

end System

structure Serving (headers : HeaderBuild)
    (drew : Option String → String → Prop) (index : Nat) (worker : Worker)
    (request : Request) : Prop where
  index_eq : request.worker = index
  first_le : request.first ≤ worker.counter
  sampled : worker.chain.isSampled = true
  context : ∃ context ip port,
    worker.chain.pch = TraceContext.header headers context ip port ∧
      request.traceId = some context.traceId
  depth : entryDepth worker.chain.pch ≤ worker.chain.span.ids.length
  traced : ∀ spanId ∈ worker.chain.span.ids, drew request.traceId spanId

def Recorded (headers : HeaderBuild) (system : System) (sent : List String) :
    Prop :=
  ∃ user spanId parentSpanId, ∃ context : TraceContext,
    sent = user ++ traceLines headers context spanId parentSpanId ∧
    ∃ call ∈ system.drawnCalls (some context.traceId),
      call.spanId = spanId ∧ call.parentId = some parentSpanId

structure Inv (headers : HeaderBuild) (system : System) : Prop where
  serving : ∀ index request,
    (system.workers index).serving = some request →
      Serving headers system.Drew index (system.workers index) request
  served_le : ∀ entry ∈ system.served,
    entry.2 ≤ (system.workers entry.1.worker).counter
  drawn : ∀ call ∈ system.calls, ∀ value, call.drawn = some value →
    call.spanId = buildSpanIdRandom value ∧
      system.Passed call.traceId call.worker value
  passed : ∀ traceId index value, system.Passed traceId index value →
    ∃ call ∈ system.calls, call.traceId = traceId ∧ call.worker = index ∧
      call.drawn = some value
  apart : (system.calls.filter fun call => call.drawn.isSome).Pairwise
    fun call other => ¬ (call.worker = other.worker ∧
      call.drawn = other.drawn)
  received : ∀ call ∈ system.calls, call.drawn = none →
    ∃ other ∈ system.drawnCalls call.traceId, other.spanId = call.spanId ∧
      other.parentId = call.parentId
  earlier : ∀ traceId, ParentsBehind (fun _ => False)
    ((system.drawnCalls traceId).map fun call =>
      (call.spanId, call.parentId))
  messages : ∀ sent ∈ system.messages, Recorded headers system sent

theorem Request.covers_succ {request : Request} {last : Nat}
    (h : request.first ≤ last) (traceId : Option String)
    (worker value : Nat) :
    request.Covers (last + 1) traceId worker value ↔
      request.Covers last traceId worker value ∨
        request.traceId = traceId ∧ worker = request.worker ∧
          value = last := by
  constructor
  · rintro ⟨htraceId, hworker, hlow, hhigh⟩
    rcases Nat.lt_succ_iff_lt_or_eq.mp hhigh with hlt | heq
    · exact .inl ⟨htraceId, hworker, hlow, hlt⟩
    · exact .inr ⟨htraceId, hworker.symm, heq⟩
  · rintro (⟨htraceId, hworker, hlow, hhigh⟩ | ⟨htraceId, rfl, rfl⟩)
    · exact ⟨htraceId, hworker, hlow, Nat.lt_succ_of_lt hhigh⟩
    · exact ⟨htraceId, rfl, h, Nat.lt_succ_self _⟩

theorem Request.not_covers_first (request : Request)
    (traceId : Option String) (worker value : Nat) :
    ¬ request.Covers request.first traceId worker value := by
  rintro ⟨-, -, hlow, hhigh⟩
  exact absurd hhigh (Nat.not_lt.mpr hlow)

theorem Worker.passes_iff {worker : Worker} {request : Request}
    (h : worker.serving = some request) (traceId : Option String)
    (index value : Nat) :
    worker.Passes traceId index value ↔
      request.Covers worker.counter traceId index value := by
  simp [Worker.Passes, h]

theorem Worker.not_passes_idle {worker : Worker} (h : worker.serving = none)
    (traceId : Option String) (index value : Nat) :
    ¬ worker.Passes traceId index value := by
  simp [Worker.Passes, h]

theorem Initial.inv {headers : HeaderBuild} {system : System}
    (h : Initial system) : Inv headers system where
  serving index request hserving := by simp [h.idle] at hserving
  served_le := by simp [h.served]
  drawn := by simp [h.calls]
  passed traceId index value hpassed := by
    rcases hpassed with ⟨entry, hentry, -⟩ | ⟨index, request, hserving, -⟩
    · simp [h.served] at hentry
    · simp [h.idle] at hserving
  apart := by simp [h.calls]
  received := by simp [h.calls]
  earlier traceId := by simp [System.drawnCalls, h.calls, ParentsBehind]
  messages := by simp [h.messages]

theorem Inv.lt_counter {headers : HeaderBuild} {system : System}
    (inv : Inv headers system) {traceId : Option String} {index value : Nat}
    (h : system.Passed traceId index value) :
    value < (system.workers index).counter := by
  rcases h with ⟨entry, hentry, -, rfl, -, hlast⟩ |
    ⟨other, request, hserving, -, rfl, -, hlast⟩
  · exact Nat.lt_of_lt_of_le hlast (inv.served_le entry hentry)
  · rwa [(inv.serving other request hserving).index_eq]

theorem Inv.drawn_lt_counter {headers : HeaderBuild} {system : System}
    (inv : Inv headers system) {call : Call} (hcall : call ∈ system.calls)
    {value : Nat} (hvalue : call.drawn = some value) :
    value < (system.workers call.worker).counter :=
  inv.lt_counter (inv.drawn call hcall value hvalue).2

theorem Inv.drew_parent {headers : HeaderBuild} {system : System}
    (inv : Inv headers system) {traceId : Option String} {call : Call}
    (hcall : call ∈ system.drawnCalls traceId) {parent : String}
    (hparent : call.parentId = some parent) : system.Drew traceId parent := by
  have hedge : ParentEdge ((system.drawnCalls traceId).map fun call =>
      (call.spanId, call.parentId)) call.spanId parent :=
    List.mem_map.mpr ⟨call, hcall, by rw [hparent]⟩
  simpa [System.Drew, Function.comp_def] using
    (inv.earlier traceId).parent_mem hedge

theorem Serving.mono {headers : HeaderBuild}
    {drew drew' : Option String → String → Prop} {index : Nat}
    {worker : Worker} {request : Request}
    (h : Serving headers drew index worker request)
    (hdrew : ∀ traceId spanId, drew traceId spanId → drew' traceId spanId) :
    Serving headers drew' index worker request :=
  { h with traced := fun spanId hmem => hdrew _ _ (h.traced spanId hmem) }

theorem System.Drew.mono {system system' : System} {traceId : Option String}
    {spanId : String} (h : system.Drew traceId spanId)
    (hcalls : ∀ call ∈ system.drawnCalls traceId,
      call ∈ system'.drawnCalls traceId) :
    system'.Drew traceId spanId := by
  obtain ⟨call, hcall, hspanId⟩ := List.mem_map.mp h
  exact List.mem_map.mpr ⟨call, hcalls call hcall, hspanId⟩

theorem Recorded.mono {headers : HeaderBuild} {system system' : System}
    {sent : List String} (h : Recorded headers system sent)
    (hcalls : ∀ traceId, ∀ call ∈ system.drawnCalls traceId,
      call ∈ system'.drawnCalls traceId) :
    Recorded headers system' sent := by
  obtain ⟨user, spanId, parentSpanId, context, hsent, call, hcall, hids⟩ := h
  exact ⟨user, spanId, parentSpanId, context, hsent, call,
    hcalls _ call hcall, hids⟩

/-! A step replaces one worker. -/

theorem System.counter_le_update {system system' : System} {index : Nat}
    {new : Worker}
    (hworkers : system'.workers = Function.update system.workers index new)
    (hcounter : (system.workers index).counter ≤ new.counter) (other : Nat) :
    (system.workers other).counter ≤ (system'.workers other).counter := by
  rw [hworkers]
  by_cases heq : other = index
  · subst heq
    rw [Function.update_self]
    exact hcounter
  · rw [Function.update_of_ne heq]

theorem Inv.serving_update {headers : HeaderBuild} {system system' : System}
    (inv : Inv headers system) {index : Nat} {new : Worker}
    (hworkers : system'.workers = Function.update system.workers index new)
    (hdrew : ∀ traceId spanId, system.Drew traceId spanId →
      system'.Drew traceId spanId)
    (hnew : ∀ request, new.serving = some request →
      Serving headers system'.Drew index new request)
    (other : Nat) (request : Request)
    (hrequest : (system'.workers other).serving = some request) :
    Serving headers system'.Drew other (system'.workers other) request := by
  rw [hworkers] at hrequest ⊢
  by_cases heq : other = index
  · subst heq
    rw [Function.update_self] at hrequest ⊢
    exact hnew request hrequest
  · rw [Function.update_of_ne heq] at hrequest ⊢
    exact (inv.serving other request hrequest).mono hdrew

private theorem exists_iff_at_or_ne (p : Nat → Prop) (index : Nat) :
    (∃ other, p other) ↔ p index ∨ ∃ other, other ≠ index ∧ p other := by
  constructor
  · rintro ⟨other, hother⟩
    by_cases heq : other = index
    · exact .inl (heq ▸ hother)
    · exact .inr ⟨other, heq, hother⟩
  · rintro (hindex | ⟨other, -, hother⟩)
    · exact ⟨index, hindex⟩
    · exact ⟨other, hother⟩

private theorem or_regroup {more old new others before extra : Prop}
    (h : more ∨ new ↔ before ∨ extra) :
    (more ∨ old) ∨ (new ∨ others) ↔ (old ∨ before ∨ others) ∨ extra := by
  calc (more ∨ old) ∨ (new ∨ others)
      ↔ (more ∨ new) ∨ (old ∨ others) := or_or_or_comm
    _ ↔ (before ∨ extra) ∨ (old ∨ others) := or_congr_left h
    _ ↔ (old ∨ before ∨ others) ∨ extra := by
        rw [or_right_comm, or_left_comm, or_assoc]

theorem System.passed_update {system system' : System} {index : Nat}
    {new : Worker} (more : List (Request × Nat))
    (extra : Option String → Nat → Nat → Prop)
    (hworkers : system'.workers = Function.update system.workers index new)
    (hserved : system'.served = more ++ system.served)
    (h : ∀ traceId worker value,
      ((∃ entry ∈ more, entry.1.Covers entry.2 traceId worker value) ∨
        new.Passes traceId worker value) ↔
      ((system.workers index).Passes traceId worker value ∨
        extra traceId worker value))
    (traceId : Option String) (worker value : Nat) :
    system'.Passed traceId worker value ↔
      system.Passed traceId worker value ∨ extra traceId worker value := by
  have hothers : (∃ other, other ≠ index ∧
        (system'.workers other).Passes traceId worker value) ↔
      ∃ other, other ≠ index ∧
        (system.workers other).Passes traceId worker value := by
    refine exists_congr fun other => and_congr_right fun hne => ?_
    rw [hworkers, Function.update_of_ne hne]
  have hnew : system'.workers index = new := by
    rw [hworkers, Function.update_self]
  have hserved' : (∃ entry ∈ system'.served,
        entry.1.Covers entry.2 traceId worker value) ↔
      (∃ entry ∈ more, entry.1.Covers entry.2 traceId worker value) ∨
        ∃ entry ∈ system.served,
          entry.1.Covers entry.2 traceId worker value := by
    rw [hserved]
    simp only [List.mem_append, or_and_right, exists_or]
  rw [System.Passed, System.Passed, hserved',
    exists_iff_at_or_ne (fun other =>
      (system'.workers other).Passes traceId worker value) index,
    hothers, hnew,
    exists_iff_at_or_ne (fun other =>
      (system.workers other).Passes traceId worker value) index]
  exact or_regroup (h traceId worker value)

/-! Steps that draw no id. -/

theorem filter_undrawn {entry : Option Call}
    (h : ∀ call ∈ entry, call.drawn = none) (p : Call → Bool) :
    entry.toList.filter (fun call => p call && call.drawn.isSome) = [] := by
  cases entry with
  | none => rfl
  | some call => simp [h call rfl]

theorem System.drawnCalls_undrawn {system system' : System}
    {entry : Option Call} (h : ∀ call ∈ entry, call.drawn = none)
    (hcalls : system'.calls = entry.toList ++ system.calls)
    (traceId : Option String) :
    system'.drawnCalls traceId = system.drawnCalls traceId := by
  rw [System.drawnCalls, hcalls, List.filter_append,
    filter_undrawn h fun call => call.traceId == traceId, List.nil_append,
    System.drawnCalls]

theorem Inv.quiet {headers : HeaderBuild} {system : System}
    (inv : Inv headers system) {index : Nat} {new : Worker}
    (more : List (Request × Nat)) (entry : Option Call)
    (hcounter : new.counter = (system.workers index).counter)
    (hserving : ∀ request, new.serving = some request →
      Serving headers system.Drew index new request)
    (hmore : ∀ finished ∈ more,
      finished.1.worker = index ∧ finished.2 ≤ new.counter)
    (hpasses : ∀ traceId worker value,
      ((∃ finished ∈ more,
          finished.1.Covers finished.2 traceId worker value) ∨
        new.Passes traceId worker value) ↔
      (system.workers index).Passes traceId worker value)
    (hentry : ∀ call ∈ entry, call.drawn = none ∧
      ∃ other ∈ system.drawnCalls call.traceId,
        other.spanId = call.spanId ∧ other.parentId = call.parentId) :
    Inv headers { (system.setWorker index new).logCall entry with
      served := more ++ system.served } := by
  let system' : System := { (system.setWorker index new).logCall entry with
    served := more ++ system.served }
  have hpassed : ∀ traceId worker value,
      system'.Passed traceId worker value ↔
        system.Passed traceId worker value := by
    intro traceId worker value
    have h : system'.Passed traceId worker value ↔
        system.Passed traceId worker value ∨ False :=
      System.passed_update more (fun _ _ _ => False) rfl rfl
        (by simpa using hpasses) traceId worker value
    simpa using h
  have hundrawn : ∀ call ∈ entry, call.drawn = none :=
    fun call hcall => (hentry call hcall).1
  have hdrawnCalls : ∀ traceId,
      system'.drawnCalls traceId = system.drawnCalls traceId :=
    System.drawnCalls_undrawn hundrawn rfl
  have hkeep : ∀ traceId, ∀ call ∈ system.drawnCalls traceId,
      call ∈ system'.drawnCalls traceId :=
    fun traceId call hcall => hdrawnCalls traceId ▸ hcall
  have hdrew : ∀ traceId spanId, system.Drew traceId spanId →
      system'.Drew traceId spanId :=
    fun traceId _ h => h.mono (hkeep traceId)
  have hcounters : ∀ other, (system.workers other).counter ≤
      (system'.workers other).counter :=
    System.counter_le_update rfl hcounter.ge
  refine (?_ : Inv headers system')
  refine ⟨?_, ?_, ?_, ?_, ?_, ?_, ?_, ?_⟩
  · exact inv.serving_update rfl hdrew fun request hrequest =>
      (hserving request hrequest).mono hdrew
  · intro finished hfinished
    rcases List.mem_append.mp hfinished with hnew | hold
    · obtain ⟨rfl, hle⟩ := hmore finished hnew
      exact (hcounter ▸ hle).trans (hcounters _)
    · exact (inv.served_le finished hold).trans (hcounters _)
  · intro call hcall value hvalue
    rw [hpassed]
    rcases List.mem_append.mp hcall with hnew | hold
    · rw [hundrawn call (Option.mem_toList.mp hnew)] at hvalue
      cases hvalue
    · exact inv.drawn call hold value hvalue
  · intro traceId worker value h
    obtain ⟨call, hcall, hids⟩ :=
      inv.passed traceId worker value ((hpassed _ _ _).mp h)
    exact ⟨call, List.mem_append_right _ hcall, hids⟩
  · have hfilter : (system'.calls.filter fun call => call.drawn.isSome) =
        system.calls.filter fun call => call.drawn.isSome := by
      have hnone := filter_undrawn hundrawn fun _ => true
      simp only [Bool.true_and] at hnone
      simp [system', System.logCall, System.setWorker, List.filter_append,
        hnone]
    rw [hfilter]
    exact inv.apart
  · intro call hcall hnone
    rw [hdrawnCalls]
    rcases List.mem_append.mp hcall with hnew | hold
    · exact (hentry call (Option.mem_toList.mp hnew)).2
    · exact inv.received call hold hnone
  · intro traceId
    rw [hdrawnCalls]
    exact inv.earlier traceId
  · exact fun sent hsent => (inv.messages sent hsent).mono hkeep

/-! Steps that draw an id. -/

theorem System.drawnCalls_logCall {system : System} {index : Nat}
    {new : Worker} {call : Call} (hdrawn : call.drawn.isSome)
    (traceId : Option String) :
    ((system.setWorker index new).logCall (some call)).drawnCalls traceId =
      if call.traceId = traceId then call :: system.drawnCalls traceId
      else system.drawnCalls traceId := by
  simp [System.drawnCalls, System.logCall, System.setWorker,
    List.filter_cons, hdrawn]

theorem System.mem_drawnCalls_logCall {system : System} {index : Nat}
    {new : Worker} {call other : Call} (hdrawn : call.drawn.isSome)
    {traceId : Option String} (hother : other ∈ system.drawnCalls traceId) :
    other ∈ ((system.setWorker index new).logCall (some call)).drawnCalls
      traceId := by
  rw [System.drawnCalls_logCall hdrawn]
  split
  · exact List.mem_cons_of_mem _ hother
  · exact hother

theorem System.drew_logCall {system : System} {index : Nat} {new : Worker}
    {call : Call} (hdrawn : call.drawn.isSome) {traceId : Option String}
    {spanId : String}
    (h : system.Drew traceId spanId ∨
      call.traceId = traceId ∧ spanId = call.spanId) :
    ((system.setWorker index new).logCall (some call)).Drew traceId
      spanId := by
  rcases h with h | ⟨htrace, rfl⟩
  · exact h.mono fun other => System.mem_drawnCalls_logCall hdrawn
  · refine List.mem_map.mpr ⟨call, ?_, rfl⟩
    exact System.mem_drawnCalls.mpr ⟨List.mem_cons_self, htrace, hdrawn⟩

/-- The counter has moved past every value drawn before. -/
theorem Inv.apart_draw {headers : HeaderBuild} {system : System}
    (inv : Inv headers system) {index : Nat} {call : Call}
    (hdrawn : call.drawn = some (system.workers index).counter)
    (hworker : call.worker = index) :
    ((call :: system.calls).filter fun call => call.drawn.isSome).Pairwise
      fun call other => ¬ (call.worker = other.worker ∧
        call.drawn = other.drawn) := by
  rw [List.filter_cons_of_pos (by simp [hdrawn]), List.pairwise_cons]
  refine ⟨?_, inv.apart⟩
  rintro other hother ⟨hsame, hvalue⟩
  have hlt := inv.drawn_lt_counter (List.mem_filter.mp hother).1
    (hvalue ▸ hdrawn)
  rw [← hsame, hworker] at hlt
  exact Nat.lt_irrefl _ hlt

theorem Inv.draw {headers : HeaderBuild} {system : System}
    (inv : Inv headers system) {index : Nat} {new : Worker} {call : Call}
    (hcounter : new.counter = (system.workers index).counter + 1)
    (hdrawn : call.drawn = some (system.workers index).counter)
    (hworker : call.worker = index)
    (hid : call.spanId = buildSpanIdRandom (system.workers index).counter)
    (hparent : ∀ parent ∈ call.parentId, system.Drew call.traceId parent)
    (hserving : ∀ request, new.serving = some request →
      Serving headers (fun traceId spanId => system.Drew traceId spanId ∨
        call.traceId = traceId ∧ spanId = call.spanId) index new request)
    (hpasses : ∀ traceId worker value,
      new.Passes traceId worker value ↔
        (system.workers index).Passes traceId worker value ∨
          call.traceId = traceId ∧ worker = index ∧
            value = (system.workers index).counter) :
    Inv headers ((system.setWorker index new).logCall (some call)) := by
  let system' := (system.setWorker index new).logCall (some call)
  have hpassed : ∀ traceId worker value,
      system'.Passed traceId worker value ↔
        system.Passed traceId worker value ∨ call.traceId = traceId ∧
          worker = index ∧ value = (system.workers index).counter := by
    refine System.passed_update [] _ rfl rfl ?_
    simpa using hpasses
  have hisSome : call.drawn.isSome := by simp [hdrawn]
  have hkeep : ∀ traceId, ∀ other ∈ system.drawnCalls traceId,
      other ∈ system'.drawnCalls traceId :=
    fun _ _ => System.mem_drawnCalls_logCall hisSome
  refine (?_ : Inv headers system')
  refine ⟨?_, ?_, ?_, ?_, ?_, ?_, ?_, ?_⟩
  · refine inv.serving_update rfl (fun _ _ h => h.mono (hkeep _)) ?_
    intro request hrequest
    exact (hserving request hrequest).mono fun _ _ =>
      System.drew_logCall hisSome
  · intro finished hfinished
    have hle : (system.workers index).counter ≤ new.counter := by omega
    exact (inv.served_le finished hfinished).trans
      (System.counter_le_update rfl hle _)
  · intro other hother value hvalue
    rw [hpassed]
    rcases List.mem_cons.mp hother with rfl | hold
    · have heq : value = (system.workers index).counter := by
        rw [hdrawn] at hvalue
        exact (Option.some.inj hvalue).symm
      exact ⟨heq ▸ hid, .inr ⟨rfl, hworker, heq⟩⟩
    · obtain ⟨hspanId, hpass⟩ := inv.drawn other hold value hvalue
      exact ⟨hspanId, .inl hpass⟩
  · intro traceId worker value h
    rcases (hpassed _ _ _).mp h with hold | ⟨htrace, rfl, rfl⟩
    · obtain ⟨other, hother, hids⟩ := inv.passed traceId worker value hold
      exact ⟨other, List.mem_cons_of_mem _ hother, hids⟩
    · exact ⟨call, List.mem_cons_self, htrace, hworker, hdrawn⟩
  · exact inv.apart_draw hdrawn hworker
  · intro other hother hnone
    rcases List.mem_cons.mp hother with rfl | hold
    · simp [hdrawn] at hnone
    · obtain ⟨source, hsource, hids⟩ := inv.received other hold hnone
      exact ⟨source, hkeep _ source hsource, hids⟩
  · intro traceId
    rw [System.drawnCalls_logCall hisSome]
    split
    · rename_i htrace
      subst htrace
      refine ⟨fun parent hmem => ?_, inv.earlier call.traceId⟩
      simpa [System.Drew, Function.comp_def] using hparent parent hmem
    · exact inv.earlier traceId
  · exact fun sent hsent => (inv.messages sent hsent).mono hkeep

theorem Inv.send {headers : HeaderBuild} {system : System}
    (inv : Inv headers system) {sent : List String}
    (h : Recorded headers system sent) :
    Inv headers { system with messages := sent :: system.messages } :=
  { inv with
    messages := fun other hother => by
      rcases List.mem_cons.mp hother with rfl | hold
      · exact h
      · exact inv.messages other hold }

/-! The steps of the workers. -/

def System.nextCall (system : System) (index : Nat) : Call where
  worker := index
  drawn := some (system.workers index).counter
  traceId := (system.workers index).chain.pch.traceId.val
  spanId := buildSpanIdRandom (system.workers index).counter
  parentId := (system.workers index).chain.span.retrieveSpanId

theorem topCall_entered (system : System) (index : Nat) :
    topCall index (some (system.workers index).counter)
      (system.entered index) = some (system.nextCall index) := by
  simp [topCall, System.entered, System.nextCall,
    SpanState.retrieveSpanId, SpanState.retrieveParentSpanId,
    SpanState.pushSpanContext, Worker.counter]

theorem Serving.traceId_eq {headers : HeaderBuild}
    {drew : Option String → String → Prop} {index : Nat} {worker : Worker}
    {request : Request} (h : Serving headers drew index worker request) :
    worker.chain.pch.traceId.val = request.traceId := by
  obtain ⟨context, ip, port, hpch, htrace⟩ := h.context
  rw [hpch, htrace]
  rfl

theorem Inv.enter {headers : HeaderBuild} {system : System}
    (inv : Inv headers system) {index : Nat}
    (hserving : (system.workers index).serving.isSome) :
    Inv headers (system.enter index) := by
  obtain ⟨request, hrequest⟩ := Option.isSome_iff_exists.mp hserving
  have hold := inv.serving index request hrequest
  have htrace := hold.traceId_eq
  rw [System.enter, topCall_entered]
  refine inv.draw rfl rfl rfl rfl ?_ ?_ ?_
  · intro parent hparent
    have htop : parent ∈ (system.workers index).chain.span.ids := by
      rw [System.nextCall, SpanState.retrieveSpanId_eq] at hparent
      exact List.mem_of_mem_head? hparent
    rw [System.nextCall, htrace]
    exact hold.traced parent htop
  · intro other hother
    rw [hrequest] at hother
    cases hother
    refine ⟨hold.index_eq, Nat.le_succ_of_le hold.first_le, hold.sampled,
      hold.context, ?_, ?_⟩
    · simp only [System.entered, SpanState.ids_pushSpanContext,
        List.length_cons]
      exact Nat.le_succ_of_le hold.depth
    · intro spanId hmem
      simp only [System.entered, SpanState.ids_pushSpanContext,
        List.mem_cons] at hmem
      rcases hmem with rfl | hmem
      · exact .inr ⟨htrace, rfl⟩
      · exact .inl (hold.traced spanId hmem)
  · intro traceId worker value
    have hcovers := Request.covers_succ hold.first_le traceId worker value
    rw [hold.index_eq, ← htrace] at hcovers
    have hnew : (Worker.mk (system.entered index)
      (system.workers index).serving).serving = some request := hrequest
    rw [Worker.passes_iff hrequest]
    exact (Worker.passes_iff hnew _ _ _).trans hcovers

theorem Inv.leave {headers : HeaderBuild} {system : System}
    (inv : Inv headers system) {index : Nat}
    (hdepth : entryDepth (system.workers index).chain.pch <
      (system.workers index).chain.span.ids.length) :
    Inv headers (system.leave index) := by
  refine inv.quiet [] none rfl ?_ (by simp) ?_ (by simp)
  · intro request hrequest
    have hold := inv.serving index request hrequest
    refine ⟨hold.index_eq, hold.first_le, hold.sampled, hold.context, ?_, ?_⟩
    · simp only [SpanState.ids_popSpanContext, List.length_tail]
      omega
    · intro spanId hmem
      simp only [SpanState.ids_popSpanContext] at hmem
      exact hold.traced spanId (List.mem_of_mem_tail hmem)
  · intro traceId worker value
    simp [Worker.Passes, Worker.counter, SpanState.popSpanContext]

theorem Inv.rshutdown {headers : HeaderBuild} {system : System}
    (inv : Inv headers system) {index : Nat} {request : Request}
    (hserving : (system.workers index).serving = some request) :
    Inv headers (system.rshutdown index request) := by
  have hold := inv.serving index request hserving
  refine inv.quiet [(request, (system.workers index).counter)] none rfl
    (by simp) ?_ ?_ (by simp)
  · simp [hold.index_eq, Worker.counter, SpanState.initSpanContext]
  · intro traceId worker value
    simp [Worker.Passes, hserving]

theorem Inv.curlExec {headers : HeaderBuild} {system : System}
    (inv : Inv headers system) {index : Nat} {user sent : List String}
    (hserving : (system.workers index).serving.isSome)
    (hsent : sentHeader headers (system.entered index)
      (system.entered index).span user = some (.list sent)) :
    Inv headers (system.curlExec index sent) := by
  obtain ⟨request, hrequest⟩ := Option.isSome_iff_exists.mp hserving
  have hold := inv.serving index request hrequest
  obtain ⟨context, ip, port, hpch, htrace⟩ := hold.context
  have hdepth := hold.depth
  obtain ⟨parent, below, hids⟩ : ∃ parent below,
      (system.workers index).chain.span.ids = parent :: below := by
    cases hids : (system.workers index).chain.span.ids with
    | nil => simp [hids, entryDepth] at hdepth
    | cons parent below => exact ⟨parent, below, rfl⟩
  have hentered : (system.entered index).span.ids =
      buildSpanIdRandom (system.workers index).counter :: parent :: below := by
    rw [← hids]
    exact SpanState.ids_pushSpanContext .random _
  have hlines : sent = user ++ traceLines headers context
      (buildSpanIdRandom (system.workers index).counter) parent := by
    have hparent : (system.entered index).span.retrieveParentSpanId =
        some parent := SpanState.retrieveParentSpanId_of_ids hentered
    have hspan : (system.entered index).span.retrieveSpanId =
        some (buildSpanIdRandom (system.workers index).counter) :=
      SpanState.retrieveSpanId_of_ids hentered
    have hpch' : (system.entered index).pch =
        context.header headers ip port := hpch
    have hsampled : (system.entered index).isSampled = true := hold.sampled
    rw [sentHeader, hsampled, hpch', hspan,
      addHttpTraceHeader_sampled hparent] at hsent
    cases hsent
    rfl
  refine (inv.enter hserving).send
    ⟨user, _, parent, context, hlines, system.nextCall index, ?_, rfl, ?_⟩
  · rw [System.enter, topCall_entered, System.drawnCalls_logCall rfl, if_pos]
    · exact List.mem_cons_self
    · exact hold.traceId_eq.trans htrace
  · exact SpanState.retrieveSpanId_of_ids hids

/-! The start of a request. -/

theorem Inv.rinit_fresh {headers : HeaderBuild} {system : System}
    (inv : Inv headers system) {index : Nat} {context : TraceContext}
    {ip : String} {port : Int} {chain : ChainState}
    (hidle : (system.workers index).serving = none)
    (hsampled : chain.isSampled = true)
    (hpch : chain.pch = context.header headers ip port)
    (hspan : chain.span = context.entry .random
      (system.workers index).chain.span.initSpanContext)
    (hspanId : context.spanId = none)
    (hparent : context.parentSpanId = none) :
    Inv headers (system.rinit index chain) := by
  have hstack : chain.span =
      ⟨[⟨buildSpanIdRandom (system.workers index).counter, 1⟩],
        (system.workers index).counter + 1⟩ := by
    rw [hspan, TraceContext.entry, hspanId, hparent]
    rfl
  have htop : topCall index (some (system.workers index).counter) chain =
      some ⟨index, some (system.workers index).counter,
        some context.traceId,
        buildSpanIdRandom (system.workers index).counter, none⟩ := by
    simp [topCall, hstack, hpch, SpanState.retrieveSpanId,
      SpanState.retrieveParentSpanId]
  simp only [System.rinit, hsampled, hpch, TraceContext.spanId_header,
    TraceContext.traceId_header, hspanId, Option.isNone_none, if_true, htop]
  let request : Request :=
    ⟨index, some context.traceId, (system.workers index).counter⟩
  have hcounter : (Worker.mk chain (some request)).counter =
      (system.workers index).counter + 1 := by
    simp [Worker.counter, hstack]
  refine inv.draw hcounter rfl rfl rfl (by simp) ?_ ?_
  · intro other hother
    cases hother
    refine ⟨rfl, ?_, hsampled, ⟨context, ip, port, hpch, rfl⟩, ?_, ?_⟩
    · rw [hcounter]
      exact Nat.le_succ _
    · simp [entryDepth, hpch, hparent, hstack, SpanState.ids]
    · simp [hstack, SpanState.ids]
  · intro traceId worker value
    have hcovers := Request.covers_succ (Nat.le_refl request.first) traceId
      worker value
    rw [Worker.passes_iff rfl, hcounter]
    refine hcovers.trans (or_congr_left ?_)
    exact iff_of_false (request.not_covers_first _ _ _)
      (Worker.not_passes_idle hidle _ _ _)

theorem Inv.rinit_received {headers : HeaderBuild} {system : System}
    (inv : Inv headers system) {index : Nat} {context : TraceContext}
    {ip : String} {port : Int} {chain : ChainState} {call : Call}
    {parent : String}
    (hidle : (system.workers index).serving = none)
    (hsampled : chain.isSampled = true)
    (hpch : chain.pch = context.header headers ip port)
    (hspan : chain.span = context.entry .random
      (system.workers index).chain.span.initSpanContext)
    (hcall : call ∈ system.drawnCalls (some context.traceId))
    (hspanId : context.spanId = some call.spanId)
    (hparent : context.parentSpanId = some parent)
    (hcallParent : call.parentId = some parent) :
    Inv headers (system.rinit index chain) := by
  have hstack : chain.span =
      ⟨[⟨call.spanId, 1⟩, ⟨parent, 1⟩], (system.workers index).counter⟩ := by
    rw [hspan, TraceContext.entry, hspanId, hparent]
    rfl
  have htop : topCall index none chain =
      some ⟨index, none, some context.traceId, call.spanId, some parent⟩ := by
    simp [topCall, hstack, hpch, SpanState.retrieveSpanId,
      SpanState.retrieveParentSpanId]
  simp only [System.rinit, hsampled, hpch, TraceContext.spanId_header,
    TraceContext.traceId_header, hspanId, Option.isNone_some, if_true, htop,
    Bool.false_eq_true, if_false]
  let request : Request :=
    ⟨index, some context.traceId, (system.workers index).counter⟩
  have hcounter : (Worker.mk chain (some request)).counter =
      (system.workers index).counter := by
    simp [Worker.counter, hstack]
  refine inv.quiet [] (some _) hcounter ?_ (by simp) ?_ ?_
  · intro other hother
    cases hother
    refine ⟨rfl, hcounter.ge, hsampled, ⟨context, ip, port, hpch, rfl⟩, ?_,
      ?_⟩
    · simp [entryDepth, hpch, hparent, hstack, SpanState.ids]
    · have hdrew : system.Drew (some context.traceId) call.spanId :=
        List.mem_map_of_mem hcall
      have hdrewParent := inv.drew_parent hcall hcallParent
      simp [hstack, SpanState.ids, hdrew, hdrewParent]
  · intro traceId worker value
    rw [Worker.passes_iff rfl, hcounter]
    refine iff_of_false ?_ (Worker.not_passes_idle hidle _ _ _)
    rintro (⟨finished, hfinished, -⟩ | hcover)
    · cases hfinished
    · exact request.not_covers_first _ _ _ hcover
  · intro entry hentry
    cases hentry
    exact ⟨rfl, call, hcall, rfl, hcallParent⟩

theorem startChain_step {headers : HeaderBuild} {build : IdBuild}
    {input : RequestInput} {module : CtrlModule}
    {record record' : SamplingRecord} {prior chain : ChainState}
    (h : startChain headers build input module record prior =
      some (chain, record')) (hsampled : chain.isSampled = false) :
    chain.span = prior.span := by
  rw [startChain, Option.map_eq_some_iff] at h
  obtain ⟨⟨decision, after⟩, -, hstate⟩ := h
  obtain ⟨rfl, rfl⟩ := Prod.mk.injEq .. ▸ hstate
  cases decision with
  | false => rfl
  | true => simp [moChainCtor] at hsampled

theorem Inv.rinit {headers : HeaderBuild} {system : System}
    (inv : Inv headers system) {index : Nat} {input : RequestInput}
    {module : CtrlModule} {record record' : SamplingRecord}
    {chain : ChainState}
    (hidle : (system.workers index).serving = none)
    (hlinked : Linked headers system.messages input)
    (hstart : startChain headers .random input module record
      (system.workers index).chain = some (chain, record')) :
    Inv headers (system.rinit index chain) := by
  cases hsampled : chain.isSampled with
  | false =>
      have hspan := startChain_step hstart hsampled
      simp only [System.rinit, hsampled, Bool.false_eq_true, if_false]
      refine inv.quiet [] none ?_ (by simp) (by simp) ?_
        (by simp)
      · simp [Worker.counter, hspan]
      · simp [Worker.Passes, hidle]
  | true =>
      obtain ⟨-, ip, port, hpch, hspan⟩ := startChain_sampled hstart hsampled
      rcases hlinked with ⟨-, hspanId, hparent⟩ | ⟨hcli, sent, hmem, hdeliver⟩
      · exact inv.rinit_fresh hidle hsampled hpch hspan hspanId hparent
      · obtain ⟨user, spanId, parent, context, rfl, call, hcall, rfl,
          hcallParent⟩ := inv.messages sent hmem
        rw [ofInput_of_delivers hcli hdeliver] at hpch hspan
        exact inv.rinit_received hidle hsampled hpch hspan hcall rfl rfl
          hcallParent

theorem Step.inv {headers : HeaderBuild} {system system' : System}
    (h : Step headers system system') (inv : Inv headers system) :
    Inv headers system' := by
  cases h with
  | rinit index _ _ _ _ _ hidle hlinked hstart =>
      exact inv.rinit hidle hlinked hstart
  | enter index hserving => exact inv.enter hserving
  | leave index _ hdepth => exact inv.leave hdepth
  | curlExec index _ _ hserving hsent => exact inv.curlExec hserving hsent
  | rshutdown index _ hserving => exact inv.rshutdown hserving

theorem Reachable.inv {headers : HeaderBuild} {system : System}
    (h : Reachable headers system) : Inv headers system := by
  obtain ⟨initial, hinitial, hrun⟩ := h
  induction hrun with
  | refl => exact hinitial.inv
  | tail _ hstep ih => exact hstep.inv ih

end Molten.Cluster
