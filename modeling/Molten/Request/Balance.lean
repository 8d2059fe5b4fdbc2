import Molten.Request.Call

namespace Molten.Request

open Molten.Control
open Molten.Span
open Molten.Chain

/-! How calls leave the span stack.  Whether a call returns, and how many
contexts it leaves behind, can be read off the call. -/

mutual
def Call.exit : Call → Exit
  | .plain body => body.exit
  | .intercepted record body => record.exit.andThen body.exit
  | .curlExec _ body => body.exit
  | .curlExecRejected body => body.exit
  | .curlSetopt _ => .returned
  | .curlSetoptArray _ => .returned
  | .curlReset _ => .returned
  | .elapse _ => .returned

def Record.exit : Record → Exit
  | .silent calls => calls.exit
  | .span before after => before.exit.andThen after.exit
  | .multiAdd _ => .returned
  | .multiRemove _ => .returned

def CallSeq.exit : CallSeq → Exit
  | .done => .returned
  | .bailout => .bailed
  | .next call rest => call.exit.andThen rest.exit
end

def Exit.ifReturned (count : Nat) : Exit → Nat
  | .returned => count
  | .bailed => 0

def Exit.ifBailed (count : Nat) : Exit → Nat
  | .returned => 0
  | .bailed => count

mutual
/-- Contexts pushed by the call and never popped. -/
def Call.leaks : Call → Nat
  | .plain body => body.leaks
  | .intercepted record body =>
      body.leaks + record.leaks + Exit.ifBailed 1 record.exit
  | .curlExec _ body => body.leaks + Exit.ifBailed 1 body.exit
  | .curlExecRejected body => body.leaks + 1
  | .curlSetopt _ => 0
  | .curlSetoptArray _ => 0
  | .curlReset _ => 0
  | .elapse _ => 0

def Record.leaks : Record → Nat
  | .silent calls => calls.leaks
  | .span before after =>
      before.leaks + Exit.ifReturned after.leaks before.exit
  | .multiAdd _ => 0
  | .multiRemove _ => 0

def CallSeq.leaks : CallSeq → Nat
  | .done => 0
  | .bailout => 0
  | .next call rest => call.leaks + Exit.ifReturned rest.leaks call.exit
end

mutual
/-- No `curl_exec` that is reached has its arguments rejected or is left by an
unwinding, and no record callback that is reached is left by one. -/
def Call.Clean : Call → Prop
  | .plain body => body.Clean
  | .intercepted record body =>
      body.Clean ∧ record.Clean ∧ record.exit = .returned
  | .curlExec _ body => body.Clean ∧ body.exit = .returned
  | .curlExecRejected _ => False
  | .curlSetopt _ => True
  | .curlSetoptArray _ => True
  | .curlReset _ => True
  | .elapse _ => True

def Record.Clean : Record → Prop
  | .silent calls => calls.Clean
  | .span before after =>
      before.Clean ∧ (before.exit = .returned → after.Clean)
  | .multiAdd _ => True
  | .multiRemove _ => True

def CallSeq.Clean : CallSeq → Prop
  | .done => True
  | .bailout => True
  | .next call rest => call.Clean ∧ (call.exit = .returned → rest.Clean)
end

theorem Exit.ifReturned_eq_zero {count : Nat} {exit : Exit} :
    Exit.ifReturned count exit = 0 ↔ (exit = .returned → count = 0) := by
  cases exit <;> simp [Exit.ifReturned]

theorem Exit.ifBailed_one_eq_zero {exit : Exit} :
    Exit.ifBailed 1 exit = 0 ↔ exit = .returned := by
  cases exit <;> simp [Exit.ifBailed]

mutual
theorem Call.leaks_eq_zero : ∀ call : Call, call.leaks = 0 ↔ call.Clean
  | .plain body => body.leaks_eq_zero
  | .intercepted record body => by
      simp only [Call.leaks, Call.Clean, Nat.add_eq_zero_iff,
        body.leaks_eq_zero, record.leaks_eq_zero,
        Exit.ifBailed_one_eq_zero, and_assoc]
  | .curlExec _ body => by
      simp only [Call.leaks, Call.Clean, Nat.add_eq_zero_iff,
        body.leaks_eq_zero, Exit.ifBailed_one_eq_zero]
  | .curlExecRejected body => by simp [Call.leaks, Call.Clean]
  | .curlSetopt _ => by simp [Call.leaks, Call.Clean]
  | .curlSetoptArray _ => by simp [Call.leaks, Call.Clean]
  | .curlReset _ => by simp [Call.leaks, Call.Clean]
  | .elapse _ => by simp [Call.leaks, Call.Clean]

theorem Record.leaks_eq_zero :
    ∀ record : Record, record.leaks = 0 ↔ record.Clean
  | .silent calls => calls.leaks_eq_zero
  | .span before after => by
      simp only [Record.leaks, Record.Clean, Nat.add_eq_zero_iff,
        before.leaks_eq_zero, Exit.ifReturned_eq_zero, after.leaks_eq_zero]
  | .multiAdd _ => by simp [Record.leaks, Record.Clean]
  | .multiRemove _ => by simp [Record.leaks, Record.Clean]

theorem CallSeq.leaks_eq_zero :
    ∀ calls : CallSeq, calls.leaks = 0 ↔ calls.Clean
  | .done => by simp [CallSeq.leaks, CallSeq.Clean]
  | .bailout => by simp [CallSeq.leaks, CallSeq.Clean]
  | .next call rest => by
      simp only [CallSeq.leaks, CallSeq.Clean, Nat.add_eq_zero_iff,
        call.leaks_eq_zero, Exit.ifReturned_eq_zero, rest.leaks_eq_zero]
end

/-! The programs leave what the calls say. -/

/-- From a sampled request, exit like this with so many contexts above those
that were there. -/
def Leaves (exit : Exit) (leaked : Nat) (program : Run Globals) : Prop :=
  ∀ base, Triple (fun g => g.Active ∧ g.ids = base) program fun exit' g =>
    exit' = exit ∧ g.Active ∧
      ∃ extra, extra.length = leaked ∧ g.ids = extra ++ base

namespace Leaves

variable {exit exit' : Exit} {leaked leaked' : Nat}

theorem act {change : Globals → Globals}
    (hactive : ∀ g, g.Active → (change g).Active)
    (hids : ∀ g, g.Active → (change g).ids = g.ids) :
    Leaves .returned 0 (.act change) := fun _ =>
  Triple.act fun g hg =>
    ⟨rfl, hactive g hg.1, [], rfl, (hids g hg.1).trans hg.2⟩

theorem skip : Leaves .returned 0 .skip :=
  act (fun _ hg => hg) fun _ _ => rfl

theorem bailout : Leaves .bailed 0 .bailout := fun _ =>
  Triple.bailout fun _ hg => ⟨rfl, hg.1, [], rfl, hg.2⟩

theorem andThen {first second : Run Globals}
    (hfirst : Leaves exit leaked first)
    (hsecond : Leaves exit' leaked' second) :
    Leaves (exit.andThen exit') (leaked + Exit.ifReturned leaked' exit)
      (first.andThen second) := by
  intro base g hg
  obtain ⟨hexit, hactive, extra, hlen, hids⟩ := hfirst base g hg
  cases exit with
  | bailed =>
      rw [Run.andThen_of_bailed hexit]
      exact ⟨rfl, hactive, extra, hlen, hids⟩
  | returned =>
      rw [Run.andThen_of_returned hexit]
      obtain ⟨hexit', hactive', extra', hlen', hids'⟩ :=
        hsecond _ _ ⟨hactive, hids⟩
      refine ⟨hexit', hactive', extra' ++ extra, ?_, ?_⟩
      · rw [List.length_append, hlen, hlen', Exit.ifReturned, Nat.add_comm]
      · rw [hids', List.append_assoc]

theorem reading {program : Globals → Run Globals}
    (h : ∀ start : Globals, start.Active → Leaves exit leaked (program start)) :
    Leaves exit leaked (.reading program) := fun base =>
  Triple.reading fun start =>
    fun g ⟨hstart, hg⟩ => h start (hstart ▸ hg.1) base g hg

end Leaves

theorem active_curlPush (build : Build) {g : Globals} (h : g.Active) :
    (curlPush build g).Active ∧
      (curlPush build g).ids =
        g.chain.span.nextSpanId build.ids :: g.ids := by
  rw [curlPush, if_pos h.1]
  exact ⟨h, ids_frameBuild build g⟩

theorem active_curlRecord (entryTime : Nat) (spanId : Option String)
    {g : Globals} (h : g.Active) :
    (curlRecord entryTime spanId g).Active ∧
      (curlRecord entryTime spanId g).ids = g.ids.tail := by
  rw [curlRecord, if_pos h.1]
  refine ⟨by simpa using h, ?_⟩
  simp [Globals.ids, Globals.mapSpan]

namespace Leaves

variable {exit exit' : Exit} {leaked leaked' : Nat}

theorem actChain {change : Globals → Globals}
    (h : ∀ g, SameTrace (change g) g) :
    Leaves .returned 0 (.act change) :=
  act (fun g hg => ((h g).active hg).1) fun g hg => ((h g).active hg).2

theorem moExecuteCore {build : Build} {body : Run Globals}
    {record : Frame → Run Globals} (hbody : Leaves exit leaked body)
    (hrecord : ∀ frame, Leaves exit' leaked' (record frame)) :
    Leaves (exit'.andThen exit) (leaked + leaked' + Exit.ifBailed 1 exit')
      (moExecuteCore build record body) := by
  rintro base g ⟨hactive, rfl⟩
  rw [Request.moExecuteCore, Run.reading_apply, if_pos hactive,
    Run.act_andThen, Run.ensuring_state, Run.ensuring_exit,
    Run.reading_apply]
  obtain ⟨hexit, hactive₁, extra, hlen, hids₁⟩ :=
    hbody _ (frameBuild build g) ⟨hactive, ids_frameBuild build g⟩
  obtain ⟨hexit', hactive₂, extra', hlen', hids₂⟩ :=
    hrecord ⟨g.clock, (body (frameBuild build g)).1.clock⟩ _ _
      ⟨hactive₁, hids₁⟩
  cases exit' with
  | bailed =>
      rw [Run.andThen_of_bailed hexit']
      refine ⟨rfl, hactive₂,
        extra' ++ extra ++ [g.chain.span.nextSpanId build.ids], ?_, ?_⟩
      · simp only [List.length_append, List.length_singleton, hlen, hlen',
          Exit.ifBailed]
        omega
      · rw [hids₂]
        simp
  | returned =>
      rw [Run.andThen_of_returned hexit']
      refine ⟨hexit, hactive₂,
        (extra' ++ extra ++ [g.chain.span.nextSpanId build.ids]).tail, ?_, ?_⟩
      · simp only [List.length_tail, List.length_append,
          List.length_singleton, hlen, hlen', Exit.ifBailed]
        omega
      · rw [Run.act_apply, ids_frameDestroy, hids₂]
        cases extra' <;> cases extra <;> simp

theorem moltenCurlExec {build : Build} {handle : Nat} {body : Run Globals}
    (hbody : Leaves exit leaked body) :
    Leaves exit (leaked + Exit.ifBailed 1 exit)
      (moltenCurlExec build handle body) := by
  rintro base g ⟨hactive, rfl⟩
  obtain ⟨hactive₁, hids₁⟩ := active_curlPush build hactive
  obtain ⟨hactive₂, hids₂⟩ :=
    (onlyCurl_setTraceHeader build handle _).sameTrace.active hactive₁
  obtain ⟨hexit, hactive₃, extra, hlen, hids₃⟩ :=
    hbody _ _ ⟨hactive₂, hids₂.trans hids₁⟩
  rw [Request.moltenCurlExec, Run.reading_apply, Run.act_andThen,
    Run.reading_apply, Run.act_andThen]
  cases exit with
  | bailed =>
      rw [Run.andThen_of_bailed hexit]
      refine ⟨rfl, hactive₃,
        extra ++ [g.chain.span.nextSpanId build.ids], ?_, ?_⟩
      · simp [hlen, Exit.ifBailed]
      · rw [hids₃]
        simp
  | returned =>
      rw [Run.andThen_of_returned hexit]
      obtain ⟨hactive₄, hids₄⟩ := active_curlRecord g.clock
        (curlPush build g).chain.span.retrieveSpanId hactive₃
      refine ⟨rfl, hactive₄,
        (extra ++ [g.chain.span.nextSpanId build.ids]).tail, ?_, ?_⟩
      · simp [hlen, Exit.ifBailed]
      · rw [Run.act_apply, hids₄, hids₃]
        cases extra <;> simp

theorem moltenCurlExecRejected {build : Build} {body : Run Globals}
    (hbody : Leaves exit leaked body) :
    Leaves exit (leaked + 1) (moltenCurlExecRejected build body) := by
  rintro base g ⟨hactive, rfl⟩
  obtain ⟨hactive₁, hids₁⟩ := active_curlPush build hactive
  obtain ⟨hexit, hactive₂, extra, hlen, hids₂⟩ :=
    hbody _ _ ⟨hactive₁, hids₁⟩
  rw [Request.moltenCurlExecRejected, Run.act_andThen]
  refine ⟨hexit, hactive₂, extra ++ [g.chain.span.nextSpanId build.ids], ?_,
    ?_⟩
  · rw [List.length_append, hlen, List.length_singleton]
  · rw [hids₂]
    simp

theorem recordSpan {before after : Run Globals}
    (hbefore : Leaves exit leaked before)
    (hafter : Leaves exit' leaked' after) (frame : Frame) :
    Leaves (exit.andThen exit') (leaked + Exit.ifReturned leaked' exit)
      (recordSpan before after frame) := by
  refine hbefore.andThen (reading fun start hstart => ?_)
  have hadd : Leaves .returned 0 (.act (moChainAddSpan
      (startSpan .client frame.entryTime frame.exitTime start))) :=
    act (fun g hg => by simpa using hg) fun g _ => by simp
  have hseq := hafter.andThen hadd
  cases exit' <;> simpa [Exit.ifReturned] using hseq

end Leaves

theorem sameTrace_curlMultiRemoveHandleRecord (handle : Nat) (frame : Frame)
    (g : Globals) :
    SameTrace (curlMultiRemoveHandleRecord handle frame g) g := by
  unfold curlMultiRemoveHandleRecord
  split
  · exact sameTrace_moChainAddSpan _ _
  · exact ⟨rfl, rfl⟩

mutual
theorem Call.leaves (build : Build) :
    ∀ call : Call, Leaves call.exit call.leaks (call.run build)
  | .plain body => body.leaves build
  | .intercepted record body =>
      .moExecuteCore (body.leaves build) (record.leaves build)
  | .curlExec _ body => .moltenCurlExec (body.leaves build)
  | .curlExecRejected body => .moltenCurlExecRejected (body.leaves build)
  | .curlSetopt args =>
      .actChain fun g => (onlyCurl_userSetopt args g).sameTrace
  | .curlSetoptArray args =>
      .actChain fun g => (onlyCurl_userSetoptArray args g).sameTrace
  | .curlReset handle =>
      .actChain fun g => (onlyCurl_userReset handle g).sameTrace
  | .elapse _ => .actChain fun _ => ⟨rfl, rfl⟩

theorem Record.leaves (build : Build) : ∀ (record : Record) (frame : Frame),
    Leaves record.exit record.leaks (record.run build frame)
  | .silent calls, _ => calls.leaves build
  | .span before after, frame =>
      .recordSpan (before.leaves build) (after.leaves build) frame
  | .multiAdd _, _ => .actChain fun _ => ⟨rfl, rfl⟩
  | .multiRemove handle, frame =>
      .actChain (sameTrace_curlMultiRemoveHandleRecord handle frame)

theorem CallSeq.leaves (build : Build) :
    ∀ calls : CallSeq, Leaves calls.exit calls.leaks (calls.run build)
  | .done => .skip
  | .bailout => .bailout
  | .next call rest => (call.leaves build).andThen (rest.leaves build)
end

theorem Call.ids_run_iff (call : Call) (build : Build) {g : Globals}
    (h : g.Active) : (call.run build g).1.ids = g.ids ↔ call.Clean := by
  obtain ⟨-, -, extra, hlen, hids⟩ := call.leaves build g.ids g ⟨h, rfl⟩
  rw [hids, ← call.leaks_eq_zero, ← hlen, List.append_left_eq_self,
    List.length_eq_zero_iff]

theorem CallSeq.ids_run_iff (calls : CallSeq) (build : Build) {g : Globals}
    (h : g.Active) : (calls.run build g).1.ids = g.ids ↔ calls.Clean := by
  obtain ⟨-, -, extra, hlen, hids⟩ := calls.leaves build g.ids g ⟨h, rfl⟩
  rw [hids, ← calls.leaks_eq_zero, ← hlen, List.append_left_eq_self,
    List.length_eq_zero_iff]

theorem CallSeq.active_run (calls : CallSeq) (build : Build) {g : Globals}
    (h : g.Active) : (calls.run build g).1.Active :=
  (calls.leaves build g.ids g ⟨h, rfl⟩).2.1

theorem CallSeq.exit_run (calls : CallSeq) (build : Build) {g : Globals}
    (h : g.Active) : (calls.run build g).2 = calls.exit :=
  (calls.leaves build g.ids g ⟨h, rfl⟩).1

theorem Call.active_run (call : Call) (build : Build) {g : Globals}
    (h : g.Active) : (call.run build g).1.Active :=
  (call.leaves build g.ids g ⟨h, rfl⟩).2.1

theorem Call.exit_run (call : Call) (build : Build) {g : Globals}
    (h : g.Active) : (call.run build g).2 = call.exit :=
  (call.leaves build g.ids g ⟨h, rfl⟩).1

/-! Every call of a run, with the stack before and after it. -/

structure Visit where
  before : List String
  after : List String
  deriving DecidableEq, Repr

def visit (program : Run Globals) (g : Globals) : Visit :=
  ⟨g.ids, (program g).1.ids⟩

mutual
def Call.visits (build : Build) : Call → Globals → List Visit
  | .plain body, g =>
      visit ((Call.plain body).run build) g :: body.visits build g
  | .intercepted record body, g =>
      visit ((Call.intercepted record body).run build) g ::
        if g.Active then
          body.visits build (frameBuild build g) ++
            record.visits build (body.run build (frameBuild build g)).1
        else body.visits build g
  | .curlExec handle body, g =>
      visit ((Call.curlExec handle body).run build) g ::
        body.visits build (setTraceHeader build handle (curlPush build g))
  | .curlExecRejected body, g =>
      visit ((Call.curlExecRejected body).run build) g ::
        body.visits build (curlPush build g)
  | .curlSetopt args, g => [visit ((Call.curlSetopt args).run build) g]
  | .curlSetoptArray args, g =>
      [visit ((Call.curlSetoptArray args).run build) g]
  | .curlReset handle, g => [visit ((Call.curlReset handle).run build) g]
  | .elapse millis, g => [visit ((Call.elapse millis).run build) g]

def Record.visits (build : Build) : Record → Globals → List Visit
  | .silent calls, g => calls.visits build g
  | .span before after, g =>
      before.visits build g ++
        if (before.run build g).2 = .returned then
          after.visits build (before.run build g).1
        else []
  | .multiAdd _, _ => []
  | .multiRemove _, _ => []

def CallSeq.visits (build : Build) : CallSeq → Globals → List Visit
  | .done, _ => []
  | .bailout, _ => []
  | .next call rest, g =>
      call.visits build g ++
        if (call.run build g).2 = .returned then
          rest.visits build (call.run build g).1
        else []
end

def phasesVisits (build : Build) : List CallSeq → Globals → List Visit
  | [], _ => []
  | phase :: phases, g =>
      phase.visits build g ++ phasesVisits build phases (phase.run build g).1

def Visit.Balanced (visit : Visit) : Prop := visit.after = visit.before

theorem Call.visit_balanced_iff (call : Call) (build : Build) {g : Globals}
    (h : g.Active) : (visit (call.run build) g).Balanced ↔ call.Clean :=
  call.ids_run_iff build h

mutual
theorem Call.balanced_of_clean (build : Build) : ∀ (call : Call) {g : Globals},
    g.Active → call.Clean → ∀ visit ∈ call.visits build g, visit.Balanced
  | .plain body, g, hg, hclean => by
      have hself := ((Call.plain body).visit_balanced_iff build hg).mpr hclean
      simp only [Call.visits, List.forall_mem_cons]
      exact ⟨hself, body.balanced_of_clean build hg hclean⟩
  | .intercepted record body, g, hg, hclean => by
      have hself := ((Call.intercepted record body).visit_balanced_iff build
        hg).mpr hclean
      obtain ⟨hbody, hrecord, -⟩ := hclean
      simp only [Call.visits, List.forall_mem_cons, if_pos hg,
        List.forall_mem_append]
      exact ⟨hself, body.balanced_of_clean build
          ((active_frameBuild build g).mpr hg) hbody,
        record.balanced_of_clean build (body.active_run build
          ((active_frameBuild build g).mpr hg)) hrecord⟩
  | .curlExec handle body, g, hg, hclean => by
      have hself := ((Call.curlExec handle body).visit_balanced_iff build
        hg).mpr hclean
      have hactive := ((onlyCurl_setTraceHeader build handle _).sameTrace.active
        (active_curlPush build hg).1).1
      simp only [Call.visits, List.forall_mem_cons]
      exact ⟨hself, body.balanced_of_clean build hactive hclean.1⟩
  | .curlExecRejected _, _, _, hclean => hclean.elim
  | .curlSetopt args, g, hg, hclean => by
      simp only [Call.visits, List.forall_mem_singleton]
      exact ((Call.curlSetopt args).visit_balanced_iff build hg).mpr hclean
  | .curlSetoptArray args, g, hg, hclean => by
      simp only [Call.visits, List.forall_mem_singleton]
      exact ((Call.curlSetoptArray args).visit_balanced_iff build hg).mpr
        hclean
  | .curlReset handle, g, hg, hclean => by
      simp only [Call.visits, List.forall_mem_singleton]
      exact ((Call.curlReset handle).visit_balanced_iff build hg).mpr hclean
  | .elapse millis, g, hg, hclean => by
      simp only [Call.visits, List.forall_mem_singleton]
      exact ((Call.elapse millis).visit_balanced_iff build hg).mpr hclean

theorem Record.balanced_of_clean (build : Build) :
    ∀ (record : Record) {g : Globals}, g.Active → record.Clean →
      ∀ visit ∈ record.visits build g, visit.Balanced
  | .silent calls, _, hg, hclean => calls.balanced_of_clean build hg hclean
  | .span before after, g, hg, hclean => by
      obtain ⟨hbefore, hafter⟩ := hclean
      simp only [Record.visits, List.forall_mem_append]
      refine ⟨before.balanced_of_clean build hg hbefore, ?_⟩
      split
      · rename_i hexit
        rw [before.exit_run build hg] at hexit
        exact after.balanced_of_clean build (before.active_run build hg)
          (hafter hexit)
      · simp
  | .multiAdd _, _, _, _ => by simp [Record.visits]
  | .multiRemove _, _, _, _ => by simp [Record.visits]

theorem CallSeq.balanced_of_clean (build : Build) :
    ∀ (calls : CallSeq) {g : Globals}, g.Active → calls.Clean →
      ∀ visit ∈ calls.visits build g, visit.Balanced
  | .done, _, _, _ => by simp [CallSeq.visits]
  | .bailout, _, _, _ => by simp [CallSeq.visits]
  | .next call rest, g, hg, hclean => by
      obtain ⟨hcall, hrest⟩ := hclean
      simp only [CallSeq.visits, List.forall_mem_append]
      refine ⟨call.balanced_of_clean build hg hcall, ?_⟩
      split
      · rename_i hexit
        rw [call.exit_run build hg] at hexit
        exact rest.balanced_of_clean build (call.active_run build hg)
          (hrest hexit)
      · simp
end

theorem Call.visit_mem_visits (call : Call) (build : Build) (g : Globals) :
    visit (call.run build) g ∈ call.visits build g := by
  cases call <;> exact List.mem_cons_self

theorem CallSeq.clean_of_balanced (build : Build) :
    ∀ (calls : CallSeq) {g : Globals}, g.Active →
      (∀ visit ∈ calls.visits build g, visit.Balanced) → calls.Clean
  | .done, _, _, _ => trivial
  | .bailout, _, _, _ => trivial
  | .next call rest, g, hg, hbalanced => by
      simp only [CallSeq.visits, List.forall_mem_append] at hbalanced
      obtain ⟨hcall, hrest⟩ := hbalanced
      refine ⟨(call.visit_balanced_iff build hg).mp
        (hcall _ (call.visit_mem_visits build g)), fun hexit => ?_⟩
      rw [call.exit_run build hg, if_pos hexit] at hrest
      exact rest.clean_of_balanced build (call.active_run build hg) hrest

theorem CallSeq.balanced_iff (calls : CallSeq) (build : Build) {g : Globals}
    (h : g.Active) :
    (∀ visit ∈ calls.visits build g, visit.Balanced) ↔ calls.Clean :=
  ⟨calls.clean_of_balanced build h, calls.balanced_of_clean build h⟩

/-! Whole requests. -/

theorem phases_balanced_iff (build : Build) (phases : List CallSeq)
    {g : Globals} (h : g.Active) :
    (∀ visit ∈ phasesVisits build phases g, visit.Balanced) ↔
      ∀ phase ∈ phases, phase.Clean := by
  induction phases generalizing g with
  | nil => simp [phasesVisits]
  | cons phase phases ih =>
      simp only [phasesVisits, List.forall_mem_append, List.forall_mem_cons,
        phase.balanced_iff build h, ih (phase.active_run build h)]

theorem ids_runPhases_of_clean {build : Build} {phases : List CallSeq}
    {g : Globals} (h : g.Active) (hclean : ∀ phase ∈ phases, phase.Clean) :
    (runPhases build phases g).ids = g.ids := by
  induction phases generalizing g with
  | nil => rfl
  | cons phase phases ih =>
      rw [List.forall_mem_cons] at hclean
      rw [runPhases_cons, ih (phase.active_run build h) hclean.2,
        (phase.ids_run_iff build h).mpr hclean.1]

theorem mainSpan_ids (g : Globals) :
    (mainSpan g).id = g.ids.head? ∧
      (mainSpan g).parentId = g.ids.tail.head? :=
  ⟨SpanState.retrieveSpanId_eq _, SpanState.retrieveParentSpanId_eq _⟩

/-- Every call leaves the stack as it found it, and the main span carries the
ids RINIT put there. -/
structure StackBalanced (build : Build) (phases : List CallSeq)
    (start : Globals) : Prop where
  calls : ∀ visit ∈ phasesVisits build phases start, visit.Balanced
  mainId : (mainSpan (runPhases build phases start)).id =
    start.chain.span.retrieveSpanId
  mainParentId : (mainSpan (runPhases build phases start)).parentId =
    start.chain.span.retrieveParentSpanId

/-- A sampled request keeps its stack balanced exactly when its calls are
clean. -/
theorem stack_balanced_iff {build : Build} {input : RequestInput}
    {module : Ctrl.CtrlModule} {record record' : Ctrl.SamplingRecord}
    {prior start : Globals}
    (hstart : phpRinit build input module record prior =
      some (start, record'))
    (hsampled : start.chain.isSampled = true) (phases : List CallSeq) :
    StackBalanced build phases start ↔ ∀ phase ∈ phases, phase.Clean := by
  have hactive : start.Active := (phpRinit_sampled hstart hsampled).1
  rw [← phases_balanced_iff build phases hactive]
  refine ⟨StackBalanced.calls, fun hbalanced => ⟨hbalanced, ?_, ?_⟩⟩
  all_goals
    have hclean := (phases_balanced_iff build phases hactive).mp hbalanced
    have hids : (runPhases build phases start).ids = start.ids :=
      ids_runPhases_of_clean hactive hclean
  · rw [(mainSpan_ids _).1, hids, SpanState.retrieveSpanId_eq, Globals.ids]
  · rw [(mainSpan_ids _).2, hids, SpanState.retrieveParentSpanId_eq,
      Globals.ids]

def freshGlobals : Globals where
  inRequest := false
  chain := ⟨false, moInitChainHeader .molten "" 0, ⟨[], 0⟩⟩
  spans := none
  curlHeaderRecord := fun _ => none
  curlHeaderInternelCall := false
  spanInfoCache := fun _ => none
  executeBeginTime := 0
  clock := 0
  events := []

def scriptInput : RequestInput :=
  ⟨true, fun _ => none, "127.0.0.1", 0, 0, "00000000000000a1"⟩

def scriptStart (ids : IdBuild) : Globals where
  inRequest := true
  chain :=
    { isSampled := true
      pch := TraceContext.header .molten
        ⟨"00000000000000a1", none, none, "1", "0"⟩ "127.0.0.1" 0
      span := pushEntry ids none none ⟨[], 0⟩ }
  spans := some []
  curlHeaderRecord := fun _ => none
  curlHeaderInternelCall := false
  spanInfoCache := fun _ => none
  executeBeginTime := 0
  clock := 0
  events := []

theorem phpRinit_script (ids : IdBuild) :
    phpRinit ⟨.molten, ids⟩ scriptInput ⟨1, 1, 1, 0⟩ ⟨0, 0⟩ freshGlobals =
      some (scriptStart ids, ⟨0, 0⟩) := by
  cases ids <;> rfl

theorem stack_balanced_of_abort :
    StackBalanced ⟨.molten, .level⟩
      [.next (.intercepted (.span .done .done) .bailout) .done]
      (scriptStart .level) :=
  (stack_balanced_iff (phpRinit_script .level) rfl _).mpr
    (by simp [CallSeq.Clean, Call.Clean, Record.Clean, Record.exit,
      CallSeq.exit, Exit.andThen])

/-- After `curl_exec()` without arguments the main span is no longer "1". -/
theorem not_stack_balanced_rejected :
    phpRinit ⟨.molten, .level⟩ scriptInput ⟨1, 1, 1, 0⟩ ⟨0, 0⟩ freshGlobals =
        some (scriptStart .level, ⟨0, 0⟩) ∧
      (scriptStart .level).ids = ["1"] ∧
      (mainSpan (runPhases ⟨.molten, .level⟩
        [.next (.curlExecRejected .done) .done] (scriptStart .level))).id =
          some "1.1" ∧
      ¬ StackBalanced ⟨.molten, .level⟩
        [.next (.curlExecRejected .done) .done] (scriptStart .level) := by
  refine ⟨phpRinit_script .level, by decide, by decide, fun hbalanced => ?_⟩
  exact absurd hbalanced.mainId (by decide)

end Molten.Request
