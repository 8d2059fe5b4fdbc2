import Molten.Request.Balance
import Molten.Request.Invariant

namespace Molten.Request

open Molten.Control
open Molten.Span
open Molten.Chain

/-! The spans of a call tree, with every parent read off the tree.  Nothing here
looks at the stack below the context that a push numbers its child under. -/

structure TreeState where
  span : SpanState
  clock : Nat
  spanInfoCache : Nat → Option Nat

/-- The spans in the order they are finished, and the ids of calls that
recorded none. -/
structure Output where
  spans : List Span
  silent : List String
  deriving DecidableEq, Repr

instance : Append Output :=
  ⟨fun out out' =>
    ⟨out.spans ++ out'.spans, out.silent ++ out'.silent⟩⟩

namespace Output

@[simp] theorem spans_append (out out' : Output) :
    (out ++ out').spans = out.spans ++ out'.spans := rfl

@[simp] theorem silent_append (out out' : Output) :
    (out ++ out').silent = out.silent ++ out'.silent := rfl

@[simp] theorem append_empty (out : Output) : out ++ ⟨[], []⟩ = out :=
  congrArg₂ mk (List.append_nil _) (List.append_nil _)

theorem append_assoc (out out' out'' : Output) :
    out ++ out' ++ out'' = out ++ (out' ++ out'') :=
  congrArg₂ mk (List.append_assoc ..) (List.append_assoc ..)

end Output

def TreeState.enter (ids : IdBuild) (s : TreeState) : TreeState :=
  { s with span := s.span.pushSpanContext ids }

def TreeState.leave (s : TreeState) : TreeState :=
  { s with span := s.span.popSpanContext }

abbrev Tree := TreeState → TreeState × Output

namespace Tree

def change (f : TreeState → TreeState) : Tree := fun s => (f s, ⟨[], []⟩)

def skip : Tree := change id

def record (span : Span) : Tree := fun s => (s, ⟨[span], []⟩)

def unrecorded (spanId : String) : Tree := fun s => (s, ⟨[], [spanId]⟩)

def andThen (first second : Tree) : Tree := fun s =>
  let (s, out) := first s
  let (s, out') := second s
  (s, out ++ out')

def reading (tree : TreeState → Tree) : Tree := fun s => tree s s

def after (exit : Exit) (tree : Tree) : Tree :=
  match exit with
  | .returned => tree
  | .bailed => skip

def within (ids : IdBuild) (body : String → Tree) : Tree :=
  reading fun s =>
    (change (TreeState.enter ids)).andThen <|
      (body (s.span.nextSpanId ids)).andThen (change TreeState.leave)

theorem andThen_apply_snd (first second : Tree) (s : TreeState) :
    (first.andThen second s).2 =
      (first s).2 ++ (second (first s).1).2 := rfl

@[simp] theorem andThen_apply_spans (first second : Tree) (s : TreeState) :
    (first.andThen second s).2.spans =
      (first s).2.spans ++ (second (first s).1).2.spans := rfl

theorem within_snd (ids : IdBuild) (body : String → Tree) (s : TreeState) :
    (within ids body s).2 =
      (body (s.span.nextSpanId ids) (s.enter ids)).2 := by
  exact Output.append_empty _

end Tree

def callSpan (own enclosing : String) (start finish : Nat) : Span :=
  ⟨some own, some enclosing, .client, start, finish⟩

mutual
def Call.tree (ids : IdBuild) (enclosing : String) : Call → Tree
  | .plain body => body.tree ids enclosing
  | .intercepted record body =>
      .reading fun start => .within ids fun own =>
        (body.tree ids own).andThen <| .reading fun left =>
          record.tree ids own enclosing ⟨start.clock, left.clock⟩
  | .curlExec _ body =>
      .reading fun start => .within ids fun own =>
        (body.tree ids own).andThen <| .reading fun left =>
          .after body.exit <|
            .record (callSpan own enclosing start.clock left.clock)
  | .curlExecRejected body => body.tree ids enclosing
  | .curlSetopt _ => .skip
  | .curlSetoptArray _ => .skip
  | .curlReset _ => .skip
  | .elapse millis =>
      .change fun s => { s with clock := s.clock + millis }

def Record.tree (ids : IdBuild) (own enclosing : String) :
    Record → Frame → Tree
  | .silent calls, _ => (calls.tree ids own).andThen (.unrecorded own)
  | .span before after, frame =>
      (before.tree ids own).andThen <|
        .after before.exit <| (after.tree ids own).andThen <|
          .after after.exit <| .record
            (callSpan own enclosing frame.entryTime frame.exitTime)
  | .multiAdd handle, frame =>
      (Tree.change fun s => { s with
        spanInfoCache :=
          Function.update s.spanInfoCache handle (some frame.entryTime) }
      ).andThen (.unrecorded own)
  | .multiRemove handle, frame =>
      .reading fun s =>
        match s.spanInfoCache handle with
        | some startTime =>
            .record (callSpan own enclosing startTime frame.exitTime)
        | none => .unrecorded own

def CallSeq.tree (ids : IdBuild) (enclosing : String) : CallSeq → Tree
  | .done => .skip
  | .bailout => .skip
  | .next call rest =>
      (call.tree ids enclosing).andThen <|
        .after call.exit (rest.tree ids enclosing)
end

def phasesTree (ids : IdBuild) (mainId : String) : List CallSeq → Tree
  | [] => .skip
  | phase :: phases =>
      (phase.tree ids mainId).andThen (phasesTree ids mainId phases)

def Globals.treeState (g : Globals) : TreeState :=
  ⟨g.chain.span, g.clock, g.spanInfoCache⟩

def requestSpans (ids : IdBuild) (mainId : String) (parentId : Option String)
    (phases : List CallSeq) (start : Globals) : List Span :=
  let (s, out) := phasesTree ids mainId phases start.treeState
  out.spans ++ [⟨some mainId, parentId, .server, start.clock, s.clock⟩]

/-! The stack machine simulates the tree. -/

/-- From a stack of these ids the program exits like this, leaves the ids, and
adds the spans of the tree up to the cap. -/
def Simulates (base : List String) (exit : Exit) (program : Run Globals)
    (tree : Tree) : Prop :=
  ∀ g spans, g.Active → g.ids = base →
    g.spans = some (spans.take maxSpans) →
    (program g).2 = exit ∧ (program g).1.Active ∧ (program g).1.ids = base ∧
      (program g).1.treeState = (tree g.treeState).1 ∧
      (program g).1.spans =
        some ((spans ++ (tree g.treeState).2.spans).take maxSpans)

namespace Simulates

variable {base : List String} {exit exit' : Exit}

theorem skip : Simulates base .returned .skip .skip :=
  fun g spans hg hids hspans =>
    ⟨rfl, hg, hids, rfl, by simpa [Tree.skip, Tree.change] using hspans⟩

theorem bailout : Simulates base .bailed .bailout .skip :=
  fun g spans hg hids hspans =>
    ⟨rfl, hg, hids, rfl, by simpa [Tree.skip, Tree.change] using hspans⟩

theorem andThen {first second : Run Globals} {tree tree' : Tree}
    (hfirst : Simulates base exit first tree)
    (hsecond : exit = .returned → Simulates base exit' second tree') :
    Simulates base (exit.andThen exit') (first.andThen second)
      (tree.andThen (.after exit tree')) := by
  intro g spans hg hids hspans
  obtain ⟨hexit, hactive, hids₁, hstate, hspans₁⟩ :=
    hfirst g spans hg hids hspans
  cases exit with
  | bailed =>
      rw [Run.andThen_of_bailed hexit]
      exact ⟨rfl, hactive, hids₁, hstate, by
        simpa [Tree.after, Tree.skip, Tree.change] using hspans₁⟩
  | returned =>
      rw [Run.andThen_of_returned hexit]
      obtain ⟨hexit', hactive', hids', hstate', hspans'⟩ :=
        hsecond rfl _ _ hactive hids₁ hspans₁
      refine ⟨hexit', hactive', hids', ?_, ?_⟩
      · rw [hstate', hstate]
        rfl
      · rw [hspans', hstate, List.append_assoc]
        rfl

theorem actChange {change : Globals → Globals}
    {change' : TreeState → TreeState}
    (hsame : ∀ g, SameTrace (change g) g)
    (hspans : ∀ g, (change g).spans = g.spans)
    (hstate : ∀ g, (change g).treeState = change' g.treeState) :
    Simulates base .returned (.act change) (.change change') := by
  rintro g spans hg rfl hspans'
  obtain ⟨hactive, hids⟩ := (hsame g).active hg
  refine ⟨rfl, hactive, hids, hstate g, ?_⟩
  rw [Run.act_apply, hspans, hspans', Tree.change, List.append_nil]

theorem actCurl {change : Globals → Globals}
    (h : ∀ g, OnlyCurl (change g) g) :
    Simulates base .returned (.act change) .skip := by
  refine actChange (fun g => (h g).sameTrace) (fun g => ?_) fun g => ?_
  · obtain ⟨record, internel, events, hchange⟩ := h g
    rw [hchange]
  · obtain ⟨record, internel, events, hchange⟩ := h g
    rw [hchange]
    rfl

theorem actRecord {span : Span} :
    Simulates base .returned (.act (moChainAddSpan span)) (.record span) := by
  intro g spans hg hids hspans
  refine ⟨rfl, by simpa using hg, by simpa using hids, ?_, ?_⟩
  · obtain ⟨more, h⟩ := moChainAddSpan_eq span g
    rw [Run.act_apply, h]
    rfl
  · exact spans_moChainAddSpan hspans span

theorem reading {program : Globals → Run Globals}
    {tree : TreeState → Tree}
    (h : ∀ start : Globals, start.ids = base →
      Simulates base exit (program start) (tree start.treeState)) :
    Simulates base exit (.reading program) (.reading tree) :=
  fun g spans hg hids hspans => h g hids g spans hg hids hspans

theorem readingIds {program : Globals → Run Globals} {tree : Tree}
    (h : ∀ start : Globals, start.ids = base →
      Simulates base exit (program start) tree) :
    Simulates base exit (.reading program) tree :=
  fun g spans hg hids hspans => h g hids g spans hg hids hspans

theorem andUnrecorded {program : Run Globals} {tree : Tree} {spanId : String}
    (h : Simulates base exit program tree) :
    Simulates base exit program (tree.andThen (.unrecorded spanId)) := by
  intro g spans hg hids hspans
  obtain ⟨hexit, hactive, hids', hstate, hspans'⟩ :=
    h g spans hg hids hspans
  exact ⟨hexit, hactive, hids', hstate, by simpa [Tree.unrecorded] using hspans'⟩

end Simulates

/-! The frames. -/

theorem Simulates.moExecuteCore {build : Build} {enclosing : String}
    {below : List String} {exit : Exit} {record : Frame → Run Globals}
    {body : Run Globals} {bodyTree : String → Tree}
    {recordTree : String → Frame → Tree}
    (hbody : ∀ own, Simulates (own :: enclosing :: below) exit body
      (bodyTree own))
    (hrecord : ∀ own frame, Simulates (own :: enclosing :: below) .returned
      (record frame) (recordTree own frame)) :
    Simulates (enclosing :: below) exit (moExecuteCore build record body)
      (.reading fun start => .within build.ids fun own =>
        (bodyTree own).andThen <| .reading fun left =>
          recordTree own ⟨start.clock, left.clock⟩) := by
  intro g spans hg hids hspans
  have hids₁ : (frameBuild build g).ids =
      g.chain.span.nextSpanId build.ids :: enclosing :: below := by
    rw [ids_frameBuild, hids]
  obtain ⟨hexit, hactive₂, hids₂, hstate₂, hspans₂⟩ :=
    hbody _ (frameBuild build g) spans hg hids₁ hspans
  have hcleanup : Simulates
      (g.chain.span.nextSpanId build.ids :: enclosing :: below) .returned
      (.reading fun left => record ⟨g.clock, left.clock⟩)
      (.reading fun left => recordTree (g.chain.span.nextSpanId build.ids)
        ⟨g.clock, left.clock⟩) :=
    .reading fun left _ => hrecord _ ⟨g.clock, left.clock⟩
  obtain ⟨hexit', hactive₃, hids₃, hstate₃, hspans₃⟩ :=
    hcleanup _ _ hactive₂ hids₂ hspans₂
  rw [Run.reading_apply] at hexit' hactive₃ hids₃ hstate₃ hspans₃
  rw [hstate₂] at hstate₃ hspans₃
  rw [Request.moExecuteCore, Run.reading_apply, if_pos hg, Run.act_andThen,
    Run.ensuring_state, Run.ensuring_exit, Run.reading_apply,
    Run.andThen_of_returned hexit', Run.act_apply]
  refine ⟨hexit, hactive₃, ?_, ?_, ?_⟩
  · rw [ids_frameDestroy, hids₃, List.tail_cons]
  · exact congrArg TreeState.leave hstate₃
  · rw [Tree.reading, Tree.within_snd, Tree.andThen_apply_spans,
      ← List.append_assoc]
    exact hspans₃

theorem startSpan_of_ids {g : Globals} {own enclosing : String}
    {below : List String} (h : g.ids = own :: enclosing :: below)
    (start finish : Nat) :
    startSpan .client start finish g = callSpan own enclosing start finish := by
  rw [startSpan, SpanState.retrieveSpanId_of_ids h,
    SpanState.retrieveParentSpanId_of_ids h]
  rfl

theorem curlRecord_of_ids {g : Globals} {own enclosing : String}
    {below : List String} (hg : g.Active)
    (h : g.ids = own :: enclosing :: below) (entryTime : Nat) :
    curlRecord entryTime (some own) g =
      frameDestroy (moChainAddSpan
        (callSpan own enclosing entryTime g.clock) g) := by
  rw [curlRecord, if_pos hg.1, startSpan_of_ids h]
  rfl

theorem Simulates.moltenCurlExec {build : Build} {handle : Nat}
    {enclosing : String} {below : List String} {body : Run Globals}
    {bodyTree : String → Tree}
    (hbody : ∀ own, Simulates (own :: enclosing :: below) .returned body
      (bodyTree own)) :
    Simulates (enclosing :: below) .returned (moltenCurlExec build handle body)
      (.reading fun start => .within build.ids fun own =>
        (bodyTree own).andThen <| .reading fun left =>
          .record (callSpan own enclosing start.clock left.clock)) := by
  intro g spans hg hids hspans
  have hpush : curlPush build g = frameBuild build g := by
    rw [curlPush, if_pos hg.1]
    rfl
  have hids₁ : (frameBuild build g).ids =
      g.chain.span.nextSpanId build.ids :: enclosing :: below := by
    rw [ids_frameBuild, hids]
  have hown : (frameBuild build g).chain.span.retrieveSpanId =
      some (g.chain.span.nextSpanId build.ids) :=
    SpanState.retrieveSpanId_of_ids hids₁
  obtain ⟨record, internel, events, hset⟩ :=
    onlyCurl_setTraceHeader build handle (frameBuild build g)
  obtain ⟨hexit, hactive₂, hids₂, hstate₂, hspans₂⟩ :=
    hbody _ (setTraceHeader build handle (frameBuild build g)) spans
      (by rw [hset]; exact hg) (by rw [hset]; exact hids₁)
      (by rw [hset]; exact hspans)
  have hstate₁ : (setTraceHeader build handle
      (frameBuild build g)).treeState = g.treeState.enter build.ids := by
    rw [hset]
    rfl
  rw [Request.moltenCurlExec, Run.reading_apply, Run.act_andThen,
    Run.reading_apply, Run.act_andThen, hpush,
    Run.andThen_of_returned hexit, Run.act_apply, hown,
    curlRecord_of_ids hactive₂ hids₂]
  have hspan : Simulates
      (g.chain.span.nextSpanId build.ids :: enclosing :: below) .returned
      (.reading fun left => .act (moChainAddSpan
        (callSpan (g.chain.span.nextSpanId build.ids) enclosing g.clock
          left.clock)))
      (.reading fun left => .record
        (callSpan (g.chain.span.nextSpanId build.ids) enclosing g.clock
          left.clock)) :=
    .reading fun _ _ => .actRecord
  obtain ⟨-, hactive₃, hids₃, hstate₃, hspans₃⟩ :=
    hspan _ _ hactive₂ hids₂ hspans₂
  rw [Run.reading_apply, Run.act_apply] at hactive₃ hids₃ hstate₃ hspans₃
  rw [hstate₂, hstate₁] at hstate₃ hspans₃
  refine ⟨rfl, hactive₃, ?_, ?_, ?_⟩
  · rw [ids_frameDestroy, hids₃, List.tail_cons]
  · exact congrArg TreeState.leave hstate₃
  · rw [Tree.reading, Tree.within_snd, Tree.andThen_apply_spans,
      ← List.append_assoc]
    exact hspans₃

theorem Simulates.recordSpan {own enclosing : String} {below : List String}
    {exit exit' : Exit} {before after : Run Globals}
    {beforeTree afterTree : Tree}
    (hbefore : Simulates (own :: enclosing :: below) exit before beforeTree)
    (hafter : exit = .returned →
      Simulates (own :: enclosing :: below) exit' after afterTree)
    (frame : Frame) :
    Simulates (own :: enclosing :: below) (exit.andThen exit')
      (recordSpan before after frame)
      (beforeTree.andThen <| .after exit <| afterTree.andThen <|
        .after exit' <| .record
          (callSpan own enclosing frame.entryTime frame.exitTime)) := by
  refine hbefore.andThen fun hexit => .readingIds fun start hids => ?_
  have hadd : Simulates (own :: enclosing :: below) .returned
      (.act (moChainAddSpan
        (startSpan .client frame.entryTime frame.exitTime start)))
      (.record (callSpan own enclosing frame.entryTime frame.exitTime)) := by
    rw [startSpan_of_ids hids]
    exact .actRecord
  have hseq := (hafter hexit).andThen fun _ => hadd
  rwa [Exit.andThen_returned] at hseq

theorem Simulates.multiRemove {own enclosing : String} {below : List String}
    (handle : Nat) (frame : Frame) :
    Simulates (own :: enclosing :: below) .returned
      (.act (curlMultiRemoveHandleRecord handle frame))
      (.reading fun s =>
        match s.spanInfoCache handle with
        | some startTime =>
            .record (callSpan own enclosing startTime frame.exitTime)
        | none => .unrecorded own) := by
  intro g spans hg hids hspans
  cases hcache : g.treeState.spanInfoCache handle with
  | none =>
      have hrun : Run.act (curlMultiRemoveHandleRecord handle frame) g =
          Run.skip g := by
        rw [Run.act_apply, curlMultiRemoveHandleRecord,
          show g.spanInfoCache handle = none from hcache]
        rfl
      simp only [hrun, Tree.reading, hcache]
      exact Simulates.skip g spans hg hids hspans
  | some startTime =>
      have hrun : Run.act (curlMultiRemoveHandleRecord handle frame) g =
          Run.act (moChainAddSpan
            (callSpan own enclosing startTime frame.exitTime)) g := by
        rw [Run.act_apply, curlMultiRemoveHandleRecord,
          show g.spanInfoCache handle = some startTime from hcache]
        simp only [startSpan_of_ids hids]
        rfl
      simp only [hrun, Tree.reading, hcache]
      exact Simulates.actRecord g spans hg hids hspans

/-! Every clean call. -/

mutual
theorem Call.simulates (build : Build) (enclosing : String)
    (below : List String) : ∀ call : Call, call.Clean →
      Simulates (enclosing :: below) call.exit (call.run build)
        (call.tree build.ids enclosing)
  | .plain body, hclean => body.simulates build enclosing below hclean
  | .intercepted record body, ⟨hbody, hrecord, hexit⟩ => by
      rw [Call.exit, hexit]
      refine .moExecuteCore
        (fun own => body.simulates build own (enclosing :: below) hbody)
        fun own frame => ?_
      rw [← hexit]
      exact record.simulates build own enclosing below frame hrecord
  | .curlExec _ body, ⟨hbody, hexit⟩ => by
      rw [Call.exit, hexit, Call.tree, hexit]
      refine .moltenCurlExec fun own => ?_
      rw [← hexit]
      exact body.simulates build own (enclosing :: below) hbody
  | .curlExecRejected _, hclean => hclean.elim
  | .curlSetopt args, _ => .actCurl (onlyCurl_userSetopt args)
  | .curlSetoptArray args, _ => .actCurl (onlyCurl_userSetoptArray args)
  | .curlReset handle, _ => .actCurl (onlyCurl_userReset handle)
  | .elapse _, _ =>
      .actChange (fun _ => ⟨rfl, rfl⟩) (fun _ => rfl) fun _ => rfl

theorem Record.simulates (build : Build) (own enclosing : String)
    (below : List String) (frame : Frame) :
    ∀ record : Record, record.Clean →
      Simulates (own :: enclosing :: below) record.exit
        (record.run build frame)
        (record.tree build.ids own enclosing frame)
  | .silent calls, hclean =>
      (calls.simulates build own (enclosing :: below) hclean).andUnrecorded
  | .span before after, ⟨hbefore, hafter⟩ =>
      .recordSpan (before.simulates build own (enclosing :: below) hbefore)
        (fun hexit => after.simulates build own (enclosing :: below)
          (hafter hexit)) frame
  | .multiAdd _, _ => .andUnrecorded <|
      .actChange (fun _ => ⟨rfl, rfl⟩) (fun _ => rfl) fun _ => rfl
  | .multiRemove handle, _ => .multiRemove handle frame

theorem CallSeq.simulates (build : Build) (enclosing : String)
    (below : List String) : ∀ calls : CallSeq, calls.Clean →
      Simulates (enclosing :: below) calls.exit (calls.run build)
        (calls.tree build.ids enclosing)
  | .done, _ => .skip
  | .bailout, _ => .bailout
  | .next call rest, ⟨hcall, hrest⟩ =>
      (call.simulates build enclosing below hcall).andThen fun hexit =>
        rest.simulates build enclosing below (hrest hexit)
end

/-! Whole requests. -/

theorem runPhases_simulates {build : Build} {enclosing : String}
    {below : List String} {phases : List CallSeq}
    (hclean : ∀ phase ∈ phases, phase.Clean) {g : Globals}
    {spans : List Span} (hg : g.Active) (hids : g.ids = enclosing :: below)
    (hspans : g.spans = some (spans.take maxSpans)) :
    (runPhases build phases g).Active ∧
      (runPhases build phases g).ids = enclosing :: below ∧
      (runPhases build phases g).treeState =
        (phasesTree build.ids enclosing phases g.treeState).1 ∧
      (runPhases build phases g).spans =
        some ((spans ++
          (phasesTree build.ids enclosing phases g.treeState).2.spans).take
            maxSpans) := by
  induction phases generalizing g spans with
  | nil => exact ⟨hg, hids, rfl, by simpa [phasesTree, Tree.skip, Tree.change]
      using hspans⟩
  | cons phase phases ih =>
      rw [List.forall_mem_cons] at hclean
      obtain ⟨-, hg', hids', hstate, hspans'⟩ :=
        phase.simulates build enclosing below hclean.1 g spans hg hids hspans
      obtain ⟨hg'', hids'', hstate', hspans''⟩ :=
        ih hclean.2 hg' hids' hspans'
      rw [hstate] at hstate' hspans''
      refine ⟨hg'', hids'', hstate', ?_⟩
      rw [runPhases_cons, hspans'', List.append_assoc]
      rfl

theorem keptBySteps_executeBeginTime (build : Build) (time : Nat) :
    KeptBySteps build fun _ g =>
      g.Active ∧ g.executeBeginTime = time where
  active hg := hg.1
  push hg := hg
  pop hg := hg
  leak hg := hg
  addSpan {_ g} span hg := by
    obtain ⟨spans, h⟩ := moChainAddSpan_eq span g
    rw [h]
    exact hg
  setTraceHeader {_ g} handle hg := by
    obtain ⟨_, _, _, h⟩ := onlyCurl_setTraceHeader build handle g
    rw [h]
    exact hg
  setopt {_ g} args hg := by
    obtain ⟨_, _, _, h⟩ := onlyCurl_userSetopt args g
    rw [h]
    exact hg
  setoptArray {_ g} args hg := by
    obtain ⟨_, _, _, h⟩ := onlyCurl_userSetoptArray args g
    rw [h]
    exact hg
  reset {_ g} handle hg := by
    obtain ⟨_, _, _, h⟩ := onlyCurl_userReset handle g
    rw [h]
    exact hg
  multiAdd _ _ hg := hg
  elapse _ hg := hg

theorem phpRshutdown_spans {g : Globals} {spans : List Span}
    (hsampled : g.chain.isSampled = true)
    (hspans : g.spans = some (spans.take maxSpans)) :
    (phpRshutdown g).2 =
      some ((spans ++ [mainSpan g]).take maxSpans) := by
  have hspans' : ({ g with inRequest := false } : Globals).spans =
      some (spans.take maxSpans) := hspans
  have hadd := spans_moChainAddSpan hspans' (mainSpan g)
  have hdtor : moChainDtor { g with inRequest := false } =
      ((moChainAddSpan (mainSpan g) { g with inRequest := false }).mapSpan
        SpanState.popSpanContext).mapSpan SpanState.popSpanContext := by
    rw [moChainDtor, if_pos hsampled]
    rfl
  rw [phpRshutdown, hdtor]
  have hsampled' : (((moChainAddSpan (mainSpan g)
      { g with inRequest := false }).mapSpan
        SpanState.popSpanContext).mapSpan
          SpanState.popSpanContext).chain.isSampled = true := by
    simpa [Globals.mapSpan] using hsampled
  simp only [hsampled', if_true]
  exact hadd

/-- The batch of a request is that of its call tree, up to the cap.  The main
span carries the received parent. -/
def FollowsTree (build : Build) (input : RequestInput)
    (phases : List CallSeq) (start : Globals) : Prop :=
  ∃ mainId, start.ids.head? = some mainId ∧
    batch build phases start =
      some ((requestSpans build.ids mainId
        (input.received build.headers.recParentSpanId) phases start).take
          maxSpans)

theorem batch_of_clean {build : Build} {mainId : String}
    {received : Option String} {phases : List CallSeq} {start : Globals}
    (hactive : start.Active) (hspans : start.spans = some [])
    (hbegin : start.executeBeginTime = start.clock)
    (hids : start.ids = mainId :: received.toList)
    (hclean : ∀ phase ∈ phases, phase.Clean) :
    batch build phases start =
      some ((requestSpans build.ids mainId received phases start).take
        maxSpans) := by
  obtain ⟨hactive', hids', hstate, hspans'⟩ :=
    runPhases_simulates hclean hactive hids
      (hspans.trans (by rw [List.take_nil]))
  have hbegin' : (runPhases build phases start).executeBeginTime =
      start.clock :=
    (runPhases_kept (keptBySteps_executeBeginTime build start.clock) phases 0
      ⟨hactive, hbegin⟩).2
  have hclock : (runPhases build phases start).clock =
      (phasesTree build.ids mainId phases start.treeState).1.clock :=
    congrArg TreeState.clock hstate
  have hmain : mainSpan (runPhases build phases start) =
      ⟨some mainId, received, .server, start.clock,
        (phasesTree build.ids mainId phases start.treeState).1.clock⟩ := by
    obtain ⟨hid, hparent⟩ := mainSpan_ids (runPhases build phases start)
    rw [hids'] at hid hparent
    rw [← hbegin', ← hclock, mainSpan, startSpan, Span.mk.injEq]
    refine ⟨hid, hparent.trans ?_, rfl, rfl, rfl⟩
    cases received <;> rfl
  rw [batch, phpRshutdown_spans hactive'.1 hspans', hmain, List.nil_append]
  rfl

/-- The trace tree of a sampled request is its call tree, whatever the calls
are, as long as they are clean. -/
theorem follows_tree_of_clean {build : Build} {input : RequestInput}
    {module : Ctrl.CtrlModule} {record record' : Ctrl.SamplingRecord}
    {prior start : Globals} {phases : List CallSeq}
    (hstart : phpRinit build input module record prior =
      some (start, record'))
    (hsampled : start.chain.isSampled = true)
    (hclean : ∀ phase ∈ phases, phase.Clean) :
    FollowsTree build input phases start := by
  obtain ⟨hactive, hspans, -, -, -, hbegin, -, mainId, hids⟩ :=
    phpRinit_sampled hstart hsampled
  exact ⟨mainId, by rw [hids]; rfl,
    batch_of_clean hactive hspans hbegin hids hclean⟩

theorem follows_tree_of_nested :
    FollowsTree ⟨.molten, .level⟩ scriptInput
      [.next (.intercepted (.span .done .done)
        (.next (.curlExec 7 .done) .bailout)) .done]
      (scriptStart .level) :=
  follows_tree_of_clean (phpRinit_script .level) rfl
    (by simp [CallSeq.Clean, Call.Clean, Record.Clean, Record.exit,
      CallSeq.exit, Exit.andThen])

/-- The record callback of the first call calls `exit`: what follows is recorded
under that call, the main span included. -/
def abortedRecord : List CallSeq :=
  [.next (.intercepted (.span .done .bailout) .done) .done,
    .next (.intercepted (.span .done .done) .done) .done]

theorem not_follows_tree_aborted :
    phpRinit ⟨.molten, .level⟩ scriptInput ⟨1, 1, 1, 0⟩ ⟨0, 0⟩ freshGlobals =
        some (scriptStart .level, ⟨0, 0⟩) ∧
      batch ⟨.molten, .level⟩ abortedRecord (scriptStart .level) =
        some [⟨some "1.1.1", some "1.1", .client, 0, 0⟩,
          ⟨some "1.1", some "1", .server, 0, 0⟩] ∧
      ¬ FollowsTree ⟨.molten, .level⟩ scriptInput abortedRecord
        (scriptStart .level) := by
  refine ⟨phpRinit_script .level, by decide, ?_⟩
  rintro ⟨mainId, hhead, hbatch⟩
  obtain rfl : "1" = mainId := Option.some.inj hhead
  exact absurd hbatch (by decide)

end Molten.Request
