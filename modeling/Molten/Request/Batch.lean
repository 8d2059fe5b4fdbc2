import Molten.Data.ParentLog
import Molten.Request.TraceTree

namespace Molten.Request

open Molten.Control
open Molten.Data
open Molten.Span
open Molten.Chain

/-! Where the parents of a batch are.  Calls are recorded when they finish, so a
parent stands behind its children. -/

def Span.edge (span : Span) : Option String × Option (Option String) :=
  (span.id, span.parentId.map some)

def Span.IsCall (span : Span) : Prop :=
  span.anType = .client ∧ span.id.isSome ∧ span.parentId.isSome

/-- What the calls under `enclosing` have recorded so far: every parent is
recorded later, recorded no span, or is `enclosing`. -/
structure Output.Under (enclosing : String) (out : Output) : Prop where
  isCall : ∀ span ∈ out.spans, span.IsCall
  behind : ParentsBehind
    (fun node => node = some enclosing ∨ node ∈ out.silent.map some)
    (out.spans.map Span.edge)

namespace Output.Under

variable {own enclosing : String} {out out' : Output}

theorem empty : Output.Under enclosing ⟨[], []⟩ where
  isCall _ h := absurd h List.not_mem_nil
  behind := trivial

theorem append (h : out.Under enclosing) (h' : out'.Under enclosing) :
    (out ++ out').Under enclosing where
  isCall span hmem := (List.mem_append.mp hmem).elim (h.isCall span)
    (h'.isCall span)
  behind := by
    rw [spans_append, List.map_append]
    refine h.behind.append (h'.behind.weaken fun node hnode => ?_)
      fun node hnode => .inl ?_
    · exact hnode.imp_right fun hmem => by
        simpa using .inr (by simpa using hmem)
    · exact hnode.imp_right fun hmem => by
        simpa using .inl (by simpa using hmem)

theorem recorded (h : out.Under own) (start finish : Nat) :
    (out ++ ⟨[callSpan own enclosing start finish], []⟩).Under enclosing where
  isCall span hmem := by
    rcases List.mem_append.mp hmem with hmem | hmem
    · exact h.isCall span hmem
    · rw [List.mem_singleton.mp hmem]
      exact ⟨rfl, rfl, rfl⟩
  behind := by
    rw [spans_append, List.map_append, silent_append, List.append_nil]
    refine h.behind.append ⟨?_, trivial⟩ fun node hnode => ?_
    · rintro node ⟨⟩
      exact .inl (.inl rfl)
    · rcases hnode with rfl | hmem
      · exact .inr List.mem_cons_self
      · exact .inl (.inr hmem)

theorem unrecorded (h : out.Under own) :
    (out ++ ⟨[], [own]⟩).Under enclosing where
  isCall span hmem := h.isCall span (by simpa using hmem)
  behind := by
    rw [spans_append, List.append_nil]
    refine h.behind.weaken fun node hnode => .inr ?_
    rw [silent_append, List.map_append, List.mem_append]
    rcases hnode with rfl | hmem
    · exact .inr List.mem_cons_self
    · exact .inl hmem

end Output.Under

def Tree.Under (enclosing : String) (tree : Tree) : Prop :=
  ∀ s, (tree s).2.Under enclosing

def Tree.Finishes (own enclosing : String) (tree : Tree) : Prop :=
  ∀ s (before : Output), before.Under own →
    (before ++ (tree s).2).Under enclosing

namespace Tree

variable {own enclosing : String}

theorem Under.change (f : TreeState → TreeState) :
    (Tree.change f).Under enclosing :=
  fun _ => .empty

theorem Under.andThen {first second : Tree} (hfirst : first.Under enclosing)
    (hsecond : second.Under enclosing) :
    (first.andThen second).Under enclosing :=
  fun s => (hfirst s).append (hsecond (first s).1)

theorem Under.reading {tree : TreeState → Tree}
    (h : ∀ start, (tree start).Under enclosing) :
    (Tree.reading tree).Under enclosing :=
  fun s => h s s

theorem Under.after {exit : Exit} {tree : Tree}
    (h : exit = .returned → tree.Under enclosing) :
    (Tree.after exit tree).Under enclosing := by
  cases exit with
  | returned => exact h rfl
  | bailed => exact .change id

theorem Under.within {ids : IdBuild} {body : String → Tree}
    (h : ∀ own, (body own).Under enclosing) :
    (Tree.within ids body).Under enclosing := by
  intro s
  rw [within_snd]
  exact h _ _

theorem Under.finish {body finish : Tree} (hbody : body.Under own)
    (hfinish : finish.Finishes own enclosing) :
    (body.andThen finish).Under enclosing :=
  fun s => hfinish _ _ (hbody s)

theorem Finishes.record (start finish : Nat) :
    (Tree.record (callSpan own enclosing start finish)).Finishes own
      enclosing :=
  fun _ _ hbefore => hbefore.recorded start finish

theorem Finishes.unrecorded : (Tree.unrecorded own).Finishes own enclosing :=
  fun _ _ hbefore => hbefore.unrecorded

theorem Finishes.andThen {first second : Tree} (hfirst : first.Under own)
    (hsecond : second.Finishes own enclosing) :
    (first.andThen second).Finishes own enclosing := by
  intro s before hbefore
  rw [andThen_apply_snd, ← Output.append_assoc]
  exact hsecond _ _ (hbefore.append (hfirst s))

theorem Finishes.reading {tree : TreeState → Tree}
    (h : ∀ start, (tree start).Finishes own enclosing) :
    (Tree.reading tree).Finishes own enclosing :=
  fun s before hbefore => h s s before hbefore

end Tree

mutual
theorem Call.tree_under (ids : IdBuild) (enclosing : String) :
    ∀ call : Call, call.Clean → (call.tree ids enclosing).Under enclosing
  | .plain body, hclean => body.tree_under ids enclosing hclean
  | .intercepted record body, ⟨hbody, hrecord, hexit⟩ => by
      rw [Call.tree]
      exact .reading fun start => .within fun own =>
        (body.tree_under ids own hbody).finish <| .reading fun left =>
          record.tree_finishes ids own enclosing hrecord hexit
            ⟨start.clock, left.clock⟩
  | .curlExec _ body, ⟨hbody, hexit⟩ => by
      rw [Call.tree, hexit]
      exact .reading fun _ => .within fun own =>
        (body.tree_under ids own hbody).finish <| .reading fun _ =>
          .record _ _
  | .curlExecRejected _, hclean => hclean.elim
  | .curlSetopt _, _ => .change id
  | .curlSetoptArray _, _ => .change id
  | .curlReset _, _ => .change id
  | .elapse _, _ => .change _

theorem Record.tree_finishes (ids : IdBuild) (own enclosing : String) :
    ∀ record : Record, record.Clean → record.exit = .returned →
      ∀ frame, (record.tree ids own enclosing frame).Finishes own enclosing
  | .silent calls, hclean, _, _ =>
      .andThen (calls.tree_under ids own hclean) .unrecorded
  | .span before after, ⟨hbefore, hafter⟩, hexit, frame => by
      obtain ⟨hexit, hexit'⟩ := Exit.andThen_eq_returned.mp hexit
      rw [Record.tree, hexit, hexit']
      exact .andThen (before.tree_under ids own hbefore) <|
        .andThen (after.tree_under ids own (hafter hexit)) (.record _ _)
  | .multiAdd _, _, _, _ => .andThen (.change _) .unrecorded
  | .multiRemove handle, _, _, frame => by
      rw [Record.tree]
      refine .reading fun start => ?_
      cases start.spanInfoCache handle with
      | none => exact .unrecorded
      | some startTime => exact .record _ _

theorem CallSeq.tree_under (ids : IdBuild) (enclosing : String) :
    ∀ calls : CallSeq, calls.Clean →
      (calls.tree ids enclosing).Under enclosing
  | .done, _ => .change id
  | .bailout, _ => .change id
  | .next call rest, ⟨hcall, hrest⟩ =>
      (call.tree_under ids enclosing hcall).andThen <| .after fun hexit =>
        rest.tree_under ids enclosing (hrest hexit)
end

theorem phasesTree_under (ids : IdBuild) (mainId : String)
    {phases : List CallSeq} (hclean : ∀ phase ∈ phases, phase.Clean) :
    (phasesTree ids mainId phases).Under mainId := by
  induction phases with
  | nil => exact .change id
  | cons phase phases ih =>
      rw [List.forall_mem_cons] at hclean
      exact (phase.tree_under ids mainId hclean.1).andThen (ih hclean.2)

/-! Whole requests. -/

def callSpans (ids : IdBuild) (mainId : String) (phases : List CallSeq)
    (start : Globals) : List Span :=
  (phasesTree ids mainId phases start.treeState).2.spans

def silentIds (ids : IdBuild) (mainId : String) (phases : List CallSeq)
    (start : Globals) : List String :=
  (phasesTree ids mainId phases start.treeState).2.silent

theorem requestSpans_eq (ids : IdBuild) (mainId : String)
    (parentId : Option String) (phases : List CallSeq) (start : Globals) :
    requestSpans ids mainId parentId phases start =
      callSpans ids mainId phases start ++
        [⟨some mainId, parentId, .server, start.clock,
          (phasesTree ids mainId phases start.treeState).1.clock⟩] := rfl

/-- A batch with the main span in it, whose parents are other spans of the
batch or were received. -/
structure ParentClosed (received : Option String) (batch : List Span) :
    Prop where
  main : ∃ main ∈ batch, main.anType = .server ∧ main.parentId = received
  parents : ∀ before span after, batch = before ++ span :: after →
    ∀ parent, span.parentId = some parent →
      (∃ other ∈ before ++ after, other.id = some parent) ∨
        received = some parent

/-- Calls and a main span whose parents are recorded later, apart from calls
that recorded no span and from the received parent of the main span. -/
structure ParentClosedUpTo (silent : List String) (received : Option String)
    (calls : List Span) (main : Span) : Prop where
  received : main.anType = .server ∧ main.parentId = received
  calls : ∀ before span after, calls = before ++ span :: after →
    span.anType = .client ∧ ∃ parent, span.parentId = some parent ∧
      ((∃ other ∈ after ++ [main], other.id = some parent) ∨
        parent ∈ silent)

theorem Output.Under.parentClosedUpTo {mainId : String} {out : Output}
    (h : out.Under mainId) (main : Span) (hid : main.id = some mainId)
    (hserver : main.anType = .server) :
    ParentClosedUpTo out.silent main.parentId out.spans main where
  received := ⟨hserver, rfl⟩
  calls before span after hspans := by
    obtain ⟨hclient, -, hparent⟩ := h.isCall span (by rw [hspans]; simp)
    obtain ⟨parent, hparent⟩ := Option.isSome_iff_exists.mp hparent
    refine ⟨hclient, parent, hparent, ?_⟩
    have hbehind := h.behind
    rw [hspans, List.map_append, List.map_cons, Span.edge, hparent] at hbehind
    rcases hbehind.parent_after with (heq | hsilent) | hlater
    · exact .inl ⟨main, by simp, by rw [hid, heq]⟩
    · exact .inr (by simpa using hsilent)
    · obtain ⟨other, hmem, heq⟩ :
          ∃ other ∈ after, other.id = some parent := by
        simpa [Span.edge] using hlater
      exact .inl ⟨other, List.mem_append_left _ hmem, heq⟩

/-- Below the cap the batch is the spans of the calls and the main span, and
closed but for silent calls.  From the cap on it is the first calls to finish,
without the main span. -/
theorem batch_closed_below_cap {build : Build} {input : RequestInput}
    {module : Ctrl.CtrlModule} {record record' : Ctrl.SamplingRecord}
    {prior start : Globals} {phases : List CallSeq}
    (hstart : phpRinit build input module record prior =
      some (start, record'))
    (hsampled : start.chain.isSampled = true)
    (hclean : ∀ phase ∈ phases, phase.Clean) :
    ∃ mainId main, start.ids.head? = some mainId ∧ main.id = some mainId ∧
      ParentClosedUpTo (silentIds build.ids mainId phases start)
        (input.received build.headers.recParentSpanId)
        (callSpans build.ids mainId phases start) main ∧
      batch build phases start = some (
        if (callSpans build.ids mainId phases start).length < maxSpans then
          callSpans build.ids mainId phases start ++ [main]
        else
          (callSpans build.ids mainId phases start).take maxSpans) := by
  obtain ⟨hactive, hspans, -, -, -, hbegin, -, mainId, hids⟩ :=
    phpRinit_sampled hstart hsampled
  have hunder : Output.Under mainId
      (phasesTree build.ids mainId phases start.treeState).2 :=
    phasesTree_under build.ids mainId hclean start.treeState
  let main : Span := ⟨some mainId, input.received
    build.headers.recParentSpanId, .server, start.clock,
    (phasesTree build.ids mainId phases start.treeState).1.clock⟩
  refine ⟨mainId, main, by rw [hids]; rfl, rfl,
    hunder.parentClosedUpTo main rfl rfl, ?_⟩
  rw [batch_of_clean hactive hspans hbegin hids hclean,
    requestSpans_eq]
  split
  · rename_i hlt
    rw [List.take_of_length_le (by rw [List.length_append]; exact hlt)]
  · rename_i hge
    rw [List.take_append_of_le_length (Nat.le_of_not_lt hge)]

def nestedCalls : List CallSeq :=
  [.next (.intercepted (.silent .done)
    (.next (.intercepted (.span .done .done) .done) .done)) .done]

theorem batch_closed_nested :
    ∃ mainId main, (scriptStart .level).ids.head? = some mainId ∧
      main.id = some mainId ∧
      ParentClosedUpTo (silentIds .level mainId nestedCalls
        (scriptStart .level))
        (scriptInput.received (HeaderBuild.recParentSpanId .molten))
        (callSpans .level mainId nestedCalls (scriptStart .level)) main ∧
      batch ⟨.molten, .level⟩ nestedCalls (scriptStart .level) = some (
        if (callSpans .level mainId nestedCalls
            (scriptStart .level)).length < maxSpans then
          callSpans .level mainId nestedCalls (scriptStart .level) ++ [main]
        else
          (callSpans .level mainId nestedCalls (scriptStart .level)).take
            maxSpans) :=
  batch_closed_below_cap (phpRinit_script .level) rfl
    (by simp [nestedCalls, CallSeq.Clean, Call.Clean, Record.Clean,
      Record.exit, CallSeq.exit])

/-! A request with too many calls. -/

def repeatedCalls : Nat → CallSeq
  | 0 => .done
  | count + 1 =>
      .next (.intercepted (.span .done .done) .done) (repeatedCalls count)

theorem clean_repeatedCalls (count : Nat) : (repeatedCalls count).Clean := by
  induction count with
  | zero => trivial
  | succ count ih =>
      simp [repeatedCalls, CallSeq.Clean, Call.Clean, Record.Clean,
        Record.exit, CallSeq.exit, ih]

theorem length_repeatedCalls (ids : IdBuild) (mainId : String) (count : Nat)
    (s : TreeState) :
    ((repeatedCalls count).tree ids mainId s).2.spans.length = count := by
  induction count generalizing s with
  | zero => rfl
  | succ count ih =>
      have hcall : (repeatedCalls (count + 1)).tree ids mainId =
          ((Call.intercepted (.span .done .done) .done).tree ids
            mainId).andThen ((repeatedCalls count).tree ids mainId) := rfl
      rw [hcall, Tree.andThen_apply_spans, List.length_append, ih,
        Nat.add_comm]
      rfl

/-- After 300 calls there is no room for the main span. -/
theorem not_parentClosed_repeatedCalls :
    phpRinit ⟨.molten, .level⟩ scriptInput ⟨1, 1, 1, 0⟩ ⟨0, 0⟩ freshGlobals =
        some (scriptStart .level, ⟨0, 0⟩) ∧
      ∃ spans, batch ⟨.molten, .level⟩ [repeatedCalls 300]
          (scriptStart .level) = some spans ∧
        spans.length = 300 ∧ (∀ span ∈ spans, span.anType = .client) ∧
        ¬ ParentClosed none spans := by
  have hclean : ∀ phase ∈ [repeatedCalls 300], phase.Clean :=
    fun phase hmem => List.mem_singleton.mp hmem ▸ clean_repeatedCalls 300
  have hbatch : batch ⟨.molten, .level⟩ [repeatedCalls 300]
      (scriptStart .level) =
        some ((requestSpans .level "1" none [repeatedCalls 300]
          (scriptStart .level)).take maxSpans) :=
    batch_of_clean ⟨rfl, rfl⟩ rfl rfl (by decide) hclean
  have hlen : (callSpans .level "1" [repeatedCalls 300]
      (scriptStart .level)).length = maxSpans := by
    rw [callSpans, phasesTree, Tree.andThen_apply_spans, List.length_append,
      length_repeatedCalls]
    rfl
  have hcalls : (requestSpans .level "1" none [repeatedCalls 300]
      (scriptStart .level)).take maxSpans =
        callSpans .level "1" [repeatedCalls 300] (scriptStart .level) := by
    rw [requestSpans_eq, List.take_append_of_le_length (Nat.le_of_eq hlen.symm),
      List.take_of_length_le (Nat.le_of_eq hlen)]
  have hclient : ∀ span ∈ callSpans .level "1" [repeatedCalls 300]
      (scriptStart .level), span.anType = .client := fun span hmem =>
    ((phasesTree_under .level "1" hclean _).isCall span hmem).1
  refine ⟨phpRinit_script .level, _, hbatch.trans (congrArg some hcalls), hlen,
    hclient, fun hclosed => ?_⟩
  obtain ⟨main, hmem, hserver, -⟩ := hclosed.main
  rw [hclient main hmem] at hserver
  cases hserver

end Molten.Request
