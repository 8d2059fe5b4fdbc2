import Molten.Request.Timeline
import Molten.Request.TraceTree

namespace Molten.Request

open Molten.Control
open Molten.Span
open Molten.Chain

/-! Which spans lie inside the spans that their parent ids refer to. -/

def Span.Inside (span parent : Span) : Prop :=
  parent.start ≤ span.start ∧ span.finish ≤ parent.finish

instance (span parent : Span) : Decidable (span.Inside parent) :=
  inferInstanceAs (Decidable (_ ∧ _))

def IntervalsNest (spans : List Span) : Prop :=
  ∀ span ∈ spans, ∀ parent ∈ spans, span.parentId.isSome →
    span.parentId = parent.id → span.Inside parent

instance (spans : List Span) : Decidable (IntervalsNest spans) := by
  unfold IntervalsNest
  infer_instance

mutual
/-- No `curl_exec` that is reached has its arguments rejected or is left by an
unwinding. -/
def Call.CurlsReturn : Call → Prop
  | .plain body => body.CurlsReturn
  | .intercepted record body => body.CurlsReturn ∧ record.CurlsReturn
  | .curlExec _ body => body.CurlsReturn ∧ body.exit = .returned
  | .curlExecRejected _ => False
  | .curlSetopt _ => True
  | .curlSetoptArray _ => True
  | .curlReset _ => True
  | .elapse _ => True

def Record.CurlsReturn : Record → Prop
  | .silent calls => calls.CurlsReturn
  | .span before after =>
      before.CurlsReturn ∧ (before.exit = .returned → after.CurlsReturn)
  | .multiAdd _ => True
  | .multiRemove _ => True

def CallSeq.CurlsReturn : CallSeq → Prop
  | .done => True
  | .bailout => True
  | .next call rest =>
      call.CurlsReturn ∧ (call.exit = .returned → rest.CurlsReturn)
end

theorem getElem?_of_prefix {α : Type*} {list list' : List α} {index : Nat}
    {value : α} (hpre : list <+: list') (h : list[index]? = some value) :
    list'[index]? = some value := by
  obtain ⟨hlt, rfl⟩ := List.getElem?_eq_some_iff.mp h
  exact List.prefix_iff_getElem?.mp hpre index hlt

/-- The parent was entered earlier, and left later if its function made the
call. -/
structure Entry.Encloses (parent entry : Entry) : Prop where
  entered : parent.call < entry.call
  left : entry.inBody = true → entry.span.finish ≤ parent.span.finish

namespace Timeline

/-- What an entry says is so. -/
structure Holds (t : Timeline) (entry : Entry) : Prop where
  began : t.began[entry.since]? = some entry.span.start
  ordered : entry.span.start ≤ entry.span.finish
  past : entry.span.finish ≤ t.globals.clock
  shows : ∃ context, entry.shows = some context ∧
    context.call < t.opened ∧ entry.span.id = some context.id
  parent : ∃ context, entry.parent = some context ∧
    context.call < t.opened ∧ entry.span.parentId = some context.id

/-- What holds between the calls; contexts that are still on the stack have not
been recorded. -/
structure Sound (received : List String) (t : Timeline) : Prop where
  sorted : t.began.Pairwise (· ≤ ·)
  past : ∀ time ∈ t.began, time ≤ t.globals.clock
  cached : ∀ handle time, t.globals.spanInfoCache handle = some time →
    ∃ call, t.added handle = some call ∧ t.began[call]? = some time
  nonempty : t.contexts ≠ []
  ids : t.globals.ids = t.contexts.map Opened.id ++ received
  spans : t.globals.spans =
    some ((t.entries.map Entry.span).take maxSpans)
  descending : t.contexts.Pairwise fun inner outer => outer.call < inner.call
  opened : ∀ context ∈ t.contexts, context.call < t.opened
  holds : ∀ entry ∈ t.entries, t.Holds entry
  closed : ∀ entry ∈ t.entries, ∀ context ∈ t.contexts,
    entry.shows ≠ some context
  encloses : ∀ entry ∈ t.entries, ∀ parent ∈ t.entries, ∀ context,
    entry.parent = some context → parent.shows = some context →
      parent.Encloses entry

/-- A span that the function of a call has had recorded, or the call's record
callback. -/
structure New (inBody : Bool) (t : Timeline) (entry : Entry) : Prop where
  call : t.opened ≤ entry.call
  direct : ∀ context, entry.parent = some context →
    context.call < t.opened →
      t.contexts.head? = some context ∧ entry.inBody = inBody

/-- What a program does to the log when it is run by one or the other. -/
structure Ran (received : List String) (inBody : Bool) (exit : Exit)
    (t t' : Timeline) : Prop where
  sound : t'.Sound received
  began : t.began <+: t'.began
  clock : t.globals.clock ≤ t'.globals.clock
  contexts : ∃ extra, t'.contexts = extra ++ t.contexts ∧
    (exit = .returned → extra = []) ∧ ∀ context ∈ extra,
      t.opened ≤ context.call
  entries : ∃ new, t'.entries = t.entries ++ new ∧
    ∀ entry ∈ new, New inBody t entry

variable {received : List String} {inBody : Bool} {exit exit' : Exit}
  {build : Build} {t t' t'' : Timeline}

theorem opened_le (h : t.began <+: t'.began) : t.opened ≤ t'.opened :=
  h.length_le

theorem Holds.mono {entry : Entry} (h : t.Holds entry)
    (hbegan : t.began <+: t'.began)
    (hclock : t.globals.clock ≤ t'.globals.clock) : t'.Holds entry where
  began := getElem?_of_prefix hbegan h.began
  ordered := h.ordered
  past := h.past.trans hclock
  shows := by
    obtain ⟨context, hshows, hlt, hid⟩ := h.shows
    exact ⟨context, hshows, hlt.trans_le (opened_le hbegan), hid⟩
  parent := by
    obtain ⟨context, hparent, hlt, hid⟩ := h.parent
    exact ⟨context, hparent, hlt.trans_le (opened_le hbegan), hid⟩

/-! Steps that open no context and record no span. -/

structure Quiet (f : Globals → Globals) : Prop where
  sameTrace : ∀ g, SameTrace (f g) g
  clock : ∀ g, g.clock ≤ (f g).clock
  spans : ∀ g, (f g).spans = g.spans
  spanInfoCache : ∀ g, (f g).spanInfoCache = g.spanInfoCache

theorem Quiet.onlyCurl {f : Globals → Globals}
    (h : ∀ g, OnlyCurl (f g) g) : Quiet f where
  sameTrace g := (h g).sameTrace
  clock g := by
    obtain ⟨record, internel, events, hf⟩ := h g
    rw [hf]
  spans g := by
    obtain ⟨record, internel, events, hf⟩ := h g
    rw [hf]
  spanInfoCache g := by
    obtain ⟨record, internel, events, hf⟩ := h g
    rw [hf]

theorem Quiet.elapse (millis : Nat) : Quiet (elapse millis) where
  sameTrace _ := ⟨rfl, rfl⟩
  clock _ := Nat.le_add_right _ _
  spans _ := rfl
  spanInfoCache _ := rfl

theorem Sound.change (h : t.Sound received) {f : Globals → Globals}
    (hf : Quiet f) : (t.change f).Sound received where
  sorted := h.sorted
  past time htime := (h.past time htime).trans (hf.clock _)
  cached handle time htime := by
    refine h.cached handle time ?_
    rw [← htime, Timeline.change, hf.spanInfoCache]
  nonempty := h.nonempty
  ids := by
    rw [Timeline.change, Globals.ids, (hf.sameTrace _).1]
    exact h.ids
  spans := (hf.spans _).trans h.spans
  descending := h.descending
  opened := h.opened
  holds entry hmem := (h.holds entry hmem).mono (List.prefix_refl _)
    (hf.clock _)
  closed := h.closed
  encloses := h.encloses

theorem Ran.refl (h : t.Sound received) :
    t.Ran received inBody exit t where
  sound := h
  began := List.prefix_refl _
  clock := Nat.le_refl _
  contexts := ⟨[], rfl, fun _ => rfl, by simp⟩
  entries := ⟨[], (List.append_nil _).symm, by simp⟩

theorem Ran.change (h : t.Sound received) {f : Globals → Globals}
    (hf : Quiet f) : t.Ran received inBody exit (t.change f) where
  sound := h.change hf
  began := List.prefix_refl _
  clock := hf.clock _
  contexts := ⟨[], rfl, fun _ => rfl, by simp⟩
  entries := ⟨[], (List.append_nil _).symm, by simp⟩

theorem Ran.trans (h : t.Ran received inBody exit t')
    (h' : t'.Ran received inBody exit' t'') :
    t.Ran received inBody (exit.andThen exit') t'' where
  sound := h'.sound
  began := h.began.trans h'.began
  clock := h.clock.trans h'.clock
  contexts := by
    obtain ⟨extra, hcontexts, hnil, hextra⟩ := h.contexts
    obtain ⟨extra', hcontexts', hnil', hextra'⟩ := h'.contexts
    refine ⟨extra' ++ extra, ?_, fun hexit => ?_, fun context hmem => ?_⟩
    · rw [hcontexts', hcontexts, List.append_assoc]
    · obtain ⟨hexit, hexit'⟩ := Exit.andThen_eq_returned.mp hexit
      rw [hnil hexit, hnil' hexit', List.nil_append]
    · obtain hmem | hmem := List.mem_append.mp hmem
      · exact (opened_le h.began).trans (hextra' context hmem)
      · exact hextra context hmem
  entries := by
    obtain ⟨new, hentries, hnew⟩ := h.entries
    obtain ⟨new', hentries', hnew'⟩ := h'.entries
    refine ⟨new ++ new', ?_, fun entry hmem => ?_⟩
    · rw [hentries', hentries, List.append_assoc]
    obtain hmem | hmem := List.mem_append.mp hmem
    · exact hnew entry hmem
    have hnew' := hnew' entry hmem
    refine ⟨(opened_le h.began).trans hnew'.call, ?_⟩
    intro context hcontext hlt
    obtain ⟨hhead, hinBody⟩ := hnew'.direct context hcontext
      (hlt.trans_le (opened_le h.began))
    refine ⟨?_, hinBody⟩
    obtain ⟨extra, hcontexts, -, hextra⟩ := h.contexts
    rw [hcontexts] at hhead
    cases extra with
    | nil => exact hhead
    | cons first extra =>
        obtain rfl : first = context := Option.some.inj hhead
        exact absurd hlt (Nat.not_lt.mpr (hextra first List.mem_cons_self))

theorem Ran.contexts_of_returned
    (h : t.Ran received inBody .returned t') :
    t'.contexts = t.contexts := by
  obtain ⟨extra, hcontexts, hnil, -⟩ := h.contexts
  rw [hcontexts, hnil rfl, List.nil_append]

theorem Ran.bailed (h : t.Ran received inBody exit t') :
    t.Ran received inBody .bailed t' where
  sound := h.sound
  began := h.began
  clock := h.clock
  contexts := by
    obtain ⟨extra, hcontexts, -, hextra⟩ := h.contexts
    exact ⟨extra, hcontexts, by simp, hextra⟩
  entries := h.entries

/-! The frame of a call. -/

theorem Sound.enter (h : t.Sound received) (build : Build) :
    (t.enter build).Sound received where
  sorted := List.pairwise_append.mpr ⟨h.sorted, List.pairwise_singleton _ _,
    fun time htime now hnow => by
      rw [List.mem_singleton.mp hnow]
      exact h.past time htime⟩
  past time htime := by
    obtain htime | htime := List.mem_append.mp htime
    · exact h.past time htime
    · exact Nat.le_of_eq (List.mem_singleton.mp htime)
  cached handle time htime := by
    obtain ⟨call, hadded, hbegan⟩ := h.cached handle time htime
    exact ⟨call, hadded, getElem?_of_prefix (List.prefix_append _ _) hbegan⟩
  nonempty := List.cons_ne_nil _ _
  ids := by
    rw [Timeline.enter, ids_frameBuild, h.ids]
    rfl
  spans := h.spans
  descending := List.pairwise_cons.mpr ⟨h.opened, h.descending⟩
  opened context hmem := by
    rw [Timeline.opened, Timeline.enter, List.length_append]
    obtain rfl | hmem := List.mem_cons.mp hmem
    · exact Nat.lt_succ_self _
    · exact Nat.lt_succ_of_lt (h.opened context hmem)
  holds entry hmem := (h.holds entry hmem).mono (List.prefix_append _ _)
    (Nat.le_refl _)
  closed entry hmem context hcontext hshows := by
    obtain rfl | hcontext := List.mem_cons.mp hcontext
    · obtain ⟨shown, hshown, hlt, -⟩ := (h.holds entry hmem).shows
      obtain rfl := Option.some.inj (hshown.symm.trans hshows)
      exact absurd hlt (Nat.lt_irrefl _)
    · exact h.closed entry hmem context hcontext hshows
  encloses := h.encloses

theorem Sound.leave (h : t.Sound received) (hne : t.contexts.tail ≠ []) :
    t.leave.Sound received where
  sorted := h.sorted
  past := h.past
  cached := h.cached
  nonempty := hne
  ids := by
    rw [Timeline.leave, ids_frameDestroy, h.ids, List.map_tail,
      List.tail_append_of_ne_nil (by simpa using h.nonempty)]
  spans := h.spans
  descending := h.descending.tail
  opened context hmem := h.opened context (List.mem_of_mem_tail hmem)
  holds entry hmem := (h.holds entry hmem).mono (List.prefix_refl _)
    (Nat.le_refl _)
  closed entry hmem context hcontext :=
    h.closed entry hmem context (List.mem_of_mem_tail hcontext)
  encloses := h.encloses

theorem Sound.startSpan_id (h : t.Sound received) {context : Opened}
    (hhead : t.contexts.head? = some context) (anType : AnType)
    (start finish : Nat) :
    (startSpan anType start finish t.globals).id = some context.id := by
  obtain ⟨rest, hcontexts⟩ := List.head?_eq_some_iff.mp hhead
  have hids := h.ids
  rw [hcontexts] at hids
  exact SpanState.retrieveSpanId_of_ids hids

theorem Sound.startSpan_parentId (h : t.Sound received) {context : Opened}
    (hhead : t.contexts.tail.head? = some context) (anType : AnType)
    (start finish : Nat) :
    (startSpan anType start finish t.globals).parentId = some context.id := by
  obtain ⟨rest, htail⟩ := List.head?_eq_some_iff.mp hhead
  obtain ⟨own, below, hcontexts⟩ := List.exists_cons_of_ne_nil h.nonempty
  have hids := h.ids
  rw [hcontexts] at hids htail
  rw [List.tail_cons] at htail
  rw [htail] at hids
  exact SpanState.retrieveParentSpanId_of_ids hids

theorem Sound.holds_entry (h : t.Sound received) {own outer : Opened}
    {rest : List Opened} (hcontexts : t.contexts = own :: outer :: rest)
    {call : Nat} {added : Option Nat} {start finish : Nat}
    (hbegan : t.began[added.getD call]? = some start)
    (hordered : start ≤ finish) (hpast : finish ≤ t.globals.clock) :
    t.Holds (t.entry call added inBody
      (startSpan .client start finish t.globals)) where
  began := hbegan
  ordered := hordered
  past := hpast
  shows := by
    have hhead : t.contexts.head? = some own := by
      rw [hcontexts]
      rfl
    exact ⟨own, hhead, h.opened own (List.mem_of_mem_head? hhead),
      h.startSpan_id hhead _ _ _⟩
  parent := by
    have hsecond : t.contexts.tail.head? = some outer := by
      rw [hcontexts]
      rfl
    exact ⟨outer, hsecond,
      h.opened outer (List.mem_of_mem_tail (List.mem_of_mem_head? hsecond)),
      h.startSpan_parentId hsecond _ _ _⟩

theorem Sound.close (h : t.Sound received) {own outer : Opened}
    {rest : List Opened} (hcontexts : t.contexts = own :: outer :: rest)
    {entry : Entry} (hholds : t.Holds entry) (hshows : entry.shows = some own)
    (hparent : entry.parent = some outer)
    (hchildren : ∀ child ∈ t.entries, child.parent = some own →
      entry.Encloses child) :
    (t.record entry).leave.Sound received := by
  have hleave := h.leave (by simp [hcontexts])
  have hclock : (moChainAddSpan entry.span t.globals).clock =
      t.globals.clock := clock_moChainAddSpan _ _
  have hkept : ∀ {other}, t.Holds other →
      (t.record entry).leave.Holds other := fun hother =>
    hother.mono (List.prefix_refl _) (Nat.le_of_eq hclock.symm)
  have htail : t.contexts.tail = outer :: rest :=
    congrArg List.tail hcontexts
  have hbelow : ∀ context ∈ outer :: rest, context.call < own.call :=
    (List.pairwise_cons.mp (hcontexts ▸ h.descending)).1
  constructor
  · exact h.sorted
  · exact fun time htime => (h.past time htime).trans_eq hclock.symm
  · intro handle time htime
    refine h.cached handle time (htime.symm.trans ?_).symm
    exact (congrFun (spanInfoCache_moChainAddSpan _ _) handle)
  · exact hleave.nonempty
  · rw [Timeline.leave, Timeline.record, ids_frameDestroy,
      ids_moChainAddSpan, ← ids_frameDestroy]
    exact hleave.ids
  · rw [Timeline.leave, Timeline.record, List.map_append]
    exact spans_moChainAddSpan h.spans entry.span
  · exact hleave.descending
  · exact hleave.opened
  · intro other hmem
    obtain hmem | hmem := List.mem_append.mp hmem
    · exact hkept (h.holds other hmem)
    · rw [List.mem_singleton.mp hmem]
      exact hkept hholds
  · intro other hmem context hcontext
    obtain hmem | hmem := List.mem_append.mp hmem
    · exact hleave.closed other hmem context hcontext
    · rw [List.mem_singleton.mp hmem, hshows]
      rintro ⟨⟩
      exact absurd (hbelow own (htail ▸ hcontext)) (Nat.lt_irrefl _)
  · intro child hchild parent hmem context hcontext hshown
    obtain hmem | hmem := List.mem_append.mp hmem
    · obtain hchild | hchild := List.mem_append.mp hchild
      · exact h.encloses child hchild parent hmem context hcontext hshown
      · rw [List.mem_singleton.mp hchild, hparent] at hcontext
        obtain rfl := Option.some.inj hcontext
        refine absurd hshown (h.closed parent hmem outer ?_)
        simp [hcontexts]
    · obtain rfl := List.mem_singleton.mp hmem
      obtain rfl := Option.some.inj (hshows.symm.trans hshown)
      obtain hchild | hchild := List.mem_append.mp hchild
      · exact hchildren child hchild hcontext
      · rw [List.mem_singleton.mp hchild, hparent] at hcontext
        obtain rfl := Option.some.inj hcontext
        exact absurd (hbelow outer List.mem_cons_self) (Nat.lt_irrefl _)

/-! Inside a call: its function was left at `finish`, and what has been recorded
under it since comes from its record callback. -/

structure Inner (t u : Timeline) (finish : Nat) (entry : Entry) : Prop where
  call : t.opened < entry.call
  parent : ∀ context, entry.parent = some context → t.opened ≤ context.call
  left : ∀ context, entry.parent = some context →
    u.contexts.head? = some context → entry.inBody = true →
      entry.span.finish ≤ finish

structure Framed (received : List String) (exit : Exit) (finish : Nat)
    (t u : Timeline) : Prop where
  sound : u.Sound received
  began : t.began ++ [t.globals.clock] <+: u.began
  entered : t.globals.clock ≤ finish
  left : finish ≤ u.globals.clock
  contexts : ∃ extra own, u.contexts = extra ++ own :: t.contexts ∧
    (exit = .returned → extra = []) ∧ own.call = t.opened ∧
    ∀ context ∈ extra, t.opened ≤ context.call
  entries : ∃ new, u.entries = t.entries ++ new ∧
    ∀ entry ∈ new, Inner t u finish entry

theorem Inner.new {u : Timeline} {finish : Nat} {entry : Entry}
    (h : Inner t u finish entry) : New inBody t entry where
  call := h.call.le
  direct context hcontext hlt :=
    absurd (h.parent context hcontext) (Nat.not_le.mpr hlt)

namespace Framed

variable {finish : Nat} {u u' : Timeline}

theorem of_body (hbody : (t.enter build).Ran received true exit u) :
    t.Framed received exit u.globals.clock u where
  sound := hbody.sound
  began := hbody.began
  entered := hbody.clock
  left := Nat.le_refl _
  contexts := by
    obtain ⟨extra, hcontexts, hnil, hextra⟩ := hbody.contexts
    refine ⟨extra, _, hcontexts, hnil, rfl, fun context hmem => ?_⟩
    exact (opened_le (List.prefix_append _ _)).trans (hextra context hmem)
  entries := by
    obtain ⟨new, hentries, hnew⟩ := hbody.entries
    refine ⟨new, hentries, fun entry hmem => ?_⟩
    have hopened : (t.enter build).opened = t.opened + 1 :=
      List.length_append
    obtain ⟨hcall, hdirect⟩ := hnew entry hmem
    rw [hopened] at hcall hdirect
    refine ⟨hcall, fun context hcontext => ?_, fun _ _ _ _ => ?_⟩
    · by_contra hlt
      obtain ⟨hhead, -⟩ := hdirect context hcontext (by omega)
      obtain rfl := Option.some.inj hhead
      exact hlt (Nat.le_refl _)
    · refine (hbody.sound.holds entry ?_).past
      rw [hentries]
      exact List.mem_append_right _ hmem

theorem opened_lt (h : t.Framed received exit finish u) :
    t.opened < u.opened := by
  have hlength := h.began.length_le
  rwa [List.length_append] at hlength

theorem began_prefix (h : t.Framed received exit finish u) :
    t.began <+: u.began :=
  (List.prefix_append _ _).trans h.began

theorem clock_le (h : t.Framed received exit finish u) :
    t.globals.clock ≤ u.globals.clock :=
  h.entered.trans h.left

theorem began_opened (h : t.Framed received exit finish u) :
    u.began[t.opened]? = some t.globals.clock :=
  getElem?_of_prefix h.began (by simp [Timeline.opened])

theorem exists_top (h : t.Framed received exit finish u) :
    ∃ top rest, u.contexts = top :: rest ∧ t.opened ≤ top.call := by
  obtain ⟨extra, own, hcontexts, -, hown, hextra⟩ := h.contexts
  cases extra with
  | nil => exact ⟨own, _, hcontexts, Nat.le_of_eq hown.symm⟩
  | cons top extra => exact ⟨top, _, hcontexts, hextra top List.mem_cons_self⟩

theorem entries_callback (h : t.Framed received exit finish u)
    (hran : u.Ran received false exit' u') :
    ∃ new, u'.entries = t.entries ++ new ∧
      ∀ entry ∈ new, Inner t u finish entry := by
  obtain ⟨new, hentries, hnew⟩ := h.entries
  obtain ⟨new', hentries', hnew'⟩ := hran.entries
  refine ⟨new ++ new', ?_, fun entry hmem => ?_⟩
  · rw [hentries', hentries, List.append_assoc]
  obtain hmem | hmem := List.mem_append.mp hmem
  · exact hnew entry hmem
  obtain ⟨hcall, hdirect⟩ := hnew' entry hmem
  obtain ⟨top, rest, hcontexts, htop⟩ := h.exists_top
  refine ⟨h.opened_lt.trans_le hcall, fun context hcontext => ?_,
    fun context hcontext hhead htrue => ?_⟩
  · by_cases hlt : context.call < u.opened
    · obtain ⟨hhead, -⟩ := hdirect context hcontext hlt
      rw [hcontexts] at hhead
      obtain rfl := Option.some.inj hhead
      exact htop
    · exact h.opened_lt.le.trans (Nat.le_of_not_lt hlt)
  · have hlt := h.sound.opened context (List.mem_of_mem_head? hhead)
    obtain ⟨-, hinBody⟩ := hdirect context hcontext hlt
    rw [hinBody] at htrue
    contradiction

theorem callback (h : t.Framed received exit finish u)
    (hran : u.Ran received false .returned u') :
    t.Framed received exit finish u' := by
  have hcontexts := hran.contexts_of_returned
  obtain ⟨new, hentries, hnew⟩ := h.entries_callback hran
  constructor
  · exact hran.sound
  · exact h.began.trans hran.began
  · exact h.entered
  · exact h.left.trans hran.clock
  · rw [hcontexts]
    exact h.contexts
  · refine ⟨new, hentries, fun entry hmem => ?_⟩
    obtain ⟨hcall, hparent, hleft⟩ := hnew entry hmem
    rw [← hcontexts] at hleft
    exact ⟨hcall, hparent, hleft⟩

theorem bailed (h : t.Framed received exit finish u)
    (hran : u.Ran received false .bailed u') :
    t.Ran received inBody .bailed u' where
  sound := hran.sound
  began := h.began_prefix.trans hran.began
  clock := h.clock_le.trans hran.clock
  contexts := by
    obtain ⟨extra, own, hcontexts, -, hown, hextra⟩ := h.contexts
    obtain ⟨extra', hcontexts', -, hextra'⟩ := hran.contexts
    refine ⟨extra' ++ (extra ++ [own]), ?_, by simp, fun context hmem => ?_⟩
    · rw [hcontexts', hcontexts]
      simp
    · simp only [List.mem_append, List.mem_singleton] at hmem
      obtain hmem | hmem | rfl := hmem
      · exact h.opened_lt.le.trans (hextra' context hmem)
      · exact hextra context hmem
      · exact Nat.le_of_eq hown.symm
  entries := by
    obtain ⟨new, hentries, hnew⟩ := h.entries_callback hran
    exact ⟨new, hentries, fun entry hmem => (hnew entry hmem).new⟩

/-- The pop takes the innermost context, which is the call's own unless an
unwinding left others above it. -/
theorem contexts_leave (h : t.Framed received exit finish u) :
    ∃ extra, u.contexts.tail = extra ++ t.contexts ∧
      (exit = .returned → extra = []) ∧
      ∀ context ∈ extra, t.opened ≤ context.call := by
  obtain ⟨extra, own, hcontexts, hnil, hown, hextra⟩ := h.contexts
  rw [hcontexts]
  cases extra with
  | nil => exact ⟨[], rfl, fun _ => rfl, by simp⟩
  | cons first extra =>
      refine ⟨extra ++ [own], by simp, fun hexit => ?_, fun context hmem => ?_⟩
      · exact absurd (hnil hexit) (List.cons_ne_nil _ _)
      · obtain hmem | hmem := List.mem_append.mp hmem
        · exact hextra context (List.mem_cons_of_mem _ hmem)
        · rw [List.mem_singleton.mp hmem, hown]

theorem tail_ne_nil (h : t.Framed received exit finish u)
    (ht : t.Sound received) : u.contexts.tail ≠ [] := by
  obtain ⟨extra, htail, -⟩ := h.contexts_leave
  rw [htail]
  exact List.append_ne_nil_of_right_ne_nil extra ht.nonempty

theorem leave (h : t.Framed received exit finish u)
    (ht : t.Sound received) : t.Ran received inBody exit u.leave where
  sound := h.sound.leave (h.tail_ne_nil ht)
  began := h.began_prefix
  clock := h.clock_le
  contexts := h.contexts_leave
  entries := by
    obtain ⟨new, hentries, hnew⟩ := h.entries
    exact ⟨new, hentries, fun entry hmem => (hnew entry hmem).new⟩

theorem addHandle (h : t.Framed received exit finish u) (handle : Nat) :
    t.Framed received exit finish
      (u.addHandle t.opened handle ⟨t.globals.clock, finish⟩) where
  sound :=
    { h.sound with
      cached := by
        intro other time htime
        rw [Timeline.addHandle, curlMultiAddHandleRecord] at htime
        rw [Timeline.addHandle]
        by_cases heq : other = handle
        · subst heq
          obtain rfl : t.globals.clock = time := by simpa using htime
          exact ⟨t.opened, by simp, h.began_opened⟩
        · obtain ⟨call, hadded, hbegan⟩ := h.sound.cached other time
            (by simpa [heq] using htime)
          exact ⟨call, by simpa [heq] using hadded, hbegan⟩
      holds := fun entry hmem => (h.sound.holds entry hmem).mono
        (List.prefix_refl _) (Nat.le_refl _) }
  began := h.began
  entered := h.entered
  left := h.left
  contexts := h.contexts
  entries := by
    obtain ⟨new, hentries, hnew⟩ := h.entries
    refine ⟨new, hentries, fun entry hmem => ?_⟩
    obtain ⟨hcall, hparent, hleft⟩ := hnew entry hmem
    exact ⟨hcall, hparent, hleft⟩

variable {added : Option Nat} {start : Nat}

theorem sound_record (h : t.Framed received exit finish u)
    (ht : t.Sound received)
    (hbegan : u.began[added.getD t.opened]? = some start)
    (hstart : start ≤ finish) :
    (u.record (u.entry t.opened added inBody
      (startSpan .client start finish u.globals))).leave.Sound received := by
  obtain ⟨top, tail, hcontexts, htop⟩ := h.exists_top
  have hhead : u.contexts.head? = some top := by
    rw [hcontexts]
    rfl
  obtain ⟨outer, rest, htail⟩ :=
    List.exists_cons_of_ne_nil (h.tail_ne_nil ht)
  obtain rfl : tail = outer :: rest := by
    rw [← htail, hcontexts]
    rfl
  refine h.sound.close hcontexts
    (h.sound.holds_entry hcontexts hbegan hstart h.left) hhead
    (congrArg List.head? htail) fun child hchild hparent => ?_
  obtain ⟨new, hentries, hnew⟩ := h.entries
  rw [hentries] at hchild
  obtain hchild | hchild := List.mem_append.mp hchild
  · obtain ⟨context, hcontext, hlt, -⟩ := (ht.holds child hchild).parent
    obtain rfl := Option.some.inj (hcontext.symm.trans hparent)
    exact absurd hlt (Nat.not_lt.mpr htop)
  · have hinner := hnew child hchild
    exact ⟨hinner.call, hinner.left top hparent hhead⟩

theorem record (h : t.Framed received exit finish u)
    (ht : t.Sound received)
    (hbegan : u.began[added.getD t.opened]? = some start)
    (hstart : start ≤ finish) :
    t.Ran received inBody exit
      (u.record (u.entry t.opened added inBody
        (startSpan .client start finish u.globals))).leave where
  sound := h.sound_record ht hbegan hstart
  began := h.began_prefix
  clock := h.clock_le.trans_eq (clock_moChainAddSpan _ _).symm
  contexts := h.contexts_leave
  entries := by
    obtain ⟨new, hentries, hnew⟩ := h.entries
    refine ⟨new ++ [u.entry t.opened added inBody
      (startSpan .client start finish u.globals)], ?_, fun other hmem => ?_⟩
    · rw [← List.append_assoc, ← hentries]
      rfl
    obtain hmem | hmem := List.mem_append.mp hmem
    · exact (hnew other hmem).new
    rw [List.mem_singleton.mp hmem]
    refine ⟨Nat.le_refl _, fun context hcontext hlt => ⟨?_, rfl⟩⟩
    obtain ⟨extra, htail, -, hextra⟩ := h.contexts_leave
    have hsecond : u.contexts.tail.head? = some context := hcontext
    rw [htail] at hsecond
    cases extra with
    | nil => exact hsecond
    | cons first extra =>
        obtain rfl := Option.some.inj hsecond
        exact absurd hlt (Nat.not_lt.mpr (hextra first List.mem_cons_self))

end Framed

end Timeline

open Timeline

/-! The calls. -/

def Keeps (received : List String) (inBody : Bool) (exit : Exit)
    (program : Run Timeline) : Prop :=
  ∀ t, t.Sound received →
    (program t).2 = exit ∧ t.Ran received inBody exit (program t).1

/-- A record callback of the call that was entered at `t`, whose function was
left at `finish`. -/
def Closes (received : List String) (inBody : Bool) (exit : Exit)
    (bodyExit : Exit) (finish : Nat) (t : Timeline) (program : Run Timeline) :
    Prop :=
  ∀ u, t.Framed received bodyExit finish u → u.globals.clock = finish →
    (program u).2 = exit ∧
      match exit with
      | .returned => t.Ran received inBody bodyExit (program u).1.leave
      | .bailed => t.Ran received inBody .bailed (program u).1

section Programs

variable {received : List String} {inBody : Bool} {exit exit' : Exit}
  {build : Build} {t : Timeline} {finish : Nat}

theorem Keeps.quiet {f : Globals → Globals} (hf : Quiet f) :
    Keeps received inBody .returned (.act (Timeline.change f)) :=
  fun _ h => ⟨rfl, .change h hf⟩

theorem Keeps.skip : Keeps received inBody .returned .skip :=
  fun _ h => ⟨rfl, .refl h⟩

theorem Keeps.bailout : Keeps received inBody .bailed .bailout :=
  fun _ h => ⟨rfl, .refl h⟩

theorem Keeps.andThen {first second : Run Timeline}
    (hfirst : Keeps received inBody exit first)
    (hsecond : exit = .returned → Keeps received inBody exit' second) :
    Keeps received inBody (exit.andThen exit') (first.andThen second) := by
  intro t ht
  obtain ⟨hexit, hran⟩ := hfirst t ht
  cases exit with
  | bailed =>
      rw [Run.andThen_of_bailed hexit]
      exact ⟨rfl, hran⟩
  | returned =>
      obtain ⟨hexit', hran'⟩ := hsecond rfl _ hran.sound
      rw [Run.andThen_of_returned hexit]
      exact ⟨hexit', hran.trans hran'⟩

theorem Keeps.intercepted {body : Run Timeline}
    (record : Nat → Frame → Run Timeline)
    (hbody : Keeps received true exit body)
    (hrecord : ∀ t finish, t.Sound received → Closes received inBody exit' exit
      finish t (record t.opened ⟨t.globals.clock, finish⟩)) :
    Keeps received inBody (exit'.andThen exit)
      (.reading fun start =>
        (Run.act (Timeline.enter build)).andThen <|
          body.ensuring <| .reading fun left =>
            (record start.opened
              ⟨start.globals.clock, left.globals.clock⟩).andThen
                (.act Timeline.leave)) := by
  intro t ht
  obtain ⟨hexit, hran⟩ := hbody _ (ht.enter build)
  obtain ⟨hexit', hclosed⟩ := hrecord t _ ht _ (.of_body hran) rfl
  rw [Run.reading_apply, Run.act_andThen, Run.ensuring_state,
    Run.ensuring_exit, Run.reading_apply]
  cases exit' with
  | returned =>
      rw [Run.andThen_of_returned hexit']
      exact ⟨hexit, hclosed⟩
  | bailed =>
      rw [Run.andThen_of_bailed hexit']
      exact ⟨rfl, hclosed⟩

theorem ids_eq_of_contexts {v w : Timeline} (hv : v.Sound received)
    (hw : w.Sound received) (hcontexts : w.contexts = v.contexts) :
    w.globals.chain.span.ids = v.globals.chain.span.ids := by
  have hv' := hv.ids
  have hw' := hw.ids
  rw [hcontexts, ← hv'] at hw'
  exact hw'

theorem entry_eq_of_contexts {v w : Timeline} (hv : v.Sound received)
    (hw : w.Sound received) (hcontexts : w.contexts = v.contexts)
    (call start finish : Nat) :
    v.entry call none inBody (startSpan .client start finish v.globals) =
      w.entry call none inBody (startSpan .client start finish w.globals) := by
  have hids := ids_eq_of_contexts hv hw hcontexts
  rw [Timeline.entry, Timeline.entry, startSpan, startSpan, hcontexts,
    SpanState.retrieveSpanId_eq, SpanState.retrieveSpanId_eq,
    SpanState.retrieveParentSpanId_eq, SpanState.retrieveParentSpanId_eq, hids]

theorem curlRecord_eq {start pushed w : Timeline}
    (hpushed : pushed.Sound received) (hw : w.Sound received)
    (hcontexts : w.contexts = pushed.contexts) :
    Timeline.curlRecord inBody start pushed w =
      (w.record (w.entry start.opened none inBody (startSpan .client
        start.globals.clock w.globals.clock w.globals))).leave := by
  have hid : pushed.globals.chain.span.retrieveSpanId =
      w.globals.chain.span.retrieveSpanId := by
    rw [SpanState.retrieveSpanId_eq, SpanState.retrieveSpanId_eq,
      ids_eq_of_contexts hpushed hw hcontexts]
  rw [Timeline.curlRecord, hid, ← hcontexts]
  rfl

theorem Keeps.curlExec {handle : Nat} {body : Run Timeline}
    (hbody : Keeps received true .returned body) :
    Keeps received inBody .returned
      (.reading fun start =>
        (Run.act (Timeline.enter build)).andThen <| .reading fun pushed =>
          (Run.act (Timeline.change (setTraceHeader build handle))).andThen <|
            body.andThen <|
              .act (Timeline.curlRecord inBody start pushed)) := by
  intro t ht
  have hquiet : Quiet (setTraceHeader build handle) :=
    .onlyCurl (onlyCurl_setTraceHeader build handle)
  have hset : (t.enter build).Ran received true .returned _ :=
    .change (ht.enter build) hquiet
  obtain ⟨hexit, hran⟩ := hbody _ hset.sound
  have hframed : t.Framed received .returned _ _ := .of_body (hset.trans hran)
  rw [Run.reading_apply, Run.act_andThen, Run.reading_apply, Run.act_andThen,
    Run.andThen_of_returned hexit, Run.act_apply]
  refine ⟨rfl, ?_⟩
  rw [curlRecord_eq (ht.enter build) hran.sound hran.contexts_of_returned]
  exact hframed.record ht hframed.began_opened hframed.entered

theorem Closes.silent {calls : Run Timeline} (ht : t.Sound received)
    (h : Keeps received false exit calls) :
    Closes received inBody exit exit' finish t calls := by
  intro u hframed _
  obtain ⟨hexit, hran⟩ := h u hframed.sound
  refine ⟨hexit, ?_⟩
  cases exit with
  | returned => exact (hframed.callback hran).leave ht
  | bailed => exact hframed.bailed hran

theorem Closes.span {before after : Run Timeline} {bodyExit : Exit}
    (ht : t.Sound received) (hbefore : Keeps received false exit before)
    (hafter : exit = .returned → Keeps received false exit' after) :
    Closes received inBody (exit.andThen exit') bodyExit finish t
      (before.andThen <| .reading fun v =>
        after.andThen <| .act (Timeline.record (v.entry t.opened none inBody
          (startSpan .client t.globals.clock finish v.globals)))) := by
  intro u hframed _
  obtain ⟨hexit, hran⟩ := hbefore u hframed.sound
  cases exit with
  | bailed =>
      rw [Run.andThen_of_bailed hexit]
      exact ⟨rfl, hframed.bailed hran⟩
  | returned =>
      have hv := hframed.callback hran
      obtain ⟨hexit', hran'⟩ := hafter rfl _ hran.sound
      rw [Run.andThen_of_returned hexit, Run.reading_apply]
      cases exit' with
      | bailed =>
          rw [Run.andThen_of_bailed hexit']
          exact ⟨rfl, hv.bailed hran'⟩
      | returned =>
          have hw := hv.callback hran'
          rw [Run.andThen_of_returned hexit', Run.act_apply,
            entry_eq_of_contexts hran.sound hran'.sound
              hran'.contexts_of_returned]
          exact ⟨rfl, hw.record ht hw.began_opened hw.entered⟩

theorem Closes.multiAdd {bodyExit : Exit} (ht : t.Sound received)
    (handle : Nat) :
    Closes received inBody .returned bodyExit finish t
      (.act (Timeline.addHandle t.opened handle
        ⟨t.globals.clock, finish⟩)) :=
  fun _ hframed _ => ⟨rfl, (hframed.addHandle handle).leave ht⟩

theorem Closes.multiRemove {bodyExit : Exit} (ht : t.Sound received)
    (handle : Nat) :
    Closes received inBody .returned bodyExit finish t
      (.act (Timeline.removeHandle t.opened inBody handle
        ⟨t.globals.clock, finish⟩)) := by
  intro u hframed hclock
  refine ⟨rfl, ?_⟩
  rw [Run.act_apply, Timeline.removeHandle]
  cases hcache : u.globals.spanInfoCache handle with
  | none => exact hframed.leave ht
  | some startTime =>
      obtain ⟨call, hadded, hbegan⟩ := hframed.sound.cached handle _ hcache
      refine hframed.record ht ?_ ?_
      · rw [hadded]
        exact hbegan
      · rw [← hclock]
        exact hframed.sound.past _ (List.mem_of_getElem? hbegan)

end Programs

mutual
theorem Call.keeps (build : Build) (received : List String) (inBody : Bool) :
    ∀ call : Call, call.CurlsReturn →
      Keeps received inBody call.exit (call.timeline build inBody)
  | .plain body, hcurls => body.keeps build received inBody hcurls
  | .intercepted record body, ⟨hbody, hrecord⟩ =>
      .intercepted (record.timeline build · inBody)
        (body.keeps build received true hbody)
        fun _ _ ht => record.closes build inBody hrecord ht
  | .curlExec _ body, ⟨hbody, hexit⟩ => by
      have hkeeps := body.keeps build received true hbody
      rw [hexit] at hkeeps
      rw [Call.exit, hexit]
      exact .curlExec hkeeps
  | .curlExecRejected _, hcurls => hcurls.elim
  | .curlSetopt args, _ => .quiet (.onlyCurl (onlyCurl_userSetopt args))
  | .curlSetoptArray args, _ =>
      .quiet (.onlyCurl (onlyCurl_userSetoptArray args))
  | .curlReset handle, _ => .quiet (.onlyCurl (onlyCurl_userReset handle))
  | .elapse millis, _ => .quiet (.elapse millis)

theorem Record.closes (build : Build) {received : List String}
    (inBody : Bool) : ∀ (record : Record), record.CurlsReturn →
      ∀ {t : Timeline} {bodyExit : Exit} {finish : Nat}, t.Sound received →
        Closes received inBody record.exit bodyExit finish t
          (record.timeline build t.opened inBody ⟨t.globals.clock, finish⟩)
  | .silent calls, hcurls, _, _, _, ht =>
      .silent ht (calls.keeps build received false hcurls)
  | .span before after, ⟨hbefore, hafter⟩, _, _, _, ht =>
      .span ht (before.keeps build received false hbefore)
        fun hexit => after.keeps build received false (hafter hexit)
  | .multiAdd handle, _, _, _, _, ht => .multiAdd ht handle
  | .multiRemove handle, _, _, _, _, ht => .multiRemove ht handle

theorem CallSeq.keeps (build : Build) (received : List String)
    (inBody : Bool) : ∀ calls : CallSeq, calls.CurlsReturn →
      Keeps received inBody calls.exit (calls.timeline build inBody)
  | .done, _ => .skip
  | .bailout, _ => .bailout
  | .next call rest, ⟨hcall, hrest⟩ =>
      (call.keeps build received inBody hcall).andThen fun hexit =>
        rest.keeps build received inBody (hrest hexit)
end

/-! Whole requests. -/

theorem Timeline.sound_start {g : Globals} (hne : g.ids ≠ [])
    (hspans : g.spans = some [])
    (hcached : ∀ handle, g.spanInfoCache handle = none) :
    (Timeline.start g).Sound g.ids.tail := by
  obtain ⟨mainId, rest, hids⟩ := List.exists_cons_of_ne_nil hne
  have hcontexts : (Timeline.start g).contexts = [⟨0, mainId⟩] := by
    rw [Timeline.start, hids]
    rfl
  constructor
  · exact List.pairwise_singleton _ _
  · exact fun time htime => Nat.le_of_eq (List.mem_singleton.mp htime)
  · intro handle time htime
    have hnone := hcached handle
    rw [Timeline.start, hnone] at htime
    contradiction
  · exact hcontexts ▸ List.cons_ne_nil _ _
  · rw [hcontexts, Timeline.start, hids]
    rfl
  · exact hspans.trans (by simp [Timeline.start])
  · exact hcontexts ▸ List.pairwise_singleton _ _
  · rw [hcontexts]
    intro context hmem
    rw [List.mem_singleton.mp hmem]
    exact Nat.zero_lt_one
  · simp [Timeline.start]
  · simp [Timeline.start]
  · simp [Timeline.start]

theorem phasesTimeline_ran (build : Build) {received : List String}
    {phases : List CallSeq} (hcurls : ∀ phase ∈ phases, phase.CurlsReturn)
    {t : Timeline} (ht : t.Sound received) :
    t.Ran received true .bailed (phasesTimeline build phases t) := by
  induction phases generalizing t with
  | nil => exact .refl ht
  | cons phase phases ih =>
      rw [List.forall_mem_cons] at hcurls
      obtain ⟨-, hran⟩ := phase.keeps build received true hcurls.1 t ht
      exact hran.bailed.trans (ih hcurls.2 hran.sound)

/-- The entries show contexts as they say.  Where the parent id of a span refers
to a recorded span, that lies around it if the call was made by the parent's
function, unless the call at whose entry the span starts was made before the
one at whose entry the parent's span starts. -/
structure Nested (entries : List Entry) : Prop where
  shows : ∀ entry ∈ entries, ∃ context, entry.shows = some context ∧
    entry.span.id = some context.id
  parent : ∀ entry ∈ entries, ∀ context, entry.parent = some context →
    entry.span.parentId = some context.id
  called : ∀ entry ∈ entries, entry.call ≠ 0 → entry.parent.isSome
  ordered : ∀ entry ∈ entries, entry.span.start ≤ entry.span.finish
  later : ∀ entry ∈ entries, ∀ parent ∈ entries, ∀ context,
    entry.parent = some context → parent.shows = some context →
      parent.call < entry.call
  inside : ∀ entry ∈ entries, ∀ parent ∈ entries, ∀ context,
    entry.parent = some context → parent.shows = some context →
      entry.inBody = true → parent.since ≤ entry.since →
        entry.span.Inside parent.span
  before : ∀ entry ∈ entries, ∀ parent ∈ entries,
    entry.since ≤ parent.since → entry.span.start ≤ parent.span.start

namespace Timeline

variable {received : List String} {t : Timeline}

theorem Sound.began_le (h : t.Sound received) {index index' : Nat}
    {time time' : Nat} (hbegan : t.began[index]? = some time)
    (hbegan' : t.began[index']? = some time') (hle : index ≤ index') :
    time ≤ time' := by
  obtain ⟨hlt, rfl⟩ := List.getElem?_eq_some_iff.mp hbegan
  obtain ⟨hlt', rfl⟩ := List.getElem?_eq_some_iff.mp hbegan'
  obtain rfl | hlt := hle.eq_or_lt
  · exact Nat.le_refl _
  · exact List.pairwise_iff_getElem.mp h.sorted _ _ _ _ hlt

theorem main_shows {top : Opened} {rest : List Opened}
    (hcontexts : t.contexts = top :: rest) : t.main.shows = some top := by
  rw [main, Timeline.entry, hcontexts]
  rfl

theorem Sound.encloses_main (h : t.Sound received)
    (hcalls : ∀ entry ∈ t.entries, 0 < entry.call) {entry parent : Entry}
    (hentry : entry ∈ t.entries ++ [t.main])
    (hparent : parent ∈ t.entries ++ [t.main]) {context : Opened}
    (hcontext : entry.parent = some context)
    (hshows : parent.shows = some context) : parent.Encloses entry := by
  obtain ⟨top, rest, hcontexts⟩ := List.exists_cons_of_ne_nil h.nonempty
  have hmem : ∀ context, t.main.parent = some context → context ∈ rest := by
    intro context hmain
    rw [main, Timeline.entry, hcontexts] at hmain
    exact List.mem_of_mem_head? hmain
  obtain hparent | hparent := List.mem_append.mp hparent
  · obtain hentry | hentry := List.mem_append.mp hentry
    · exact h.encloses entry hentry parent hparent context hcontext hshows
    · rw [List.mem_singleton.mp hentry] at hcontext
      refine absurd hshows (h.closed parent hparent context ?_)
      rw [hcontexts]
      exact List.mem_cons_of_mem _ (hmem context hcontext)
  · obtain rfl := List.mem_singleton.mp hparent
    obtain hentry | hentry := List.mem_append.mp hentry
    · exact ⟨hcalls entry hentry, fun _ => (h.holds entry hentry).past⟩
    · rw [List.mem_singleton.mp hentry] at hcontext
      obtain rfl := Option.some.inj
        ((main_shows hcontexts).symm.trans hshows)
      have hbelow := (List.pairwise_cons.mp (hcontexts ▸ h.descending)).1
      exact absurd (hbelow top (hmem top hcontext)) (Nat.lt_irrefl _)

theorem Sound.nested (h : t.Sound received)
    (hfirst : t.began[0]? = some t.globals.executeBeginTime)
    (hcalls : ∀ entry ∈ t.entries, 0 < entry.call) :
    Nested (t.entries ++ [t.main]) := by
  obtain ⟨top, rest, hcontexts⟩ := List.exists_cons_of_ne_nil h.nonempty
  have htop := main_shows hcontexts
  have hstamped : ∀ entry ∈ t.entries ++ [t.main],
      t.began[entry.since]? = some entry.span.start := by
    rw [List.forall_mem_append, List.forall_mem_singleton]
    exact ⟨fun entry hmem => (h.holds entry hmem).began, hfirst⟩
  constructor
  · rw [List.forall_mem_append, List.forall_mem_singleton]
    refine ⟨fun entry hmem => ?_, top, htop, h.startSpan_id htop _ _ _⟩
    obtain ⟨context, hshows, -, hid⟩ := (h.holds entry hmem).shows
    exact ⟨context, hshows, hid⟩
  · rw [List.forall_mem_append, List.forall_mem_singleton]
    refine ⟨fun entry hmem context hcontext => ?_, fun context hcontext =>
      h.startSpan_parentId hcontext _ _ _⟩
    obtain ⟨outer, hparent, -, hid⟩ := (h.holds entry hmem).parent
    obtain rfl := Option.some.inj (hparent.symm.trans hcontext)
    exact hid
  · rw [List.forall_mem_append, List.forall_mem_singleton]
    refine ⟨fun entry hmem _ => ?_, fun hne => absurd rfl hne⟩
    obtain ⟨context, hparent, -⟩ := (h.holds entry hmem).parent
    rw [hparent]
    rfl
  · rw [List.forall_mem_append, List.forall_mem_singleton]
    refine ⟨fun entry hmem => (h.holds entry hmem).ordered, ?_⟩
    exact h.past _ (List.mem_of_getElem? hfirst)
  · intro entry hentry parent hparent context hcontext hshows
    exact (h.encloses_main hcalls hentry hparent hcontext hshows).entered
  · intro entry hentry parent hparent context hcontext hshows hinBody hsince
    exact ⟨h.began_le (hstamped parent hparent) (hstamped entry hentry) hsince,
      (h.encloses_main hcalls hentry hparent hcontext hshows).left hinBody⟩
  · intro entry hentry parent hparent
    exact h.began_le (hstamped entry hentry) (hstamped parent hparent)

end Timeline

/-- The spans of a sampled request lie inside their parents, but for those made
by record callbacks and those that start before their parent does. -/
theorem batch_nested {build : Build} {input : RequestInput}
    {module : Ctrl.CtrlModule} {record record' : Ctrl.SamplingRecord}
    {prior start : Globals} {phases : List CallSeq}
    (hstart : phpRinit build input module record prior =
      some (start, record'))
    (hsampled : start.chain.isSampled = true)
    (hcurls : ∀ phase ∈ phases, phase.CurlsReturn) :
    batch build phases start = some
        (((requestEntries build phases start).map Entry.span).take maxSpans) ∧
      Nested (requestEntries build phases start) := by
  obtain ⟨hactive, hspans, -, -, -, hbegin, -, mainId, hids⟩ :=
    phpRinit_sampled hstart hsampled
  have hsound := Timeline.sound_start (by rw [hids]; exact List.cons_ne_nil _ _)
    hspans (spanInfoCache_phpRinit hstart)
  have hran := phasesTimeline_ran build hcurls hsound
  have hglobals : (phasesTimeline build phases (.start start)).globals =
      runPhases build phases start :=
    globals_phasesTimeline build phases hactive
  have hend : (runPhases build phases start).Active ∧
      (runPhases build phases start).executeBeginTime = start.clock :=
    runPhases_kept (keptBySteps_executeBeginTime build start.clock) phases 0
      ⟨hactive, hbegin⟩
  constructor
  · have hspans' := hran.sound.spans
    rw [hglobals] at hspans'
    rw [batch, phpRshutdown_spans hend.1.1 hspans', ← hglobals, requestEntries,
      List.map_append]
    rfl
  · refine hran.sound.nested ?_ fun entry hmem => ?_
    · rw [hglobals, hend.2]
      exact getElem?_of_prefix hran.began rfl
    · obtain ⟨new, hentries, hnew⟩ := hran.entries
      rw [hentries] at hmem
      exact (hnew entry hmem).call

/-- A handle is added, and later removed inside a call. -/
def addedBefore : List CallSeq :=
  [.next (.intercepted (.multiAdd 1) .done)
    (.next (.elapse 5)
      (.next (.intercepted (.span .done .done)
        (.next (.intercepted (.multiRemove 1) .done) .done)) .done))]

theorem batch_nested_addedBefore :
    batch ⟨.molten, .level⟩ addedBefore (scriptStart .level) = some
        (((requestEntries ⟨.molten, .level⟩ addedBefore
          (scriptStart .level)).map Entry.span).take maxSpans) ∧
      Nested (requestEntries ⟨.molten, .level⟩ addedBefore
        (scriptStart .level)) :=
  batch_nested (phpRinit_script .level) rfl
    (by simp [addedBefore, CallSeq.CurlsReturn, Call.CurlsReturn,
      Record.CurlsReturn])

/-- A record callback makes a call that takes time. -/
def calledByRecord : List CallSeq :=
  [.next (.intercepted (.span
    (.next (.intercepted (.span .done .done) (.next (.elapse 5) .done))
      .done) .done) .done) .done]

theorem not_intervalsNest :
    phpRinit ⟨.molten, .level⟩ scriptInput ⟨1, 1, 1, 0⟩ ⟨0, 0⟩ freshGlobals =
        some (scriptStart .level, ⟨0, 0⟩) ∧
      (∀ phase ∈ addedBefore ++ calledByRecord, phase.CurlsReturn) ∧
      (∃ spans, batch ⟨.molten, .level⟩ addedBefore (scriptStart .level) =
        some spans ∧ ¬ IntervalsNest spans) ∧
      ∃ spans, batch ⟨.molten, .level⟩ calledByRecord (scriptStart .level) =
        some spans ∧ ¬ IntervalsNest spans := by
  refine ⟨phpRinit_script .level, ?_, ⟨_, rfl, ?_⟩, _, rfl, ?_⟩
  · simp [addedBefore, calledByRecord, CallSeq.CurlsReturn, Call.CurlsReturn,
      Record.CurlsReturn]
  · decide
  · decide

end Molten.Request
