import Molten.Chain.Start
import Mathlib.Logic.Relation

namespace Molten.Chain

open Molten.Text
open Molten.Span
open Molten.Ctrl

/-! From the headers one process sends to the state the next one starts in. -/

def serverKey (name : String) : String :=
  "HTTP_" ++ String.ofList
    (name.toList.map fun c => if c = '-' then '_' else c.toUpper)

/-- Every header line arrives as its server variable. -/
def Delivers (lines : List String) (server : ServerVars) : Prop :=
  ∀ name value : String, name ++ ": " ++ value ∈ lines →
    ':' ∉ name.toList → server (serverKey name) = some (.string value)

/-- A state in which RINIT left some process. -/
def Started (headers : HeaderBuild) (state : ChainState) : Prop :=
  ∃ build input module record prior record',
    startChain headers build input module record prior =
      some (state, record')

/-- A process about to run `curl_exec`: the headers the user set, and the stack
at that moment. -/
structure Calling (headers : HeaderBuild) (sender : ChainState)
    (span : SpanState) (user : List String) : Prop where
  user_untraced : ∀ line ∈ user,
    startsWith line headers.headerPrefix = false
  depth : sender.isSampled = true → 2 ≤ span.ids.length

def sentHeader (headers : HeaderBuild) (sender : ChainState)
    (span : SpanState) (user : List String) : Option CurlHeader :=
  addHttpTraceHeader headers sender.isSampled sender.pch span (.list user)
    span.retrieveSpanId

structure Inherits (sender : ChainState) (span : SpanState)
    (receiver : ChainState) : Prop where
  sampled : receiver.isSampled = sender.isSampled
  traceId : sender.isSampled = true →
    receiver.pch.traceId.val = sender.pch.traceId.val
  flags : sender.isSampled = true →
    receiver.pch.flags.val = sender.pch.flags.val
  /-- top first: the caller's `curl_exec`, then what enclosed it -/
  ids : sender.isSampled = true →
    receiver.span.ids.map some =
      [span.retrieveSpanId, span.retrieveParentSpanId]

/-- One process calls another over HTTP. -/
def Hop (headers : HeaderBuild) (sender receiver : ChainState) : Prop :=
  ∃ span user sent build input module record prior record',
    Calling headers sender span user ∧
    sentHeader headers sender span user = some (.list sent) ∧
    input.isCli = false ∧ Delivers sent input.server ∧
    startChain headers build input module record prior =
      some (receiver, record')

/-! What arrives. -/

theorem Delivers.received {lines : List String} {input : RequestInput}
    (h : Delivers lines input.server) (hcli : input.isCli = false)
    {name value key : String} (hline : name ++ ": " ++ value ∈ lines)
    (hname : ':' ∉ name.toList) (hkey : serverKey name = key) :
    input.received key = some value :=
  RequestInput.received_of_server hcli (hkey ▸ h name value hline hname)

theorem serverKey_pass (headers : HeaderBuild) :
    serverKey headers.headerTraceId = headers.recTraceId ∧
    serverKey headers.headerSpanId = headers.recSpanId ∧
    serverKey headers.headerParentSpanId = headers.recParentSpanId ∧
    serverKey headers.headerSampled = headers.recSampled ∧
    serverKey headers.headerFlags = headers.recFlags := by
  cases headers <;> decide

theorem colon_notMem_pass (headers : HeaderBuild) :
    ':' ∉ headers.headerTraceId.toList ∧ ':' ∉ headers.headerSpanId.toList ∧
    ':' ∉ headers.headerParentSpanId.toList ∧
    ':' ∉ headers.headerSampled.toList ∧
    ':' ∉ headers.headerFlags.toList := by
  cases headers <;> decide

def lineName (line : String) : String :=
  String.ofList (line.toList.takeWhile (· != ':'))

def lineValue (line : String) : String :=
  String.ofList ((line.toList.dropWhile (· != ':')).drop 2)

theorem lineName_line {name value : String} (h : ':' ∉ name.toList) :
    lineName (name ++ ": " ++ value) = name := by
  have hname : ∀ c ∈ name.toList, (c != ':') = true := by
    intro c hc
    simpa using fun heq : c = ':' => h (heq ▸ hc)
  rw [lineName, ← String.toList_inj, String.toList_ofList, String.toList_append,
    String.toList_append, List.append_assoc,
    List.takeWhile_append_of_pos hname]
  simp

theorem lineValue_line {name value : String} (h : ':' ∉ name.toList) :
    lineValue (name ++ ": " ++ value) = value := by
  have hname : ∀ c ∈ name.toList, (c != ':') = true := by
    intro c hc
    simpa using fun heq : c = ':' => h (heq ▸ hc)
  rw [lineValue, ← String.toList_inj, String.toList_ofList,
    String.toList_append, String.toList_append, List.append_assoc,
    List.dropWhile_append_of_pos hname]
  simp

theorem Delivers.of_lines {lines : List String} {server : ServerVars}
    (h : ∀ line ∈ lines,
      server (serverKey (lineName line)) = some (.string (lineValue line))) :
    Delivers lines server := by
  intro name value hline hname
  simpa only [lineName_line hname, lineValue_line hname] using h _ hline

theorem ofInput_of_delivers {headers : HeaderBuild} {context : TraceContext}
    {user : List String} {input : RequestInput} {spanId parentSpanId : String}
    (hcli : input.isCli = false)
    (h : Delivers (user ++ traceLines headers context spanId parentSpanId)
      input.server) :
    TraceContext.ofInput headers input =
      { context with spanId := some spanId, parentSpanId := parentSpanId } := by
  obtain ⟨htrace, hspan, hparent, hsampled, hflags⟩ := serverKey_pass headers
  obtain ⟨ctrace, cspan, cparent, csampled, cflags⟩ := colon_notMem_pass headers
  have harrive : ∀ {name value key : String},
      name ++ ": " ++ value ∈
        traceLines headers context spanId parentSpanId →
      ':' ∉ name.toList → serverKey name = key →
      input.received key = some value := fun hline hname hkey =>
    h.received hcli (List.mem_append_right _ hline) hname hkey
  have rtrace : input.received headers.recTraceId = some context.traceId :=
    harrive (by simp [traceLines]) ctrace htrace
  have rspan : input.received headers.recSpanId = some spanId :=
    harrive (by simp [traceLines]) cspan hspan
  have rparent : input.received headers.recParentSpanId = some parentSpanId :=
    harrive (by simp [traceLines]) cparent hparent
  have rsampled : input.received headers.recSampled = some context.sampled :=
    harrive (by simp [traceLines]) csampled hsampled
  have rflags : input.received headers.recFlags = some context.flags :=
    harrive (by simp [traceLines]) cflags hflags
  simp [TraceContext.ofInput, rtrace, rspan, rparent, rsampled, rflags]

/-! One hop. -/

theorem sentHeader_unsampled {headers : HeaderBuild} {sender : ChainState}
    {span : SpanState} {user : List String}
    (hcalling : Calling headers sender span user)
    (hsampled : sender.isSampled = false) :
    sentHeader headers sender span user =
      some (.list (user ++ [headers.headerSampled ++ ": 0"])) := by
  have hnone : user.any (startsWith · headers.headerSampled) = false := by
    rw [List.any_eq_false]
    intro line hline hstarts
    have hprefix : startsWith line headers.headerPrefix = true := by
      rw [startsWith, List.isPrefixOf_iff_prefix] at hstarts ⊢
      refine List.IsPrefix.trans ?_ hstarts
      simp [HeaderBuild.headerSampled]
    simp [hcalling.user_untraced line hline] at hprefix
  simp [sentHeader, addHttpTraceHeader, hsampled, hnone]

theorem inherits_of_unsampled {headers : HeaderBuild} {sender : ChainState}
    {span : SpanState} {user : List String} {input : RequestInput}
    (hsampled : sender.isSampled = false) (hcli : input.isCli = false)
    (h : Delivers (user ++ [headers.headerSampled ++ ": 0"]) input.server)
    (build : IdBuild) (module : CtrlModule) (record : SamplingRecord)
    (prior : ChainState) :
    ∃ receiver record', startChain headers build input module record prior =
      some (receiver, record') ∧ Inherits sender span receiver := by
  have hline : headers.headerSampled ++ ": " ++ "0" ∈
      user ++ [headers.headerSampled ++ ": 0"] := by
    simp [String.append_assoc]
  have hreceived : input.received headers.recSampled = some "0" :=
    h.received hcli hline (colon_notMem_pass headers).2.2.2.1
      (serverKey_pass headers).2.2.2.1
  have hzero : startsWith "0" "1" = false := by decide
  refine ⟨_, record, by
    simp only [startChain, moCtrlSampling_of_received hreceived, hzero,
      Option.map_some]; rfl, ?_⟩
  exact ⟨by simp [moChainCtor, hsampled], by simp [hsampled],
    by simp [hsampled], by simp [hsampled]⟩

theorem Started.context {headers : HeaderBuild} {state : ChainState}
    (h : Started headers state) (hsampled : state.isSampled = true) :
    ∃ context : TraceContext, ∃ ip port,
      state.pch = context.header headers ip port ∧
      startsWith context.sampled "1" = true := by
  obtain ⟨build, input, module, record, prior, record', hstart⟩ := h
  obtain ⟨hdecision, ip, port, hpch, -⟩ := startChain_sampled hstart hsampled
  exact ⟨_, ip, port, hpch, startsWith_sampled_of_moCtrlSampling hdecision⟩

theorem retrieve_of_depth {span : SpanState} (h : 2 ≤ span.ids.length) :
    ∃ spanId parentSpanId, span.retrieveSpanId = some spanId ∧
      span.retrieveParentSpanId = some parentSpanId := by
  rw [SpanState.retrieveSpanId_eq, SpanState.retrieveParentSpanId_eq]
  match span.ids, h with
  | spanId :: parentSpanId :: _, _ => exact ⟨spanId, parentSpanId, rfl, rfl⟩

theorem inherits_of_sampled {headers : HeaderBuild} {sender : ChainState}
    {span : SpanState} {user : List String} {input : RequestInput}
    {context : TraceContext} {ip : String} {port : Int}
    {spanId parentSpanId : String}
    (hpch : sender.pch = context.header headers ip port)
    (hsampled : sender.isSampled = true)
    (hflag : startsWith context.sampled "1" = true)
    (hspan : span.retrieveSpanId = some spanId)
    (hparent : span.retrieveParentSpanId = some parentSpanId)
    (hcli : input.isCli = false)
    (h : Delivers (user ++ traceLines headers context spanId parentSpanId)
      input.server)
    (build : IdBuild) (module : CtrlModule) (record : SamplingRecord)
    (prior : ChainState) :
    ∃ receiver record', startChain headers build input module record prior =
      some (receiver, record') ∧ Inherits sender span receiver := by
  have hcontext := ofInput_of_delivers hcli h
  have hreceived : input.received headers.recSampled = some context.sampled :=
    h.received hcli (by simp [traceLines])
      (colon_notMem_pass headers).2.2.2.1 (serverKey_pass headers).2.2.2.1
  obtain ⟨ip', port', hbuild⟩ := moBuildChainHeader_init headers build input
    prior.pch.ip prior.pch.port prior.span.initSpanContext
  have hstart : startChain headers build input module record prior =
      some ({ isSampled := true
              pch := (TraceContext.ofInput headers input).header headers
                ip' port'
              span := (TraceContext.ofInput headers input).entry build
                prior.span.initSpanContext }, record) := by
    simp [startChain, moCtrlSampling_of_received hreceived, hflag, moChainCtor,
      hbuild]
  refine ⟨_, record, hstart, ?_⟩
  rw [hcontext]
  refine ⟨hsampled.symm, fun _ => ?_, fun _ => ?_, fun _ => ?_⟩
  · rw [hpch]
    rfl
  · rw [hpch]
    rfl
  · simp [TraceContext.entry, ids_pushEntry, entryId, hspan, hparent]

theorem exists_sent_inherits {headers : HeaderBuild} {sender : ChainState}
    (hstarted : Started headers sender) {span : SpanState}
    {user : List String} (hcalling : Calling headers sender span user) :
    ∃ sent, sentHeader headers sender span user = some (.list sent) ∧
      ∀ build input module record prior, input.isCli = false →
        Delivers sent input.server →
        ∃ receiver record', startChain headers build input module record
            prior = some (receiver, record') ∧
          Inherits sender span receiver := by
  cases hsampled : sender.isSampled with
  | false =>
      refine ⟨_, sentHeader_unsampled hcalling hsampled, ?_⟩
      intro build input module record prior hcli hdelivers
      exact inherits_of_unsampled hsampled hcli hdelivers build module record
        prior
  | true =>
      obtain ⟨context, ip, port, hpch, hflag⟩ := hstarted.context hsampled
      obtain ⟨spanId, parentSpanId, hspan, hparent⟩ :=
        retrieve_of_depth (hcalling.depth hsampled)
      refine ⟨user ++ traceLines headers context spanId parentSpanId, ?_, ?_⟩
      · rw [sentHeader, hsampled, hpch, hspan,
          addHttpTraceHeader_sampled hparent]
      · intro build input module record prior hcli hdelivers
        exact inherits_of_sampled hpch hsampled hflag hspan hparent hcli
          hdelivers build module record prior

/-! Chains of hops. -/

theorem Hop.started {headers : HeaderBuild} {sender receiver : ChainState}
    (h : Hop headers sender receiver) : Started headers receiver := by
  obtain ⟨_, _, _, build, input, module, record, prior, record', -, -, -, -,
    hstart⟩ := h
  exact ⟨build, input, module, record, prior, record', hstart⟩

theorem Hop.inherits {headers : HeaderBuild} {sender receiver : ChainState}
    (hstarted : Started headers sender) (h : Hop headers sender receiver) :
    ∃ span, Inherits sender span receiver := by
  obtain ⟨span, user, sent, build, input, module, record, prior, record',
    hcalling, hsent, hcli, hdelivers, hstart⟩ := h
  obtain ⟨sent', hsent', hreceive⟩ := exists_sent_inherits hstarted hcalling
  rw [hsent'] at hsent
  cases hsent
  obtain ⟨receiver', record'', hstart', hinherits⟩ :=
    hreceive build input module record prior hcli hdelivers
  rw [hstart'] at hstart
  cases hstart
  exact ⟨span, hinherits⟩

theorem started_of_hops {headers : HeaderBuild} {sender receiver : ChainState}
    (hstarted : Started headers sender)
    (h : Relation.ReflTransGen (Hop headers) sender receiver) :
    Started headers receiver := by
  induction h with
  | refl => exact hstarted
  | tail _ hop _ => exact hop.started

theorem decision_of_hops {headers : HeaderBuild} {sender receiver : ChainState}
    (hstarted : Started headers sender)
    (h : Relation.ReflTransGen (Hop headers) sender receiver) :
    receiver.isSampled = sender.isSampled ∧
      (sender.isSampled = true →
        receiver.pch.traceId.val = sender.pch.traceId.val) := by
  induction h with
  | refl => exact ⟨rfl, fun _ => rfl⟩
  | tail hops hop ih =>
      obtain ⟨hdecision, htrace⟩ := ih
      obtain ⟨_, hinherits⟩ := hop.inherits (started_of_hops hstarted hops)
      refine ⟨hinherits.sampled.trans hdecision, fun hsampled => ?_⟩
      exact (hinherits.traceId (hdecision.trans hsampled)).trans
        (htrace hsampled)

/-- What a caller sends is what its callee starts with, over any number of
hops. -/
theorem trace_context_propagates {headers : HeaderBuild}
    {sender : ChainState} (hstarted : Started headers sender) :
    (∀ span user, Calling headers sender span user →
      ∃ sent, sentHeader headers sender span user = some (.list sent) ∧
        ∀ build input module record prior, input.isCli = false →
          Delivers sent input.server →
          ∃ receiver record', startChain headers build input module record
              prior = some (receiver, record') ∧
            Inherits sender span receiver) ∧
    (∀ receiver, Relation.ReflTransGen (Hop headers) sender receiver →
      receiver.isSampled = sender.isSampled ∧
        (sender.isSampled = true →
          receiver.pch.traceId.val = sender.pch.traceId.val)) :=
  ⟨fun _ _ hcalling => exists_sent_inherits hstarted hcalling,
    fun _ hops => decision_of_hops hstarted hops⟩

theorem trace_context_propagates_once :
    ∃ sender receiver : ChainState, Started .molten sender ∧
      sender.isSampled = true ∧ Hop .molten sender receiver ∧
      receiver.isSampled = true := by
  let input : RequestInput :=
    ⟨true, fun _ => none, "127.0.0.1", 0, 0, "00000000000000a1"⟩
  let idle : ChainState := ⟨false, moInitChainHeader .molten "" 0, ⟨[], 0⟩⟩
  let span : SpanState := ⟨[⟨"1.1", 1⟩, ⟨"1", 2⟩], 0⟩
  let sent := "Accept: */*" :: traceLines .molten
    ⟨"00000000000000a1", none, none, "1", "0"⟩ "1.1" "1"
  let sender : ChainState :=
    ⟨true, (TraceContext.ofInput .molten input).header .molten "127.0.0.1" 0,
      ⟨[⟨"1", 1⟩], 0⟩⟩
  have hstarted : Started .molten sender :=
    ⟨.level, input, ⟨1, 1, 1, 0⟩, ⟨0, 0⟩, idle, ⟨0, 0⟩, by decide⟩
  have hcalling : Calling .molten sender span ["Accept: */*"] :=
    ⟨by decide, by decide⟩
  let server : ServerVars := fun key =>
    (sent.find? fun line => serverKey (lineName line) == key).map
      (.string <| lineValue ·)
  have hdelivers : Delivers sent server := Delivers.of_lines (by decide)
  obtain ⟨hone, hmany⟩ := trace_context_propagates hstarted
  obtain ⟨sent', hsent, hreceive⟩ := hone span ["Accept: */*"] hcalling
  have hsent' : sent' = sent := by
    have h : sentHeader .molten sender span ["Accept: */*"] =
        some (.list sent) := by decide
    rw [h] at hsent
    cases hsent
    rfl
  subst hsent'
  obtain ⟨receiver, record', hstart, hinherits⟩ :=
    hreceive .level ⟨false, server, "127.0.0.1", 0, 0, ""⟩ ⟨0, 1, 0, 0⟩ ⟨0, 0⟩
      idle rfl hdelivers
  have hop : Hop .molten sender receiver :=
    ⟨span, _, _, _, _, _, _, _, record', hcalling, hsent, rfl, hdelivers,
      hstart⟩
  exact ⟨sender, receiver, hstarted, rfl, hop,
    (hmany receiver (.single hop)).1⟩

end Molten.Chain
