import Molten.Collector.CJsonComplete
import Molten.Collector.Registration

namespace Molten.Collector.StartUp

open Molten.Log Molten.Text CJson
open SelfLog (Slogger)

/-! `mo_span_pre_init_ctor` of a worker for SkyWalking, until the collector has
given an id to the application.  `none` is behaviour that is not defined. -/

/-- What the settings of the worker say. -/
structure Settings where
  sinkHttpUri : Block
  serviceName : ServiceName
  noNul : (0 : UInt8) ∉ sinkHttpUri

/-- How far a worker is, with what it has posted. -/
inductive Progress
  | noServer
  | waiting (sinkHttpUri : Block) (posts : List Post)
  | registered (sinkHttpUri : Block) (posts : List Post) (applicationId : Int)

def skSegments : Block := Block.ofString "segments"

section

variable (toInt : Block → Int) (slogger : Slogger)

/-- The calls of `sk_register_application` until the id is not 0. -/
def registerApplication (sinkHttpUri serverUrl name : Block)
    (posts : List Post) : List Reply → Option Progress
  | [] => do
      let post ← applicationPost slogger posts.length serverUrl name
      some (.waiting sinkHttpUri (posts ++ [post]))
  | reply :: replies => do
      let post ← applicationPost slogger posts.length serverUrl name
      let response ← requestApplication slogger posts.length post reply
      let applicationId ← Registration.applicationIn toInt response
      if applicationId = 0 then
        registerApplication sinkHttpUri serverUrl name (posts ++ [post]) replies
      else some (.registered sinkHttpUri (posts ++ [post]) applicationId)

/-- With what is on the stack and behind the strings, the reply to the first
request, and the replies to the others as far as they are there. -/
def moSpanPreInitCtor (settings : Settings) (behind : Nat → Memory)
    (stack : Memory) (reply : Reply) (replies : List Reply) :
    Option Progress := do
  let serverUrl ← Block.store 0 (settings.sinkHttpUri ++ [0])
    (List.replicate 64 0)
  let serverUrl ← Block.cString serverUrl
  match ← Registration.skGetServer behind stack serverUrl reply with
  | none => some .noServer
  | some url => do
      -- The size of a pointer is cleared, then the text is written anew.
      let sinkHttpUri ← Block.store 0 (List.replicate 8 0)
        (settings.sinkHttpUri ++ [0])
      let sinkHttpUri ← address sinkHttpUri url skSegments
      registerApplication toInt slogger sinkHttpUri url
        settings.serviceName.text [] replies

end

/-! What a collector answers. -/

/-- A text is in the buffer behind a request that is `CURLE_OK`. -/
def Arrives (response : Block) (reply : Reply) (text : Block) : Prop :=
  reply.code = curleOk ∧
    (curlEasyPerform reply.chunks response).bind Block.cString = some text

/-- A reply to a worker that registers its application at a url, with the number
in its field, or one that fails.  The line about it is printable. -/
inductive Answers (toInt : Block → Int) (url : Block) : Reply → Int → Prop
  | failed {reply : Reply} {text : Block} (code : reply.code ≠ curleOk)
      (within : (curlEasyPerform reply.chunks applicationBuffer).bind
        Block.cString = some text)
      (printable : ReplyPrintable url reply text) : Answers toInt url reply 0
  | json {reply : Reply} {text number : Block} {value : Json}
      (arrives : Arrives applicationBuffer reply text)
      (decodes : Json.Decodes text value) (clean : value.NulFree)
      (field : Registration.applicationField value = some (.number number))
      (printable : ReplyPrintable url reply text) :
      Answers toInt url reply (toInt number)

/-- The buffers have room for what is written to them, and the line about the
request is printable. -/
structure Fits (settings : Settings) (server : Block) : Prop where
  copied : settings.sinkHttpUri.length < 64
  sink : server.length + 8 ≤ settings.sinkHttpUri.length
  post : PostFits server settings.serviceName.text

instance (settings : Settings) (server : Block) :
    Decidable (Fits settings server) :=
  decidable_of_iff
    (settings.sinkHttpUri.length < 64 ∧
      server.length + 8 ≤ settings.sinkHttpUri.length ∧
      PostFits server settings.serviceName.text)
    ⟨fun all => ⟨all.1, all.2.1, all.2.2⟩,
      fun fits => ⟨fits.copied, fits.sink, fits.post⟩⟩

/-- The same post until an id is not 0. -/
def progress (sinkHttpUri : Block) (post : Post) (ids : List Int) : Progress :=
  match ids.dropWhile (· = 0) with
  | [] => .waiting sinkHttpUri (List.replicate (ids.length + 1) post)
  | id :: _ =>
      .registered sinkHttpUri
        (List.replicate ((ids.takeWhile (· = 0)).length + 1) post) id

/-! The texts that are built. -/

/-- The text of the setting makes room for the text that replaces it. -/
theorem sink_eq {uri server : Block} (noNul : (0 : UInt8) ∉ server) :
    ((Block.store 0 (List.replicate 8 0) (uri ++ [0])).bind fun sink =>
        address sink server skSegments) =
      if server.length + 8 ≤ uri.length then some (server ++ skSegments)
      else none := by
  have path : (0 : UInt8) ∉ skSegments := by decide
  have length : skSegments.length = 8 := by decide
  have size : (uri ++ [0]).length = uri.length + 1 := List.length_append
  by_cases room : 8 ≤ uri.length + 1
  · have stored := @Block.store_eq_some 0 (List.replicate 8 0) (uri ++ [0])
      (by rw [List.length_replicate]; omega)
    have kept := Block.length_store stored
    rw [stored, Option.bind_some, address_eq ?_ noNul path, kept, length, size]
    · have same : server.length + 8 < uri.length + 1 ↔
          server.length + 8 ≤ uri.length := Nat.lt_succ_iff
      simp only [same]
    · refine Block.cString_eq_some_iff.mpr ⟨List.not_mem_nil, ?_⟩
      exact ⟨_, rfl⟩
  · rw [if_neg (by omega), Block.store, if_neg (by
      rw [List.length_replicate]
      omega)]
    rfl

/-! The replies one by one. -/

section Replies

variable {toInt : Block → Int} {slogger : Slogger}

theorem cJSONParse_buffer {buffer text : Block} {value : Json}
    (read : Block.cString buffer = some text)
    (decodes : Json.Decodes text value) (clean : value.NulFree) :
    cJSONParse buffer = .ok value := by
  obtain ⟨-, rest, rfl⟩ := Block.cString_eq_some_iff.mp read
  obtain ⟨before, inner, after, rfl, blanks, written, tail⟩ := decodes
  simp only [List.append_assoc, List.singleton_append]
  exact cJSONParse_written blanks written tail clean rest

/-- A reply of the kind gives its id. -/
theorem Answers.read {post : Post} {reply : Reply} {id : Int}
    (answers : Answers toInt post.url reply id) (i : Nat)
    (long : 5 < post.url.length) (short : post.url.length < 64)
    (noNul : (0 : UInt8) ∉ post.url) :
    ((requestApplication slogger i post reply).bind fun response =>
      Registration.applicationIn toInt response) = some id := by
  cases answers with
  | failed code within printable =>
      obtain ⟨buffer, performed, text⟩ := Option.bind_eq_some_iff.mp within
      rw [requestApplication_eq slogger i long short noNul performed text,
        if_pos printable, if_neg code]
      rfl
  | json arrives decodes clean field printable =>
      obtain ⟨ok, within⟩ := arrives
      obtain ⟨buffer, performed, text⟩ := Option.bind_eq_some_iff.mp within
      have parsed := deref_parsed.mpr (cJSONParse_buffer text decodes clean)
      rw [requestApplication_eq slogger i long short noNul performed text,
        if_pos printable, if_pos ok, Option.bind_some,
        Registration.applicationIn_eq, parsed, Option.bind_some, field]
      rfl

theorem skGetServer_of_arrives {behind : Nat → Memory} {stack : Memory}
    {url text : Block} {reply : Reply} {first : Block} {others : List Block}
    (arrives : Arrives (responseBuffer stack) reply text)
    (decodes : Json.Decodes text (.array ((first :: others).map .string)))
    (clean : (Json.array ((first :: others).map .string)).NulFree)
    (few : others.length < serversSize) :
    Registration.skGetServer behind stack url reply =
      if 5 < url.length then
        some (some (Registration.keptName first others.length))
      else none := by
  rw [Registration.skGetServer, requestServers]
  by_cases long : 5 < url.length
  · obtain ⟨ok, within⟩ := arrives
    obtain ⟨buffer, performed, text⟩ := Option.bind_eq_some_iff.mp within
    have parsed := deref_parsed.mpr (cJSONParse_buffer text decodes clean)
    rw [if_neg (Nat.not_le.mpr long), if_pos long, getRequest, if_pos long,
      performed]
    simp only [bind, Option.bind_some, if_pos ok]
    rw [Registration.serverIn_eq, parsed, Option.bind_some,
      Registration.children_array, Registration.served_strings few]
  · rw [if_pos (Nat.not_lt.mp long), if_neg long]
    rfl

/-- The loop posts the same text until an id is not 0. -/
theorem registerApplication_eq {sinkHttpUri server : Block}
    (noNul : (0 : UInt8) ∉ server) {name : ServiceName}
    (fits : PostFits server name.text) {replies : List Reply} {ids : List Int}
    (answers : List.Forall₂
      (Answers toInt (registration server name.text).url) replies ids)
    (before : Nat) :
    registerApplication toInt slogger sinkHttpUri server name.text
        (List.replicate before (registration server name.text)) replies =
      some (match ids.dropWhile (· = 0) with
      | [] => .waiting sinkHttpUri
          (List.replicate (before + ids.length + 1)
            (registration server name.text))
      | id :: _ => .registered sinkHttpUri
          (List.replicate (before + (ids.takeWhile (· = 0)).length + 1)
            (registration server name.text))
          id) := by
  have posted := fun i => applicationPost_eq slogger i noNul name
  simp only [if_pos fits] at posted
  have length := Registration.length_registration_url server name.text
  have long : 5 < (registration server name.text).url.length := by omega
  have short : (registration server name.text).url.length < 64 := by
    rw [length]
    exact fits.urlFits
  have path : (0 : UInt8) ∉ skRegisterApplicationPath := by decide
  have url_noNul : (0 : UInt8) ∉ (registration server name.text).url := by
    simp [registration, noNul, path]
  induction answers generalizing before with
  | nil =>
      rw [registerApplication, posted, Option.bind_eq_bind, Option.bind_some,
        ← List.replicate_succ']
      rfl
  | @cons reply id replies ids answer _ induction =>
      have read := @Answers.read toInt slogger _ _ _ answer before long short
        url_noNul
      obtain ⟨response, got, id_eq⟩ := Option.bind_eq_some_iff.mp read
      rw [registerApplication, posted, List.length_replicate]
      simp only [bind, Option.bind_some, got, id_eq, ← List.replicate_succ']
      by_cases zero : id = 0
      · rw [if_pos zero, induction (before + 1),
          List.dropWhile_cons_of_pos (by simpa using zero),
          List.takeWhile_cons_of_pos (by simpa using zero)]
        simp only [List.length_cons, Nat.add_assoc, Nat.add_comm 1]
      · rw [if_neg zero, List.dropWhile_cons_of_neg (by simpa using zero),
          List.takeWhile_cons_of_neg (by simpa using zero)]
        rfl

theorem serverUrl_eq (settings : Settings) :
    ((Block.store 0 (settings.sinkHttpUri ++ [0])
        (List.replicate 64 0)).bind Block.cString) =
      if settings.sinkHttpUri.length < 64 then some settings.sinkHttpUri
      else none := by
  have size : (settings.sinkHttpUri ++ [0]).length =
      settings.sinkHttpUri.length + 1 := List.length_append
  by_cases room : settings.sinkHttpUri.length < 64
  · rw [Block.store_eq_some (by rw [size, List.length_replicate]; omega),
      Option.bind_some, if_pos room]
    refine Block.cString_eq_some_iff.mpr ⟨settings.noNul, ?_⟩
    rw [List.take_zero, List.nil_append]
    exact List.prefix_append _ _
  · rw [Block.store, if_neg (by rw [size, List.length_replicate]; omega),
      if_neg room]
    rfl

theorem keptName_noNul (first : Block) (others : Nat) :
    (0 : UInt8) ∉ Registration.keptName first others :=
  Block.notMem_takeWhile 0 _

theorem registerApplication_none {sinkHttpUri server name : Block}
    (outside : ∀ i, applicationPost slogger i server name = none)
    (posts : List Post) (replies : List Reply) :
    registerApplication toInt slogger sinkHttpUri server name posts replies =
      none := by
  cases replies with
  | nil =>
      rw [registerApplication, outside]
      rfl
  | cons reply replies =>
      rw [registerApplication, outside]
      rfl

/-- What is done once a server is chosen. -/
theorem register_eq (settings : Settings) {server : Block}
    (noNul : (0 : UInt8) ∉ server) {replies : List Reply} {ids : List Int}
    (answers : List.Forall₂ (Answers toInt
      (registration server settings.serviceName.text).url) replies ids) :
    registerApplication toInt slogger (server ++ skSegments) server
        settings.serviceName.text [] replies =
      if PostFits server settings.serviceName.text then
        some (progress (server ++ skSegments)
          (registration server settings.serviceName.text) ids)
      else none := by
  by_cases fits : PostFits server settings.serviceName.text
  · rw [if_pos fits]
    refine (registerApplication_eq noNul fits answers 0).trans ?_
    rw [progress, Nat.zero_add, Nat.zero_add]
  · rw [if_neg fits]
    exact registerApplication_none (fun i =>
      (applicationPost_eq slogger i noNul _).trans (if_neg fits)) [] replies

/-- A collector that answers in JSON, with names of servers and then with ids,
is asked for its servers once and for an id until it has given one that is not
0, with the same post to one server, as long as the buffers have room and the
lines about it are printable.  Else the start leaves its memory. -/
theorem moSpanPreInitCtor_eq (settings : Settings) (behind : Nat → Memory)
    {stack : Memory} {text : Block} {reply : Reply} {first : Block}
    {others : List Block} (arrives : Arrives (responseBuffer stack) reply text)
    (decodes : Json.Decodes text (.array ((first :: others).map .string)))
    (clean : (Json.array ((first :: others).map .string)).NulFree)
    (few : others.length < serversSize) {server : Block}
    (kept : server = Registration.keptName first others.length)
    {replies : List Reply} {ids : List Int}
    (answers : List.Forall₂ (Answers toInt
      (registration server settings.serviceName.text).url) replies ids) :
    moSpanPreInitCtor toInt slogger settings behind stack reply replies =
      if Fits settings server then
        some (progress (server ++ skSegments)
          (registration server settings.serviceName.text) ids)
      else none := by
  have noNul : (0 : UInt8) ∉ server := kept ▸ keptName_noNul first _
  have served := fun url => @skGetServer_of_arrives behind stack url _ _ _ _
    arrives decodes clean few
  rw [← kept] at served
  simp only [moSpanPreInitCtor, bind]
  rw [← Option.bind_assoc, serverUrl_eq]
  by_cases copied : settings.sinkHttpUri.length < 64
  · rw [if_pos copied, Option.bind_some, served]
    by_cases room : server.length + 8 ≤ settings.sinkHttpUri.length
    · rw [if_pos (by omega), Option.bind_some]
      dsimp only
      rw [← Option.bind_assoc, sink_eq noNul, if_pos room, Option.bind_some,
        register_eq settings noNul answers]
      by_cases posts : PostFits server settings.serviceName.text
      · rw [if_pos posts, if_pos ⟨copied, room, posts⟩]
      · have unfit : ¬ Fits settings server := fun fits => posts fits.post
        rw [if_neg posts, if_neg unfit]
    · have unfit : ¬ Fits settings server := fun fits => room fits.sink
      rw [if_neg unfit]
      by_cases long : 5 < settings.sinkHttpUri.length
      · rw [if_pos long, Option.bind_some]
        dsimp only
        rw [← Option.bind_assoc, sink_eq noNul, if_neg room]
        rfl
      · rw [if_neg long]
        rfl
  · have unfit : ¬ Fits settings server := fun fits => copied fits.copied
    rw [if_neg copied, if_neg unfit]
    rfl

end Replies

def phpSettings : Settings where
  sinkHttpUri := Block.ofString "http://10.0.0.1:8080/agent/jetty"
  serviceName := .phpService
  noNul := by decide

def collectorName : Block := Registration.collector

def namesText : Block :=
  Block.ofString "[\"" ++ collectorName ++ Block.ofString "\"]"

def idText : Block := Block.ofString "[\x7b\"i\":7\x7d]"

def decimalInt (text : Block) : Int :=
  text.foldl (fun value digit => 10 * value + (digit.toNat - 48 : Nat)) 0

theorem idText_decodes :
    Json.Decodes idText (.array [.object [([105], .number [55])]]) := by
  have none : Json.Blank [] := by simp [Json.Blank]
  have name : Json.Chars [105] [105] :=
    .plain (by decide) (by decide) (by decide) .nil
  have seven : Json.Number ([] ++ ([55] ++ ([] ++ []))) :=
    .mk (.inl rfl) ⟨by decide, Block.forall_of_all rfl⟩ (.inr (by decide))
      (.inl rfl) (.inl rfl)
  have member := Json.Members.last none name none none (.number seven) none
  have items := Json.Elements.last none (.object member) none
  exact ⟨[], idText, [], rfl, none, .array items, none⟩

/-- The first request for an id fails. -/
theorem phpSettings_registered :
    moSpanPreInitCtor decimalInt Registration.slogger phpSettings
        (fun _ _ => 0) (fun _ => 0) ⟨[namesText], curleOk⟩
        [⟨[], 7⟩, ⟨[idText], curleOk⟩] =
      some (.registered (Block.ofString "10.0.0.1:9/segments")
        (List.replicate 2
          ⟨Block.ofString "10.0.0.1:9/application/register",
            Block.ofString "[php_service_01]"⟩) 7) := by
  have plain : ∀ byte ∈ collectorName, 32 ≤ byte ∧ byte ≠ 34 ∧ byte ≠ 92 :=
    Block.forall_of_all rfl
  have names :
      Arrives (responseBuffer fun _ => 0) ⟨[namesText], curleOk⟩ namesText :=
    ⟨rfl, by decide +kernel⟩
  have id : Arrives applicationBuffer ⟨[idText], curleOk⟩ idText :=
    ⟨rfl, by decide +kernel⟩
  have first : Answers decimalInt
      (registration collectorName phpSettings.serviceName.text).url
      ⟨[], 7⟩ 0 :=
    @Answers.failed decimalInt _ ⟨[], 7⟩ [] (by decide) rfl (by decide +kernel)
  have second : Answers decimalInt
      (registration collectorName phpSettings.serviceName.text).url
      ⟨[idText], curleOk⟩ (decimalInt [55]) :=
    .json id idText_decodes
      (by simp [Json.NulFree, Json.NulFreeItems, Json.NulFreeMembers]) rfl
      (by decide +kernel)
  have decodes : Json.Decodes namesText
      (.array ((collectorName :: []).map .string)) :=
    ServiceName.decodes_quoted plain
  have noNul : (0 : UInt8) ∉ collectorName := by decide
  refine (moSpanPreInitCtor_eq phpSettings _ names decodes ⟨noNul, trivial⟩
    (by decide) rfl (.cons first (.cons second .nil))).trans ?_
  rw [if_pos (by decide +kernel)]
  rfl

end Molten.Collector.StartUp
