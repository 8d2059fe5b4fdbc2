import Molten.Collector.LoadBalance
import Molten.Collector.Response
import Molten.Collector.ServiceName
import Molten.Log.SelfLog

namespace Molten.Collector

open Molten.Log Molten.Text
open SelfLog (Printable Slogger)

/-! The requests by which a worker looks for its collector and registers, with
the buffers on the stack and the lines that are logged on the way. -/

/-- What comes back of a request, in its chunks, and its `CURLcode`. -/
structure Reply where
  chunks : List Block
  code : Fin 256

/-- `CURLE_OK` -/
def curleOk : Fin 256 := 0

structure Post where
  url : Block
  data : Block

/-- `strcat(strcat(dest, server), path)` -/
def address (dest server path : Block) : Option Block := do
  let dest ← Block.strcat dest (server ++ [0])
  let dest ← Block.strcat dest (path ++ [0])
  Block.cString dest

/-- `char response[256]`, which is not initialised. -/
def responseBuffer (stack : Memory) : Block := memcpy 256 stack

/-- `char register_application_response[128] = ""` -/
def applicationBuffer : Block := List.replicate 128 0

/-- The request of `sk_get_server`, with the response if there is one.  A url of
five bytes or less gives no code back. -/
def requestServers (stack : Memory) (url : Block) (reply : Reply) :
    Option (Option Block) :=
  if url.length ≤ 5 then none
  else do
    let response ← getRequest (some url) reply.chunks (responseBuffer stack)
    some (if reply.code = curleOk then some response else none)

def skRegisterApplicationPath : Block := Block.ofString "application/register"

def serviceFormat : Block :=
  Block.ofString "molten register service, url:[%s], application name:[%s]"

def errorFormat : Block :=
  Block.ofString
    "molten register service has error ret code [%d] response [%s]"

def resultFormat : Block :=
  Block.ofString "molten register application [%s] result [%s]"

/-- `sk_register_application`, up to its request. -/
def applicationPost (slogger : Slogger) (i : Nat) (serverUrl name : Block) :
    Option Post := do
  let url ← address (List.replicate 64 0) serverUrl skRegisterApplicationPath
  let data ← postData (name ++ [0])
  slogger.slog i 1 959 serviceFormat [.string url, .string name]
  some ⟨url, data⟩

/-- The request, with the response if there is one. -/
def requestApplication (slogger : Slogger) (i : Nat) (post : Post)
    (reply : Reply) : Option (Option Block) := do
  let response ← postRequest (some post.url) post.data reply.chunks
    applicationBuffer
  let text ← Block.cString response
  if reply.code = curleOk then
    slogger.slog i 1 966 resultFormat [.string post.url, .string text]
    some (some response)
  else
    slogger.slog i 3 963 errorFormat [.int reply.code, .string text]
    some none

/-! The lines. -/

def serviceLine (url name : Block) : Block :=
  Block.ofString "molten register service, url:[" ++ (url ++
    (Block.ofString "], application name:[" ++ (name ++ Block.ofString "]")))

def errorLine (code : Nat) (response : Block) : Block :=
  Block.ofString "molten register service has error ret code [" ++
    (Format.decimal code ++
      (Block.ofString "] response [" ++ (response ++ Block.ofString "]")))

def resultLine (url response : Block) : Block :=
  Block.ofString "molten register application [" ++ (url ++
    (Block.ofString "] result [" ++ (response ++ Block.ofString "]")))

theorem format_service (url name : Block) :
    Format.format none serviceFormat [.string url, .string name] =
      some (serviceLine url name) := by
  have spelled : serviceFormat =
      Block.ofString "molten register service, url:[" ++ (37 :: 115 ::
        (Block.ofString "], application name:[" ++ (37 :: 115 ::
          Block.ofString "]"))) := by decide +kernel
  rw [spelled, Format.format_string (by decide),
    Format.format_string (by decide), Format.format_plain (by decide)]
  rfl

theorem format_error (code : Nat) (response : Block) :
    Format.format none errorFormat [.int code, .string response] =
      some (errorLine code response) := by
  have spelled : errorFormat =
      Block.ofString "molten register service has error ret code [" ++
        (37 :: 100 :: (Block.ofString "] response [" ++ (37 :: 115 ::
          Block.ofString "]"))) := by decide +kernel
  rw [spelled, Format.format_int (by decide), Format.format_string (by decide),
    Format.format_plain (by decide)]
  rfl

theorem format_result (url response : Block) :
    Format.format none resultFormat [.string url, .string response] =
      some (resultLine url response) := by
  have spelled : resultFormat =
      Block.ofString "molten register application [" ++ (37 :: 115 ::
        (Block.ofString "] result [" ++ (37 :: 115 ::
          Block.ofString "]"))) := by decide +kernel
  rw [spelled, Format.format_string (by decide),
    Format.format_string (by decide), Format.format_plain (by decide)]
  rfl

theorem length_decimal_code (code : Fin 256) :
    (Format.decimal code).length ≤ 3 := by
  revert code
  decide +kernel

section Logged

variable (slogger : Slogger) (i : Nat) {url name response : Block}

theorem slog_service (url_noNul : (0 : UInt8) ∉ url)
    (name_noNul : (0 : UInt8) ∉ name)
    (short : url.length + name.length < 900) :
    slogger.slog i 1 959 serviceFormat [.string url, .string name] =
      if Printable (serviceLine url name) then some () else none := by
  refine slogger.slog_eq (by decide) rfl (format_service url name) ?_ ?_
  · have starts : (0 : UInt8) ∉
        Block.ofString "molten register service, url:[" := by decide
    have named : (0 : UInt8) ∉ Block.ofString "], application name:[" := by
      decide
    have ends : (0 : UInt8) ∉ Block.ofString "]" := by decide
    simp [serviceLine, starts, named, ends, url_noNul, name_noNul]
  · have line : (Format.decimal 959).length = 3 := by decide
    have starts : (Block.ofString
        "molten register service, url:[").length = 30 := by decide
    have named : (Block.ofString "], application name:[").length = 21 := by
      decide
    have ends : (Block.ofString "]").length = 1 := by decide
    simp only [serviceLine, List.length_append, line, starts, named, ends]
    omega

theorem slog_error (code : Fin 256) (response_noNul : (0 : UInt8) ∉ response)
    (short : response.length < 900) :
    slogger.slog i 3 963 errorFormat [.int code, .string response] =
      if Printable (errorLine code response) then some () else none := by
  refine slogger.slog_eq (by decide) rfl (format_error code response) ?_ ?_
  · have starts : (0 : UInt8) ∉ Block.ofString
        "molten register service has error ret code [" := by decide
    have digits := @Format.notMem_decimal 0 (by decide) code
    have middle : (0 : UInt8) ∉ Block.ofString "] response [" := by decide
    have ends : (0 : UInt8) ∉ Block.ofString "]" := by decide
    simp [errorLine, starts, digits, middle, ends, response_noNul]
  · have line : (Format.decimal 963).length = 3 := by decide
    have starts : (Block.ofString
        "molten register service has error ret code [").length = 44 := by
      decide
    have digits := length_decimal_code code
    have middle : (Block.ofString "] response [").length = 12 := by decide
    have ends : (Block.ofString "]").length = 1 := by decide
    simp only [errorLine, List.length_append, line, starts, middle, ends]
    omega

theorem slog_result (url_noNul : (0 : UInt8) ∉ url)
    (response_noNul : (0 : UInt8) ∉ response)
    (short : url.length + response.length < 900) :
    slogger.slog i 1 966 resultFormat [.string url, .string response] =
      if Printable (resultLine url response) then some () else none := by
  refine slogger.slog_eq (by decide) rfl (format_result url response) ?_ ?_
  · have starts : (0 : UInt8) ∉
        Block.ofString "molten register application [" := by decide
    have middle : (0 : UInt8) ∉ Block.ofString "] result [" := by decide
    have ends : (0 : UInt8) ∉ Block.ofString "]" := by decide
    simp [resultLine, starts, middle, ends, url_noNul, response_noNul]
  · have line : (Format.decimal 966).length = 3 := by decide
    have starts : (Block.ofString
        "molten register application [").length = 29 := by decide
    have middle : (Block.ofString "] result [").length = 10 := by decide
    have ends : (Block.ofString "]").length = 1 := by decide
    simp only [resultLine, List.length_append, line, starts, middle, ends]
    omega

end Logged

/-! The texts that are built. -/

theorem cString_literal {text : Block} (noNul : (0 : UInt8) ∉ text) :
    Block.cString (text ++ [0]) = some text :=
  Block.cString_eq_some_iff.mpr ⟨noNul, List.prefix_rfl⟩

theorem address_eq {dest server path : Block}
    (empty : Block.cString dest = some []) (server_noNul : (0 : UInt8) ∉ server)
    (path_noNul : (0 : UInt8) ∉ path) :
    address dest server path =
      if server.length + path.length < dest.length then some (server ++ path)
      else none := by
  have read := cString_literal server_noNul
  have read' := cString_literal path_noNul
  rw [address]
  by_cases room : server.length < dest.length
  · obtain ⟨first, stored, text, length⟩ :=
      Block.strcat_eq_some empty read (by simpa using room)
    rw [List.nil_append] at text
    rw [stored, Option.bind_eq_bind, Option.bind_some]
    by_cases whole : server.length + path.length < dest.length
    · obtain ⟨second, stored', text', -⟩ :=
        Block.strcat_eq_some text read' (by omega)
      rw [stored', Option.bind_some, text', if_pos whole]
    · rw [Block.strcat_eq_none text read' (by omega), if_neg whole]
      rfl
  · rw [Block.strcat_eq_none empty read (by simpa using room),
      if_neg (by omega)]
    rfl

/-- The buffers have room for the url and the name, and the line that shows
them is printable. -/
structure PostFits (server name : Block) : Prop where
  urlFits : server.length + 20 < 64
  nameFits : name.length < 62
  printable : Printable (serviceLine (server ++ skRegisterApplicationPath) name)

instance (server name : Block) : Decidable (PostFits server name) :=
  decidable_of_iff
    (server.length + 20 < 64 ∧ name.length < 62 ∧
      Printable (serviceLine (server ++ skRegisterApplicationPath) name))
    ⟨fun all => ⟨all.1, all.2.1, all.2.2⟩,
      fun fits => ⟨fits.urlFits, fits.nameFits, fits.printable⟩⟩

/-- What a worker posts to register its application. -/
def registration (server name : Block) : Post where
  url := server ++ skRegisterApplicationPath
  data := Block.ofString "[" ++ name ++ Block.ofString "]"

theorem length_skRegisterApplicationPath :
    skRegisterApplicationPath.length = 20 := by decide

theorem applicationPost_eq (slogger : Slogger) (i : Nat) {server : Block}
    (noNul : (0 : UInt8) ∉ server) (name : ServiceName) :
    applicationPost slogger i server name.text =
      if PostFits server name.text then some (registration server name.text)
      else none := by
  have empty : Block.cString (List.replicate 64 0) = some [] := by decide
  have path : (0 : UInt8) ∉ skRegisterApplicationPath := by decide
  have posted := name.posted_eq
  rw [ServiceName.posted] at posted
  rw [applicationPost, address_eq empty noNul path, posted,
    length_skRegisterApplicationPath, List.length_replicate]
  by_cases url : server.length + 20 < 64
  · by_cases short : name.text.length < 62
    · have url_noNul : (0 : UInt8) ∉ server ++ skRegisterApplicationPath := by
        rw [List.mem_append, not_or]
        exact ⟨noNul, path⟩
      have logged := slog_service slogger i url_noNul name.noNul (by
        rw [List.length_append, length_skRegisterApplicationPath]
        omega)
      by_cases line : Printable
          (serviceLine (server ++ skRegisterApplicationPath) name.text)
      · have fits : PostFits server name.text := ⟨url, short, line⟩
        rw [if_pos line] at logged
        rw [if_pos fits]
        simp [url, short, logged, registration]
      · have unfit : ¬ PostFits server name.text := fun fits =>
          line fits.printable
        rw [if_neg line] at logged
        rw [if_neg unfit]
        simp [url, short, logged]
    · have unfit : ¬ PostFits server name.text := fun fits =>
        short fits.nameFits
      rw [if_neg unfit]
      simp [url, short]
  · have unfit : ¬ PostFits server name.text := fun fits => url fits.urlFits
    rw [if_neg unfit]
    simp [url]

/-! The responses. -/

theorem length_responseBuffer (stack : Memory) :
    (responseBuffer stack).length = 256 := by
  rw [responseBuffer, memcpy, List.length_map, List.length_range]

theorem length_applicationBuffer : applicationBuffer.length = 128 :=
  List.length_replicate

theorem length_processData {data content after : Block}
    (stored : processData data content = some after) :
    after.length = content.length := by
  obtain ⟨text, -, stored⟩ := Option.bind_eq_some_iff.mp stored
  exact Block.length_store stored

theorem length_curlEasyPerform {chunks : List Block} {response buffer : Block}
    (performed : curlEasyPerform chunks response = some buffer) :
    buffer.length = response.length := by
  induction chunks generalizing response with
  | nil => rw [Option.some.inj performed]
  | cons data chunks induction =>
      obtain ⟨after, stored, rest⟩ := Option.bind_eq_some_iff.mp performed
      rw [induction rest, length_processData stored]

/-- The line about a reply is printable. -/
def ReplyPrintable (url : Block) (reply : Reply) (text : Block) : Prop :=
  Printable <|
    if reply.code = curleOk then resultLine url text
    else errorLine reply.code text

instance (url : Block) (reply : Reply) (text : Block) :
    Decidable (ReplyPrintable url reply text) :=
  inferInstanceAs (Decidable (Printable _))

theorem requestApplication_eq (slogger : Slogger) (i : Nat) {post : Post}
    {reply : Reply} {buffer text : Block} (long : 5 < post.url.length)
    (short : post.url.length < 64) (noNul : (0 : UInt8) ∉ post.url)
    (performed : curlEasyPerform reply.chunks applicationBuffer = some buffer)
    (read : Block.cString buffer = some text) :
    requestApplication slogger i post reply =
      if ReplyPrintable post.url reply text then
        some (if reply.code = curleOk then some buffer else none)
      else none := by
  have size : buffer.length = 128 :=
    (length_curlEasyPerform performed).trans length_applicationBuffer
  obtain ⟨text_noNul, rest⟩ := Block.cString_eq_some_iff.mp read
  have text_short := rest.length_le
  rw [List.length_append, List.length_singleton, size] at text_short
  rw [requestApplication, postRequest, getRequest, if_pos long, performed,
    Option.bind_eq_bind, Option.bind_some, read, Option.bind_some]
  by_cases ok : reply.code = curleOk
  · have logged := slog_result slogger i noNul text_noNul (by omega)
    simp only [ReplyPrintable, if_pos ok, logged]
    split <;> rfl
  · have logged := slog_error slogger i reply.code text_noNul (by omega)
    simp only [ReplyPrintable, if_neg ok, logged]
    split <;> rfl

theorem requestApplication_eq_none (slogger : Slogger) (i : Nat) {post : Post}
    {reply : Reply} (long : 5 < post.url.length)
    (outside : (curlEasyPerform reply.chunks applicationBuffer).bind
      Block.cString = none) :
    requestApplication slogger i post reply = none := by
  rw [requestApplication, postRequest, getRequest, if_pos long]
  cases performed : curlEasyPerform reply.chunks applicationBuffer with
  | none => rfl
  | some buffer =>
      rw [performed, Option.bind_some] at outside
      rw [Option.bind_eq_bind, Option.bind_some, outside]
      rfl

end Molten.Collector
