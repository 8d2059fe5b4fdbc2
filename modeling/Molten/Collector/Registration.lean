import Molten.Collector.CJson
import Molten.Collector.Requests
import Molten.Collector.Server

namespace Molten.Collector

open Molten.Log Molten.Text CJson
open SelfLog (Printable Slogger)

/-! What becomes of the responses of the collector.  `none` is behaviour that is
not defined. -/

variable {n : Nat}

/-! The names of servers in memory. -/

def intBytes (value : Int) : Bytes :=
  let value := (value % 4294967296).toNat
  [UInt8.ofNat value, UInt8.ofNat (value / 256), UInt8.ofNat (value / 65536),
   UInt8.ofNat (value / 16777216)]

def Server.bytes (server : Server) : Bytes :=
  intBytes server.weight ++ (intBytes server.curWeight ++ server.name)

/-- The text from a name on.  Behind the servers is one more, of zeros. -/
def textFrom (servers : Fin n → Server) (i : Fin n) : Bytes :=
  ((servers i).name ++
    (((List.ofFn servers).drop (i + 1)).flatMap Server.bytes ++
      List.replicate 40 0)).takeWhile (· != 0)

namespace Registration

/-- `sk_get_server`, from `initDefaultServers` on, with some memory behind every
string.  There `memcpy` reads each of them, which may be `NULL`. -/
def chooseServer (behind : Nat → Memory) (servers : Fin n → Option Block) :
    Option (Option Bytes) :=
  if ∀ i, (servers i).isSome then do
    let choice ← getNextServerIndex (initDefaultServers fun i =>
      stringAt ((servers i).getD []) (behind i))
    let index ← entry n choice.index
    some (some (textFrom choice.servers index))
  else none

/-- `sk_get_server`, from the response on, which is missing when the request
fails. -/
def serverIn (behind : Nat → Memory) (response : Option Block) :
    Option (Option Bytes) :=
  match response with
  | none => some none
  | some response => do
      let pJSON ← parsed response
      let size ← cJSONGetArraySize pJSON
      if size = 0 then some none
      else if serversSize < size then none
      else
        chooseServer behind fun i : Fin size =>
          ((cJSONGetArrayItem pJSON i).bind Pointer.deref).bind valuestring

def skGetServer (behind : Nat → Memory) (stack : Memory) (url : Block)
    (reply : Reply) : Option (Option Bytes) := do
  let response ← requestServers stack url reply
  serverIn behind response

section ToInt

variable (toInt : Block → Int)

/-- `sk_register_application`, from the response on. -/
def applicationIn (response : Option Block) : Option Int :=
  match response with
  | none => some 0
  | some response => do
      let pRegisterJSON ← parsed response
      let applicationJson ← cJSONGetArrayItem pRegisterJSON 0
      let applicationIdJson ←
        cJSONGetObjectItem applicationJson (Block.ofString "i")
      let applicationId ← applicationIdJson.deref
      some (valueint toInt applicationId)

/-- At the given turn of the loop that calls it. -/
def skRegisterApplication (slogger : Slogger) (i : Nat)
    (serverUrl name : Block) (reply : Reply) : Option Int := do
  let post ← applicationPost slogger i serverUrl name
  let response ← requestApplication slogger i post reply
  applicationIn toInt response

def getInstanceId (responseData : Block) : Option Int := do
  let pRegisterJSON ← parsed responseData
  let instanceIdJson ← cJSONGetObjectItem pRegisterJSON (Block.ofString "ii")
  let instanceIdJson := instanceIdJson.afterDelete
  let instanceId ← instanceIdJson.deref
  some (valueint toInt instanceId)

/-! What they are to return. -/

def applicationField (root : Json) : Option Json := do
  let first ← (children root).head?
  field first.2 (Block.ofString "i")

/-- A response whose body comes in one piece. -/
def answer (body : Block) : Reply := ⟨[body], curleOk⟩

/-- A name of the array, or `NULL`. -/
def ReturnsServer (behind : Nat → Memory) (stack : Memory)
    (url body : Block) : Prop :=
  ∃ server, skGetServer behind stack url (answer body) = some server ∧
    ∀ name ∈ server, ∃ response items,
      processData body (responseBuffer stack) = some response ∧
        cJSONParse response = .ok (.array items) ∧ .string name ∈ items

/-- The number of the field, or 0. -/
def ReturnsApplication (slogger : Slogger) (i : Nat)
    (serverUrl name body : Block) : Prop :=
  ∃ id, skRegisterApplication toInt slogger i serverUrl name (answer body) =
      some id ∧
    (id ≠ 0 → ∃ response root text,
      processData body applicationBuffer = some response ∧
        cJSONParse response = .ok root ∧
        applicationField root = some (.number text) ∧ id = toInt text)

def ReturnsInstance (response : Block) : Prop :=
  ∃ id, getInstanceId toInt response = some id ∧
    (id ≠ 0 → ∃ root text, cJSONParse response = .ok root ∧
      field root (Block.ofString "ii") = some (.number text) ∧ id = toInt text)

end ToInt

/-! When they do. -/

/-- What is left of the first name: its first 32 bytes, with the weight of the
next server behind them if they have no NUL. -/
def keptName (first : Block) (others : Nat) : Block :=
  ((first ++ [0]).take serverNameLen ++
    if others = 0 then [0] else [50, 0]).takeWhile (· != 0)

/-- Nothing is in the tree, or some strings that are not too many and of which
one is what is left of the first. -/
def ServerTree (root : Json) : Prop :=
  children root = [] ∨ ∃ first others,
    root = .array ((first :: others).map .string) ∧
      others.length < serversSize ∧
      keptName first others.length ∈ first :: others

/-- The field is there, and it is not `true`. -/
def ApplicationTree (root : Json) : Prop :=
  ∃ field, applicationField root = some field ∧ field ≠ .bool true

theorem applicationIn_eq (toInt : Block → Int) (response : Block) :
    applicationIn toInt (some response) =
      ((parsed response).bind Pointer.deref).bind fun root =>
        (applicationField root).map (valueint toInt) := by
  rw [applicationIn]
  cases parsed response with
  | none => rfl
  | some pointer =>
      cases pointer with
      | null => rfl
      | freed => rfl
      | node root =>
          change _ = (applicationField root).map (valueint toInt)
          rw [applicationField, List.head?_eq_getElem?]
          cases first : (children root)[0]? with
          | none =>
              simp [cJSONGetArrayItem, cJSONGetObjectItem, first]
          | some child =>
              cases found : field child.2 (Block.ofString "i") with
              | none =>
                  simp [cJSONGetArrayItem, cJSONGetObjectItem, first,
                    found]
              | some value =>
                  simp [cJSONGetArrayItem, cJSONGetObjectItem, first,
                    found]

theorem getInstanceId_eq_none (toInt : Block → Int) (response : Block) :
    getInstanceId toInt response = none := by
  rw [getInstanceId]
  cases parsed response with
  | none => rfl
  | some pointer => simp

/-- What is left of the response is the field. -/
theorem applicationIn_number_iff (toInt : Block → Int) (response : Block) :
    (∃ id, applicationIn toInt (some response) = some id ∧
        (id ≠ 0 → ∃ root text, cJSONParse response = .ok root ∧
          applicationField root = some (.number text) ∧ id = toInt text)) ↔
      ∃ root, cJSONParse response = .ok root ∧ ApplicationTree root := by
  rw [applicationIn_eq]
  constructor
  · intro returns
    obtain ⟨id, returned, number⟩ := returns
    obtain ⟨root, tree, returned⟩ := Option.bind_eq_some_iff.mp returned
    obtain ⟨value, found, rfl⟩ := Option.map_eq_some_iff.mp returned
    refine ⟨root, deref_parsed.mp tree, value, found, ?_⟩
    rintro rfl
    obtain ⟨other, text, done, field, -⟩ := number (by rw [valueint]; decide)
    rw [deref_parsed.mp tree] at done
    cases done
    rw [found] at field
    cases field
  · intro parses
    obtain ⟨root, done, value, found, differs⟩ := parses
    refine ⟨valueint toInt value, ?_, ?_⟩
    · rw [deref_parsed.mpr done, Option.bind_some, found, Option.map_some]
    · intro nonzero
      cases value with
      | number text => exact ⟨root, text, done, found, rfl⟩
      | bool value =>
          cases value with
          | true => exact absurd rfl differs
          | false => exact absurd rfl nonzero
      | null => exact absurd rfl nonzero
      | string text => exact absurd rfl nonzero
      | array items => exact absurd rfl nonzero
      | object members => exact absurd rfl nonzero

theorem curlEasyPerform_body (body buffer : Block) :
    curlEasyPerform (answer body).chunks buffer = processData body buffer := by
  cases stored : processData body buffer with
  | none => simp [answer, curlEasyPerform, stored]
  | some response => simp [answer, curlEasyPerform, stored]

theorem length_registration_url (serverUrl name : Block) :
    (registration serverUrl name).url.length = serverUrl.length + 20 := by
  rw [registration, List.length_append, length_skRegisterApplicationPath]

/-- Once a response is in the buffer, the lines and the tree decide. -/
theorem skRegisterApplication_eq (toInt : Block → Int) (slogger : Slogger)
    (i : Nat) {serverUrl : Block} (noNul : (0 : UInt8) ∉ serverUrl)
    (name : ServiceName) (body : Block) :
    skRegisterApplication toInt slogger i serverUrl name.text (answer body) =
      if PostFits serverUrl name.text then
        (processData body applicationBuffer).bind fun response =>
          (Block.cString response).bind fun text =>
            if Printable
                (resultLine (serverUrl ++ skRegisterApplicationPath) text) then
              applicationIn toInt (some response)
            else none
      else none := by
  rw [skRegisterApplication, applicationPost_eq slogger i noNul]
  by_cases fits : PostFits serverUrl name.text
  · have length := length_registration_url serverUrl name.text
    have long : 5 < (registration serverUrl name.text).url.length := by omega
    have short : (registration serverUrl name.text).url.length < 64 := by
      rw [length]
      exact fits.urlFits
    have path : (0 : UInt8) ∉ skRegisterApplicationPath := by decide
    have url_noNul : (0 : UInt8) ∉ (registration serverUrl name.text).url := by
      simp [registration, noNul, path]
    rw [if_pos fits, if_pos fits, Option.bind_eq_bind, Option.bind_some]
    cases stored : processData body applicationBuffer with
    | none =>
        rw [requestApplication_eq_none slogger i long (by
          rw [curlEasyPerform_body, stored]
          rfl)]
        rfl
    | some response =>
        rw [Option.bind_some]
        cases read : Block.cString response with
        | none =>
            rw [requestApplication_eq_none slogger i long (by
              rw [curlEasyPerform_body, stored, Option.bind_some, read])]
            rfl
        | some text =>
            rw [requestApplication_eq slogger i long short url_noNul
              ((curlEasyPerform_body _ _).trans stored) read, Option.bind_some]
            have line : ReplyPrintable (registration serverUrl name.text).url
                (answer body) text ↔ Printable
                  (resultLine (serverUrl ++ skRegisterApplicationPath) text) :=
              Iff.rfl
            by_cases printable : Printable
                (resultLine (serverUrl ++ skRegisterApplicationPath) text)
            · rw [if_pos (line.mpr printable), if_pos printable]
              rfl
            · rw [if_neg fun other => printable (line.mp other),
                if_neg printable]
              rfl
  · rw [if_neg fits, if_neg fits]
    rfl

/-- There is room for the request and for the response with its NUL, the lines
that show them are printable, and the tree suits. -/
def ApplicationReply (serverUrl name body : Block) : Prop :=
  PostFits serverUrl name ∧ ∃ response text root,
    processData body applicationBuffer = some response ∧
      Block.cString response = some text ∧
      Printable (resultLine (serverUrl ++ skRegisterApplicationPath) text) ∧
      cJSONParse response = .ok root ∧ ApplicationTree root

theorem returnsApplication_iff (toInt : Block → Int) (slogger : Slogger)
    (i : Nat) {serverUrl : Block} (noNul : (0 : UInt8) ∉ serverUrl)
    (name : ServiceName) (body : Block) :
    ReturnsApplication toInt slogger i serverUrl name.text body ↔
      ApplicationReply serverUrl name.text body := by
  rw [ReturnsApplication, skRegisterApplication_eq toInt slogger i noNul]
  constructor
  · intro returns
    obtain ⟨id, returned, number⟩ := returns
    obtain ⟨fits, returned⟩ := Option.ite_none_right_eq_some.mp returned
    obtain ⟨response, stored, returned⟩ := Option.bind_eq_some_iff.mp returned
    obtain ⟨text, read, returned⟩ := Option.bind_eq_some_iff.mp returned
    obtain ⟨printable, returned⟩ := Option.ite_none_right_eq_some.mp returned
    obtain ⟨root, done, tree⟩ :=
      (applicationIn_number_iff toInt response).mp ⟨id, returned, by
        intro nonzero
        obtain ⟨other, root, text, same, done, field, value⟩ := number nonzero
        obtain rfl := Option.some.inj (stored.symm.trans same)
        exact ⟨root, text, done, field, value⟩⟩
    exact ⟨fits, response, text, root, stored, read, printable, done, tree⟩
  · intro suits
    obtain ⟨fits, response, text, root, stored, read, printable, done, tree⟩ :=
      suits
    obtain ⟨id, returned, number⟩ :=
      (applicationIn_number_iff toInt response).mpr ⟨root, done, tree⟩
    refine ⟨id, ?_, fun nonzero => ?_⟩
    · rw [if_pos fits, stored, Option.bind_some, read, Option.bind_some,
        if_pos printable, returned]
    · obtain ⟨root, text, done, field, value⟩ := number nonzero
      exact ⟨response, root, text, stored, done, field, value⟩

/-! The server that is chosen. -/

theorem memcpy_stringAt (text : Block) (behind : Memory) :
    ∃ more, memcpy serverNameLen (stringAt text behind) =
        (text ++ [0]).take serverNameLen ++ more ∧
      (serverNameLen ≤ text.length → more = []) := by
  have bytes := Memory.map_range_store 0 (text ++ [0]) behind
  rw [Nat.zero_add, List.range_zero, List.map_nil, List.nil_append] at bytes
  rcases Nat.le_total serverNameLen (text ++ [0]).length with long | short
  · refine ⟨[], ?_, fun _ => rfl⟩
    rw [← bytes, ← List.map_take, List.take_range, Nat.min_eq_left long,
      List.append_nil]
    rfl
  · obtain ⟨rest, length⟩ := Nat.exists_eq_add_of_le short
    refine ⟨((List.range rest).map ((text ++ [0]).length + ·)).map
      (stringAt text behind), ?_, fun long => ?_⟩
    · rw [List.take_of_length_le short, memcpy, length, List.range_add,
        List.map_append, stringAt, bytes]
    · rw [List.length_append, List.length_singleton] at short
      omega

theorem zero_mem_take {text : Block} (short : text.length < serverNameLen) :
    (0 : UInt8) ∈ (text ++ [0]).take serverNameLen := by
  rw [List.take_of_length_le (by simpa [Nat.succ_le_iff] using short)]
  simp

theorem takeWhile_memcpy (text : Block) (behind : Memory) (tail : Block) :
    (memcpy serverNameLen (stringAt text behind) ++ tail).takeWhile (· != 0) =
      ((text ++ [0]).take serverNameLen ++ tail).takeWhile (· != 0) := by
  obtain ⟨more, bytes, long⟩ := memcpy_stringAt text behind
  rw [bytes]
  rcases Nat.lt_or_ge text.length serverNameLen with short | enough
  · have nul := zero_mem_take short
    rw [List.append_assoc, Block.takeWhile_append_of_mem nul,
      Block.takeWhile_append_of_mem nul]
  · rw [long enough, List.append_nil]

theorem takeWhile_textFrom {m : Nat} (servers : Fin (m + 1) → Server)
    (weights : ∀ i, (servers i).weight = defaultWeight) :
    textFrom servers 0 = ((servers 0).name ++
      if m = 0 then [0] else [50, 0]).takeWhile (· != 0) := by
  refine Block.takeWhile_append_congr _ ?_
  cases m with
  | zero => simp
  | succ m =>
      have low : intBytes defaultWeight = [50, 0, 0, 0] := by decide
      simp [List.ofFn_succ, Server.bytes, weights, low]

/-- What a list of nodes leads to. -/
def served (nodes : List Json) : Option (Option Bytes) :=
  if nodes.length = 0 then some none
  else if serversSize < nodes.length then none
  else
    match nodes.mapM valuestring with
    | some (first :: others) => some (some (keptName first others.length))
    | _ => none

theorem chooseServer_eq (behind : Nat → Memory) (names : Fin n → Block)
    (positive : 0 < n) (size : n ≤ serversSize) :
    chooseServer behind (fun i => some (names i)) =
      some (some (keptName (names ⟨0, positive⟩) (n - 1))) := by
  obtain ⟨m, rfl⟩ : ∃ m, n = m + 1 := Nat.exists_eq_add_of_lt positive |>.imp
    fun m length => by omega
  obtain ⟨choice, chosen, index⟩ :=
    getNextServerIndex_initDefaultServers
      (fun i => stringAt (names i) (behind i)) positive size
  have first : entry (m + 1) 0 = some 0 := entry_coe (0 : Fin (m + 1))
  have weights : ∀ i, (choice.servers i).weight = defaultWeight :=
    getNextServerIndex_weight chosen
  have name : (choice.servers 0).name =
      memcpy serverNameLen (stringAt (names 0) (behind 0)) :=
    getNextServerIndex_name chosen 0
  have text : textFrom choice.servers 0 = keptName (names 0) m := by
    rw [takeWhile_textFrom choice.servers weights, name, takeWhile_memcpy]
    rfl
  simp [chooseServer, chosen, index, first, text]

/-- With a first name that is short enough the text ends in its 32 bytes. -/
theorem chooseServer_eq_skGetServer (behind : Nat → Memory)
    (names : Fin n → Block) (positive : 0 < n) (size : n ≤ serversSize)
    (short : (names ⟨0, positive⟩).length < serverNameLen) :
    chooseServer behind (fun i => some (names i)) =
      Collector.skGetServer
        (some fun i => stringAt (names i) (behind i)) := by
  obtain ⟨choice, chosen, index⟩ :=
    getNextServerIndex_initDefaultServers
      (fun i => stringAt (names i) (behind i)) positive size
  have first : entry n 0 = some ⟨0, positive⟩ := entry_coe ⟨0, positive⟩
  have text : (choice.servers ⟨0, positive⟩).text =
      keptName (names ⟨0, positive⟩) (n - 1) := by
    have whole := takeWhile_memcpy (names ⟨0, positive⟩) (behind 0) []
    have nul := zero_mem_take short
    rw [List.append_nil, List.append_nil] at whole
    rw [Server.text, getNextServerIndex_name chosen, keptName,
      Block.takeWhile_append_of_mem nul, ← whole]
    rfl
  rw [chooseServer_eq behind names positive size]
  simp [Collector.skGetServer, positive.ne', Nat.not_lt.mpr size, chosen,
    index, first, text]

theorem mapM_valuestring {nodes : List Json} {names : List Block} :
    nodes.mapM valuestring = some names ↔ nodes = names.map .string := by
  induction nodes generalizing names with
  | nil => cases names <;> simp
  | cons node nodes induction =>
      cases node with
      | string text =>
          cases names with
          | nil => simp [valuestring, Option.bind_eq_some_iff]
          | cons name names =>
              simp [valuestring, ← induction, Option.bind_eq_some_iff, and_comm]
      | _ => cases names <;> simp [valuestring]

theorem string_getD_valuestring {node : Json}
    (string : (valuestring node).isSome = true) :
    .string ((valuestring node).getD []) = node := by
  cases node with
  | string text => rfl
  | _ => cases string

theorem exists_mapM_valuestring {nodes : List Json}
    (strings : ∀ node ∈ nodes, (valuestring node).isSome = true) :
    ∃ names, nodes.mapM valuestring = some names := by
  have every : ∀ node ∈ nodes,
      .string ((valuestring node).getD []) = node := by
    intro node member
    exact string_getD_valuestring (strings node member)
  refine ⟨nodes.map fun node => (valuestring node).getD [], ?_⟩
  rw [mapM_valuestring, List.map_map]
  exact ((List.map_congr_left every).trans (List.map_id nodes)).symm

theorem chooseServer_nodes (behind : Nat → Memory) {nodes : List Json}
    {servers : Fin n → Option Block} (length : nodes.length = n)
    (each : ∀ i, servers i = nodes[(i : Nat)]?.bind valuestring)
    (positive : 0 < n) (size : n ≤ serversSize) :
    chooseServer behind servers =
      match nodes.mapM valuestring with
      | some (first :: others) => some (some (keptName first others.length))
      | _ => none := by
  cases done : nodes.mapM valuestring with
  | none =>
      apply if_neg
      intro strings
      have every : ∀ node ∈ nodes, (valuestring node).isSome = true := by
        intro node member
        obtain ⟨i, within, rfl⟩ := List.getElem_of_mem member
        have string := strings ⟨i, length ▸ within⟩
        rwa [each, List.getElem?_eq_getElem within] at string
      obtain ⟨names, texts⟩ := exists_mapM_valuestring every
      rw [texts] at done
      cases done
  | some names =>
      have strings := mapM_valuestring.mp done
      have same : names.length = n := by
        rw [← length, strings, List.length_map]
      have texts : servers = fun i : Fin n =>
          some ((names[(i : Nat)]?).getD []) := by
        funext i
        have within : (i : Nat) < names.length := i.isLt.trans_eq same.symm
        rw [each, strings, List.getElem?_map, List.getElem?_eq_getElem within]
        rfl
      rw [texts, chooseServer_eq behind _ positive size]
      cases names with
      | nil =>
          rw [List.length_nil] at same
          omega
      | cons first others =>
          have rest : n - 1 = others.length := by
            rw [← same, List.length_cons, Nat.add_sub_cancel]
          rw [rest]
          rfl

theorem serverIn_eq (behind : Nat → Memory) (response : Block) :
    serverIn behind (some response) =
      ((parsed response).bind Pointer.deref).bind fun root =>
        served ((children root).map (·.2)) := by
  rw [serverIn]
  cases parsed response with
  | none => rfl
  | some pointer =>
      cases pointer with
      | null => rfl
      | freed => rfl
      | node root =>
          change (if (children root).length = 0 then some none
            else if serversSize < (children root).length then none
            else chooseServer behind fun i : Fin (children root).length =>
              ((cJSONGetArrayItem (.node root) i).bind Pointer.deref).bind
                valuestring) = served ((children root).map (·.2))
          rw [served, List.length_map]
          split
          · rfl
          · split
            · rfl
            · refine chooseServer_nodes behind (List.length_map _) ?_ (by omega)
                (by omega)
              intro i
              simp [cJSONGetArrayItem]

theorem served_eq_some {nodes : List Json} {server : Option Bytes}
    (returned : served nodes = some server) :
    (nodes = [] ∧ server = none) ∨ ∃ first others,
      nodes = (first :: others).map .string ∧ others.length < serversSize ∧
        server = some (keptName first others.length) := by
  rw [served] at returned
  split at returned
  · cases returned
    exact Or.inl ⟨List.length_eq_zero_iff.mp ‹_›, rfl⟩
  · split at returned
    · cases returned
    · split at returned
      · rename_i small _ first others texts
        have strings := mapM_valuestring.mp texts
        cases returned
        refine Or.inr ⟨first, others, strings, ?_, rfl⟩
        rw [strings, List.length_map, List.length_cons] at small
        omega
      · cases returned

theorem served_strings {first : Block} {others : List Block}
    (size : others.length < serversSize) :
    served ((first :: others).map .string) =
      some (some (keptName first others.length)) := by
  rw [served, List.length_map, List.length_cons, if_neg (Nat.succ_ne_zero _),
    if_neg (by omega), mapM_valuestring.mpr rfl]

theorem children_array (items : List Json) :
    (children (.array items)).map (·.2) = items := by
  simp [children]

theorem skGetServer_eq (behind : Nat → Memory) (stack : Memory)
    (url body : Block) :
    skGetServer behind stack url (answer body) =
      if 5 < url.length then
        (processData body (responseBuffer stack)).bind fun response =>
          serverIn behind (some response)
      else none := by
  rw [skGetServer, requestServers]
  by_cases long : 5 < url.length
  · rw [if_neg (Nat.not_le.mpr long), if_pos long, getRequest, if_pos long,
      curlEasyPerform_body]
    cases processData body (responseBuffer stack) with
    | none => rfl
    | some response => rfl
  · rw [if_pos (Nat.not_lt.mp long), if_neg long]
    rfl

/-- There is room for the response, and the tree suits. -/
def ServerReply (stack : Memory) (url body : Block) : Prop :=
  5 < url.length ∧ ∃ response root,
    processData body (responseBuffer stack) = some response ∧
      cJSONParse response = .ok root ∧ ServerTree root

theorem returnsServer_iff (behind : Nat → Memory) (stack : Memory)
    (url body : Block) :
    ReturnsServer behind stack url body ↔ ServerReply stack url body := by
  rw [ReturnsServer, skGetServer_eq]
  constructor
  · intro returns
    obtain ⟨server, returned, taken⟩ := returns
    obtain ⟨long, returned⟩ := Option.ite_none_right_eq_some.mp returned
    obtain ⟨response, stored, returned⟩ := Option.bind_eq_some_iff.mp returned
    rw [serverIn_eq] at returned
    obtain ⟨root, tree, returned⟩ := Option.bind_eq_some_iff.mp returned
    refine ⟨long, response, root, stored, deref_parsed.mp tree, ?_⟩
    rcases served_eq_some returned with
      ⟨empty, -⟩ | ⟨first, others, strings, size, rfl⟩
    · exact Or.inl (List.map_eq_nil_iff.mp empty)
    · obtain ⟨other, items, same, done, member⟩ := taken _ rfl
      obtain rfl := Option.some.inj (stored.symm.trans same)
      rw [deref_parsed.mp tree] at done
      cases done
      rw [children_array] at strings
      rw [strings] at member
      obtain ⟨name, member, same⟩ := List.mem_map.mp member
      cases same
      exact Or.inr ⟨first, others, congrArg _ strings, size, member⟩
  · intro suits
    obtain ⟨long, response, root, stored, done, served⟩ := suits
    rw [if_pos long, stored, Option.bind_some, serverIn_eq,
      deref_parsed.mpr done, Option.bind_some]
    rcases served with empty | ⟨first, others, rfl, size, kept⟩
    · refine ⟨none, by rw [empty]; rfl, nofun⟩
    · refine ⟨_, by rw [children_array]; exact served_strings size, ?_⟩
      rintro name ⟨⟩
      exact ⟨response, _, rfl, done, List.mem_map_of_mem kept⟩

/-- The two that look before they delete return what they are to just for the
responses that suit them, and the one that deletes first never does. -/
theorem registration_returns_iff (toInt : Block → Int)
    (behind : Nat → Memory) (stack : Memory) (slogger : Slogger) (i : Nat)
    (url : Block) {serverUrl : Block} (noNul : (0 : UInt8) ∉ serverUrl)
    (name : ServiceName) (body : Block) :
    (ReturnsServer behind stack url body ↔ ServerReply stack url body) ∧
      (ReturnsApplication toInt slogger i serverUrl name.text body ↔
        ApplicationReply serverUrl name.text body) ∧
      ¬ ReturnsInstance toInt (body ++ [0]) := by
  refine ⟨returnsServer_iff behind stack url body,
    returnsApplication_iff toInt slogger i noNul name body, ?_⟩
  intro returns
  obtain ⟨id, returned, -⟩ := returns
  rw [getInstanceId_eq_none] at returned
  cases returned

theorem cJSONParse_x (rest : Block) :
    cJSONParse (120 :: rest) = .error .malformed := by
  have space : skip (120 :: rest) = 120 :: rest := rfl
  have word : readWords words (120 :: rest) = .ok none := rfl
  rw [cJSONParse, space, parseValue]
  split
  · rename_i failure read
    rw [word] at read
    cases read
  · rename_i value rest read
    rw [word] at read
    cases read
  · rfl

def slogger : Slogger where
  clock := fun _ => ⟨⟨2018, 200, by decide⟩, 12, 0, 7⟩
  file := Block.ofString "molten_span.c"
  file_noNul := by decide
  file_plain := by decide
  room := fun _ => by decide

def collector : Block := Block.ofString "10.0.0.1:9/"

theorem collector_noNul : (0 : UInt8) ∉ collector := by decide

theorem malformed_not_returns :
    ¬ ReturnsServer (fun _ _ => 0) (fun _ => 0) collector [120] ∧
      ¬ ReturnsApplication (fun _ => 0) slogger 0 collector
          ServiceName.phpService.text [120] ∧
      ¬ ReturnsInstance (fun _ => 0) [120, 0] := by
  have stored : ∀ buffer : Block, 1 ≤ buffer.length →
      processData [120] buffer = some (120 :: buffer.drop 1) := fun buffer _ =>
    Transfer.processData_eq (by decide) (by assumption)
  refine ⟨?_, ?_, ?_⟩
  · rw [returnsServer_iff]
    rintro ⟨-, response, root, same, done, -⟩
    rw [stored _ (by rw [length_responseBuffer]; decide)] at same
    obtain rfl := Option.some.inj same
    rw [cJSONParse_x] at done
    cases done
  · rw [returnsApplication_iff _ _ _ collector_noNul]
    rintro ⟨-, response, text, root, same, -, -, done, -⟩
    rw [stored _ (by rw [length_applicationBuffer]; decide)] at same
    obtain rfl := Option.some.inj same
    rw [cJSONParse_x] at done
    cases done
  · intro returns
    obtain ⟨id, returned, -⟩ := returns
    rw [getInstanceId_eq_none] at returned
    cases returned

/-- A number is there, and the line that shows it cannot be printed. -/
def percentBody : Block :=
  Block.ofString "[\x7b\"i\":3,\"n\":\"%n\"\x7d]"

theorem percentBody_not_returns :
    ¬ ReturnsApplication (fun _ => 3) slogger 0 collector
      ServiceName.phpService.text percentBody := by
  have both := registration_returns_iff (fun _ => 3) (fun _ _ => 0)
    (fun _ => 0) slogger 0 collector collector_noNul ServiceName.phpService
    percentBody
  rw [both.2.1]
  rintro ⟨-, response, text, root, stored, read, printable, -⟩
  have lines : ∀ response ∈ processData percentBody applicationBuffer,
      ∀ text ∈ Block.cString response, ¬ Printable
        (resultLine (collector ++ skRegisterApplicationPath) text) := by
    decide +kernel
  exact lines response stored text read printable

end Registration

end Molten.Collector
