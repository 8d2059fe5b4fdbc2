import Mathlib.Algebra.Order.Ring.Int
import Molten.Collector.CJsonPrint
import Molten.Text.Decimal

namespace Molten.Collector.ServiceBody

open CJson Molten.Text

/-! What `sk_register_service_builder` writes to register a worker, for a given
id of the worker and a given address of its host.  How its caller comes by the
id, and `current_ipv4` by the address, is not followed here. -/

/-- What the functions of host_info tell; `ipv4` is the first of the addresses,
if there is one. -/
structure Host where
  osName : Block
  hostName : Block
  processId : Nat
  ipv4 : Option Block
  osName_length : osName.length < 32
  hostName_length : hostName.length < 64
  processId_lt : processId < 2 ^ 31
  osName_noNul : (0 : UInt8) ∉ osName
  hostName_noNul : (0 : UInt8) ∉ hostName
  ipv4_noNul : ∀ address ∈ ipv4, (0 : UInt8) ∉ address

/-- What is registered of a worker: its application, its own id, the time in
milliseconds and its host. -/
structure Worker where
  applicationId : Int
  agentUuid : Block
  millis : Nat
  host : Host
  applicationId_fits : -2 ^ 31 ≤ applicationId ∧ applicationId < 2 ^ 31
  agentUuid_length : agentUuid.length = 16
  agentUuid_noNul : (0 : UInt8) ∉ agentUuid
  millis_lt : millis < 2 ^ 53

def createNumber (num : Int) : Json := .number (Format.integer num)

def osInfo (host : Host) (address : Block) : Json :=
  .object
    [(Block.ofString "osName", .string host.osName),
     (Block.ofString "hostName", .string host.hostName),
     (Block.ofString "processId", createNumber host.processId),
     (Block.ofString "ipv4s", .array [.string address])]

def instanceSpan (worker : Worker) (address : Block) : Json :=
  .object
    [(Block.ofString "ai", createNumber worker.applicationId),
     (Block.ofString "au", .string worker.agentUuid),
     (Block.ofString "rt", createNumber worker.millis),
     (Block.ofString "oi", osInfo worker.host address)]

section

variable (number : Block → Block)

/-- `sk_register_service_builder` -/
def skRegisterServiceBuilder (resData : Block) (worker : Worker) :
    Option Block := do
  let string ← worker.host.ipv4
  let result1 ← Block.store 0 (string ++ [0]) (List.replicate 64 0)
  let address ← Block.cString result1
  let text ← cJSONPrint number (instanceSpan worker address)
  Block.store 0 (text ++ [0]) resData

/-- The string that is left in a `res_data` of 256 bytes. -/
def postedService (worker : Worker) : Option Block := do
  let resData ← skRegisterServiceBuilder number (List.replicate 256 0) worker
  Block.cString resData

end

/-- `print_number` on what `cJSON_CreateNumber` makes of an integer that a
double can hold. -/
def PrintsIntegers (number : Block → Block) : Prop :=
  ∀ value : Int, value.natAbs < 2 ^ 53 →
    number (Format.integer value) = Format.integer value

/-! The body. -/

/-- The length of a string as it is printed, without the quotes. -/
def printedLength (text : Block) : Nat := (text.map tokenRoom).sum

/-- What the parts of the body that are not fixed take. -/
def variableLength (worker : Worker) (address : Block) : Nat :=
  (Format.integer worker.applicationId).length + printedLength worker.agentUuid +
    (Format.integer worker.millis).length + printedLength worker.host.osName +
    printedLength worker.host.hostName +
    (Format.integer worker.host.processId).length + printedLength address

section

variable {number : Block → Block} (prints : PrintsIntegers number)
  (worker : Worker) (address : Block)

include prints

theorem number_application : number (Format.integer worker.applicationId) =
    Format.integer worker.applicationId := by
  have fits := worker.applicationId_fits
  exact prints _ (by omega)

theorem number_millis :
    number (Format.integer worker.millis) = Format.integer worker.millis := by
  have fits := worker.millis_lt
  exact prints _ (by omega)

theorem number_process : number (Format.integer worker.host.processId) =
    Format.integer worker.host.processId := by
  have fits := worker.host.processId_lt
  exact prints _ (by omega)

theorem length_instanceSpan :
    (valueText number true 0 (instanceSpan worker address)).length =
      variableLength worker address + 111 := by
  have names : printedLength (Block.ofString "ai") = 2 ∧
      printedLength (Block.ofString "au") = 2 ∧
      printedLength (Block.ofString "rt") = 2 ∧
      printedLength (Block.ofString "oi") = 2 ∧
      printedLength (Block.ofString "osName") = 6 ∧
      printedLength (Block.ofString "hostName") = 8 ∧
      printedLength (Block.ofString "processId") = 9 ∧
      printedLength (Block.ofString "ipv4s") = 5 := by decide
  have string : ∀ text, (stringText text).length = printedLength text + 2 :=
    length_stringText
  simp only [valueText, instanceSpan, osInfo, createNumber, objectText,
    objectEntries, objectEntry, memberTexts, arrayText, arrayEntries,
    itemTexts, tabs, string, number_application prints, number_millis prints,
    number_process prints, variableLength, List.length_append,
    List.length_cons, List.length_nil, List.length_replicate, if_true,
    List.isEmpty_cons, Bool.false_eq_true, if_false]
  omega

theorem mapNumbers_instanceSpan :
    (instanceSpan worker address).mapNumbers number =
      instanceSpan worker address := by
  simp only [instanceSpan, osInfo, createNumber, Json.mapNumbers,
    Json.mapNumbersMembers, Json.mapNumbersItems, number_application prints,
    number_millis prints, number_process prints]

theorem numbers_instanceSpan :
    (instanceSpan worker address).NumbersAre (PrintsJson number) := by
  have json : ∀ value, number (Format.integer value) = Format.integer value →
      PrintsJson number (Format.integer value) := by
    intro value same
    rw [PrintsJson, same]
    exact Format.number_integer value
  exact ⟨json _ (number_application prints worker), trivial,
    json _ (number_millis prints worker), ⟨trivial, trivial,
      json _ (number_process prints worker), ⟨trivial, trivial⟩, trivial⟩,
    trivial⟩

end

theorem nulFree_instanceSpan (worker : Worker) {address : Block}
    (found : worker.host.ipv4 = some address) :
    (instanceSpan worker address).NulFree := by
  have string := worker.host.ipv4_noNul address found
  have names : ∀ name ∈ ["ai", "au", "rt", "oi", "osName", "hostName",
      "processId", "ipv4s"], (0 : UInt8) ∉ Block.ofString name := by decide
  simp only [List.forall_mem_cons] at names
  obtain ⟨ai, au, rt, oi, osName, hostName, processId, ipv4s, -⟩ := names
  exact ⟨ai, trivial, au, worker.agentUuid_noNul, rt, trivial, oi,
    ⟨osName, worker.host.osName_noNul, hostName, worker.host.hostName_noNul,
      processId, trivial, ipv4s, ⟨string, trivial⟩, trivial⟩, trivial⟩

theorem printedLength_le (text : Block) :
    printedLength text ≤ 6 * text.length := by
  induction text with
  | nil => exact Nat.le_refl _
  | cons token text induction =>
      have single : tokenRoom token ≤ 6 := by
        rw [tokenRoom]
        split
        · decide
        · split <;> decide
      have rest : printedLength (token :: text) =
          tokenRoom token + printedLength text := rfl
      rw [rest, List.length_cons]
      omega

theorem short_instanceSpan {number : Block → Block}
    (prints : PrintsIntegers number) (worker : Worker) {address : Block}
    (fits : address.length < 64) :
    Short (valueText number true 0 (instanceSpan worker address)) := by
  have application := worker.applicationId_fits
  have millis := worker.millis_lt
  have process := worker.host.processId_lt
  have first := @Format.length_integer_le worker.applicationId (by omega)
  have second := @Format.length_integer_le worker.millis (by omega)
  have third := @Format.length_integer_le worker.host.processId (by omega)
  have agent := printedLength_le worker.agentUuid
  have os := printedLength_le worker.host.osName
  have host := printedLength_le worker.host.hostName
  have ip := printedLength_le address
  have lengths := worker.agentUuid_length
  have osLength := worker.host.osName_length
  have hostLength := worker.host.hostName_length
  rw [Short, length_instanceSpan prints, variableLength]
  omega

/-! The buffers. -/

theorem store_fresh {text : Block} {size : Nat} (noNul : (0 : UInt8) ∉ text)
    (fits : text.length < size) :
    ∃ block, Block.store 0 (text ++ [0]) (List.replicate size 0) =
        some block ∧ Block.cString block = some text := by
  have within : 0 + (text ++ [0]).length ≤
      (List.replicate size (0 : UInt8)).length := by
    rw [List.length_append, List.length_replicate, Nat.zero_add]
    exact fits
  refine ⟨_, Block.store_eq_some within, ?_⟩
  refine Block.cString_eq_some_iff.mpr ⟨noNul, ?_⟩
  rw [List.take_zero, List.nil_append]
  exact List.prefix_append _ _

theorem store_over {text : Block} {size : Nat} (long : size ≤ text.length) :
    Block.store 0 (text ++ [0]) (List.replicate size 0) = none := by
  refine if_neg ?_
  rw [List.length_append, List.length_replicate, List.length_singleton]
  omega

/-- The parts of the body that are not fixed leave room for the others. -/
def Fits (worker : Worker) : Prop :=
  ∃ address, worker.host.ipv4 = some address ∧ address.length < 64 ∧
    variableLength worker address ≤ 144

theorem skRegisterServiceBuilder_eq {number : Block → Block}
    (prints : PrintsIntegers number) (resData : Block) (worker : Worker)
    {address : Block} (found : worker.host.ipv4 = some address)
    (short : address.length < 64) :
    skRegisterServiceBuilder number resData worker =
      Block.store 0
        (valueText number true 0 (instanceSpan worker address) ++ [0])
        resData := by
  obtain ⟨result1, copied, read⟩ :=
    store_fresh (worker.host.ipv4_noNul address found) short
  have numbers := numbers_instanceSpan prints worker address
  have printed := printValue_eq number true
    (nulFree_instanceSpan worker found)
    (numbers.mono fun text => PrintsJson.printsNumber number)
    (short_instanceSpan prints worker short)
  simp only [skRegisterServiceBuilder, found, copied, read, cJSONPrint,
    printed, Option.bind_eq_bind, Option.bind_some]

theorem postedService_eq {number : Block → Block}
    (prints : PrintsIntegers number) (worker : Worker) {address : Block}
    (found : worker.host.ipv4 = some address) (short : address.length < 64) :
    postedService number worker =
      if variableLength worker address ≤ 144 then
        some (valueText number true 0 (instanceSpan worker address))
      else none := by
  have noNul := (valueText_written number true
    (numbers_instanceSpan prints worker address) 0).noNul
  have length := length_instanceSpan prints worker address
  rw [postedService, skRegisterServiceBuilder_eq prints _ worker found short]
  split
  · obtain ⟨resData, stored, string⟩ := store_fresh noNul
      (show _ < 256 by omega)
    rw [stored]
    exact string
  · rw [store_over (by omega)]
    rfl

/-- The body of a registration is JSON for the worker exactly when its parts
leave room for the fixed ones in `res_data`. -/
theorem postedService_decodes_iff {number : Block → Block}
    (prints : PrintsIntegers number) (worker : Worker) :
    (∃ address body, worker.host.ipv4 = some address ∧
      postedService number worker = some body ∧
      Json.Decodes body (instanceSpan worker address)) ↔ Fits worker := by
  constructor
  · rintro ⟨address, body, found, posted, -⟩
    have short : address.length < 64 := by
      refine Nat.lt_of_not_le fun long => ?_
      rw [postedService, skRegisterServiceBuilder, found] at posted
      change ((Block.store 0 (address ++ [0]) (List.replicate 64 0) >>= _) >>=
        _) = _ at posted
      rw [store_over long] at posted
      cases posted
    rw [postedService_eq prints worker found short] at posted
    split at posted
    · rename_i room
      exact ⟨address, found, short, room⟩
    · cases posted
  · rintro ⟨address, found, short, room⟩
    have posted := postedService_eq prints worker found short
    rw [if_pos room] at posted
    have written := valueText_written number true
      (numbers_instanceSpan prints worker address) 0
    rw [mapNumbers_instanceSpan prints] at written
    exact ⟨address, _, found, posted, [], _, [], (List.append_nil _).symm,
      blank_nil, written, blank_nil⟩

def phpWorker : Worker where
  applicationId := 3
  agentUuid := Block.ofString "125456ff4a9ee11f"
  millis := 1531298394832
  host :=
    { osName := Block.ofString "Linux"
      hostName := Block.ofString "web-1"
      processId := 21780
      ipv4 := some (Block.ofString "10.32.5.143")
      osName_length := by decide
      hostName_length := by decide
      processId_lt := by decide
      osName_noNul := by decide
      hostName_noNul := by decide
      ipv4_noNul := by
        intro address found
        cases found
        decide }
  applicationId_fits := by decide
  agentUuid_length := by decide
  agentUuid_noNul := by decide
  millis_lt := by decide

theorem phpWorker_decodes :
    ∃ address body, phpWorker.host.ipv4 = some address ∧
      postedService id phpWorker = some body ∧
      Json.Decodes body (instanceSpan phpWorker address) := by
  refine (postedService_decodes_iff (fun _ _ => rfl) phpWorker).mpr ?_
  exact ⟨_, rfl, by decide, by decide⟩

end Molten.Collector.ServiceBody
