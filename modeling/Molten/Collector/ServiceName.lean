import Molten.Text.Json

namespace Molten.Collector

open Molten.Text

/-! The name of the service, in the request that registers it. -/

/-- `char post_data[64] = "["` -/
def postDataStart : Block := Block.ofString "[" ++ List.replicate 63 0

/-- The `post_data` of `sk_register_application`, from the block that `name`
points to. -/
def postData (name : Block) : Option Block := do
  let postData ← Block.strcat postDataStart name
  let postData ← Block.strcat postData (Block.ofString "]" ++ [0])
  Block.cString postData

structure ServiceName where
  text : Block
  noNul : (0 : UInt8) ∉ text

namespace ServiceName

def posted (name : ServiceName) : Option Block := postData (name.text ++ [0])

def Encodes (name : ServiceName) : Prop :=
  ∃ body, name.posted = some body ∧
    Json.Decodes body (.array [.string name.text])

theorem posted_eq (name : ServiceName) :
    name.posted =
      if name.text.length < 62 then
        some (Block.ofString "[" ++ name.text ++ Block.ofString "]")
      else none := by
  have start : Block.cString postDataStart = some (Block.ofString "[") := by
    decide
  have size : postDataStart.length = 64 := by decide
  have read : Block.cString (name.text ++ [0]) = some name.text :=
    Block.cString_eq_some_iff.mpr ⟨name.noNul, List.prefix_rfl⟩
  have close : Block.cString (Block.ofString "]" ++ [0]) =
      some (Block.ofString "]") := by decide
  have opened : (Block.ofString "[").length = 1 := by decide
  have closed : (Block.ofString "]").length = 1 := by decide
  rw [posted, postData]
  by_cases room : name.text.length < 63
  · obtain ⟨named, stored, text, length⟩ :=
      Block.strcat_eq_some start read (by omega)
    rw [stored, Option.bind_eq_bind, Option.bind_some]
    have inside : (Block.ofString "[" ++ name.text).length =
        name.text.length + 1 := by
      rw [List.length_append, opened, Nat.add_comm]
    by_cases whole : name.text.length < 62
    · obtain ⟨after, stored, text, -⟩ :=
        Block.strcat_eq_some text close (by omega)
      rw [stored, Option.bind_some, text, if_pos whole]
    · rw [Block.strcat_eq_none text close (by omega), if_neg whole]
      rfl
  · rw [Block.strcat_eq_none start read (by omega), if_neg (by omega)]
    rfl

/-- With quotes around it a name of plain bytes would be encoded. -/
theorem decodes_quoted {text : Block}
    (plain : ∀ byte ∈ text, 32 ≤ byte ∧ byte ≠ 34 ∧ byte ≠ 92) :
    Json.Decodes (Block.ofString "[\"" ++ text ++ Block.ofString "\"]")
      (.array [.string text]) := by
  have blank : Json.Blank [] := nofun
  have value := Json.Value.array (Json.Elements.last blank
    (Json.Value.string (Json.Chars.of_plain plain)) blank)
  refine ⟨[], _, [], ?_, blank, value, blank⟩
  have opening : Block.ofString "[\"" = [91, 34] := by decide
  have closing : Block.ofString "\"]" = [34, 93] := by decide
  simp [opening, closing]

/-- Without quotes the request is too short to be JSON for the name. -/
theorem posted_not_encodes (name : ServiceName) : ¬ name.Encodes := by
  intro encodes
  obtain ⟨body, posted, decodes⟩ := encodes
  have long := decodes.length_array
  have brackets : (Block.ofString "[").length = 1 ∧
      (Block.ofString "]").length = 1 := by decide
  rw [posted_eq] at posted
  split at posted
  · cases posted
    simp only [List.length_append, brackets] at long
    omega
  · cases posted

def phpService : ServiceName := ⟨Block.ofString "php_service_01", by decide⟩

theorem phpService_not_encodes : ¬ phpService.Encodes := by
  intro encodes
  obtain ⟨body, posted, decodes⟩ := encodes
  have sent : phpService.posted =
      some (Block.ofString "[php_service_01]") := by decide
  rw [sent] at posted
  cases posted
  exact absurd decodes.length_array (by decide)

end ServiceName

end Molten.Collector
