import Molten.Intercept.Frame
import Molten.Text.Block

namespace Molten.Intercept.ArgsSummary

open Molten.Text

/-! The summary of the arguments of a call, in a block of 64 bytes. -/

/-- A `zval` that is an argument.  The text of a double is what `%.*G` prints
of it. -/
inductive ArgValue
  | bool (value : Bool)
  | null
  | long (value : Int)
  | double (text : Block)
  | string (bytes : Block)
  | array (count : Nat)
  | object (className : Block) (handle : Nat)
  | resource (type : Option Block) (handle : Nat)
  | undef
  | unknown
  deriving DecidableEq, Repr

/-- `char buf[256]` -/
def bufSize : Nat := 256

/-- `snprintf(buf, sizeof(buf), ...)` and `smart_string_appends` of it. -/
def throughBuf (text : Block) : Block :=
  (text.takeWhile (· != 0)).take (bufSize - 1)

def decimal (value : Int) : Block := Block.ofString (toString value)

/-- What `%d` prints of a number, which is read as an `int`. -/
def decimalInt (value : Nat) : Block := decimal (Int.bmod value (2 ^ 32))

def reprZval (zv : ArgValue) (limit : Int) : Block :=
  match zv with
  | .bool true => Block.ofString "true"
  | .bool false => Block.ofString "false"
  | .null => Block.ofString "NULL"
  | .long value => throughBuf (decimal value)
  | .double text => throughBuf text
  | .string bytes =>
      let tlen :=
        if limit ≤ 0 ∨ (bytes.length : Int) < limit then bytes.length
        else limit.toNat
      bytes.take tlen ++
        if 0 < limit ∧ limit < bytes.length then Block.ofString "..." else []
  | .array count =>
      throughBuf (Block.ofString "array(" ++ decimalInt count ++
        Block.ofString ")")
  | .object className handle =>
      throughBuf (Block.ofString "object(" ++ className.takeWhile (· != 0) ++
        Block.ofString ")#" ++ decimalInt handle)
  | .resource type handle =>
      throughBuf (Block.ofString "resource(" ++
        (type.getD (Block.ofString "Unknown")).takeWhile (· != 0) ++
        Block.ofString ")#" ++ decimalInt handle)
  | .undef => Block.ofString "{undef}"
  | .unknown => Block.ofString "{unknown}"

/-! `convert_args_to_string` -/

def argsRealLen : Nat := 60

/-- An `int` where a `size_t` is expected. -/
def toSizeT (value : Int) : Nat := (value % 2 ^ 64).toNat

/-- A `size_t` that is stored in an `int`. -/
def toInt (value : Nat) : Int := Int.bmod value (2 ^ 32)

/-- The loop over the arguments.  The text of an argument has no NUL behind
it. -/
def appendArgs (string : Block) (argLen : Int) :
    List ArgValue → Option Block
  | [] => some string
  | arg :: args => do
      let tmp := reprZval arg 32
      let realLen : Int := tmp.length + 1
      if argsRealLen ≤ toSizeT (argLen + realLen) then
        let realLen := toInt (toSizeT (argsRealLen - argLen))
        let string ← Block.strncat string tmp (toSizeT (realLen - 1))
        let string ← Block.strncat string (Block.ofString "..." ++ [0]) 3
        Block.store (argsMaxLen - 1) [0] string
      else
        let string ← Block.strncat string tmp (toSizeT (realLen - 1))
        let string ← Block.strncat string (Block.ofString "," ++ [0]) 1
        appendArgs string (argLen + realLen) args

def convertArgsToString (function : Block) (args : List ArgValue) :
    Option Block := do
  let string := List.replicate argsMaxLen 0
  let realLen : Int := 0
  let argLen : Int := function.length + 1
  let string ← Block.strncat string (function ++ [0]) (toSizeT (realLen - 1))
  let string ← Block.strncat string (Block.ofString " " ++ [0]) 1
  appendArgs string argLen args

/-! What it is to be. -/

/-- A text of up to 59 elements, or the first 59 of it and what stands for the
rest. -/
def summarize {α : Type} (ellipsis text : List α) : List α :=
  if text.length ≤ 59 then text else text.take 59 ++ ellipsis

/-- The text of the whole call. -/
def callText (function : Block) (args : List ArgValue) : Block :=
  function ++ Block.ofString " " ++
    (args.map fun arg => reprZval arg 32 ++ Block.ofString ",").flatten

structure ArgsCall where
  function : Block
  args : List ArgValue
  function_length : function.length ≤ 58
  function_noNul : (0 : UInt8) ∉ function
  args_noNul : ∀ arg ∈ args, (0 : UInt8) ∉ reprZval arg 32

theorem length_throughBuf (text : Block) :
    (throughBuf text).length ≤ 255 := by
  rw [throughBuf, List.length_take]
  exact Nat.min_le_left _ _

theorem length_reprZval (zv : ArgValue) : (reprZval zv 32).length ≤ 255 := by
  cases zv with
  | string bytes =>
      rw [reprZval, List.length_append, List.length_take]
      have rest : (if (0 : Int) < 32 ∧ (32 : Int) < bytes.length then
          Block.ofString "..." else []).length ≤ 3 := by
        split <;> decide
      by_cases short : (32 : Int) ≤ 0 ∨ (bytes.length : Int) < 32
      · rw [if_pos short]
        omega
      · rw [if_neg short]
        omega
  | bool value => cases value <;> decide
  | null | undef | unknown => decide
  | long value => exact length_throughBuf _
  | double text => exact length_throughBuf _
  | array count => exact length_throughBuf _
  | object className handle => exact length_throughBuf _
  | resource type handle => exact length_throughBuf _

theorem toSizeT_of_lt {value : Nat} (small : value < 2 ^ 31) :
    toSizeT value = value := by
  unfold toSizeT
  omega

theorem toInt_of_lt {value : Nat} (small : value < 2 ^ 31) :
    toInt value = value :=
  bmod_eq_self small

/-! The block, and the text that is in it. -/

structure Holds (string text : Block) : Prop where
  length : string.length = argsMaxLen
  read : Block.cString string = some text

theorem Holds.append {string text : Block} (holds : Holds string text)
    {source added : Block} {count : Nat}
    (taken : Block.readUpTo source count = some added)
    (noNul : (0 : UInt8) ∉ added) (fits : text.length + added.length < 64) :
    ∃ after, Block.strncat string source count = some after ∧
      Holds after (text ++ added) := by
  have within : text.length + added.length < string.length := by
    rw [holds.length]
    exact fits
  obtain ⟨after, appended, read, length⟩ :=
    Block.strncat_eq_some holds.read taken noNul within
  exact ⟨after, appended, length.trans holds.length, read⟩

theorem holds_empty : Holds (List.replicate argsMaxLen 0) [] where
  length := List.length_replicate
  read := rfl

theorem Holds.close {string text : Block} (holds : Holds string text)
    (fits : text.length < 63) :
    ∃ after, Block.store (argsMaxLen - 1) [0] string = some after ∧
      Holds after text := by
  have length := holds.length
  have within : argsMaxLen - 1 + [(0 : UInt8)].length ≤ string.length := by
    rw [length]
    exact Nat.le_refl _
  have stored := Block.store_eq_some within
  obtain ⟨noNul, start⟩ := Block.cString_eq_some_iff.mp holds.read
  refine ⟨_, stored, (Block.length_store stored).trans length,
    Block.cString_eq_some_iff.mpr ⟨noNul, ?_⟩⟩
  have kept : text ++ [0] <+: string.take (argsMaxLen - 1) := by
    refine List.prefix_take_iff.mpr ⟨start, ?_⟩
    rw [List.length_append]
    exact fits
  exact kept.trans (List.prefix_append _ _)

theorem Holds.appendArg {string text tmp : Block} (holds : Holds string text)
    (noNul : (0 : UInt8) ∉ tmp) (fits : text.length + (tmp.length + 1) < 60) :
    ∃ between after,
      Block.strncat string tmp tmp.length = some between ∧
      Block.strncat between (Block.ofString "," ++ [0]) 1 = some after ∧
      Holds after (text ++ (tmp ++ Block.ofString ",")) := by
  have taken : Block.readUpTo tmp tmp.length = some tmp := by
    rw [Block.readUpTo_noNul noNul (Nat.le_refl _), List.take_length]
  obtain ⟨between, appended, holds⟩ := holds.append taken noNul (by omega)
  have comma : Block.readUpTo (Block.ofString "," ++ [0]) 1 =
      some (Block.ofString ",") := by decide
  obtain ⟨after, closed, holds⟩ := holds.append comma (by decide) (by
    rw [List.length_append, show (Block.ofString ",").length = 1 by decide]
    omega)
  rw [List.append_assoc] at holds
  exact ⟨between, after, appended, closed, holds⟩

theorem Holds.stop {string text tmp : Block} (holds : Holds string text)
    (noNul : (0 : UInt8) ∉ tmp) (short : text.length ≤ 59)
    (long : 60 ≤ text.length + (tmp.length + 1)) :
    ∃ cut ended after,
      Block.strncat string tmp (59 - text.length) = some cut ∧
      Block.strncat cut (Block.ofString "..." ++ [0]) 3 = some ended ∧
      Block.store (argsMaxLen - 1) [0] ended = some after ∧
      Holds after (text ++ tmp.take (59 - text.length) ++
        Block.ofString "...") := by
  have taken := Block.readUpTo_noNul noNul
    (show 59 - text.length ≤ tmp.length by omega)
  have taken_length : (tmp.take (59 - text.length)).length =
      59 - text.length := by
    rw [List.length_take]
    omega
  obtain ⟨cut, appended, holds⟩ := holds.append taken
    (fun member => noNul (List.mem_of_mem_take member)) (by omega)
  have dots : Block.readUpTo (Block.ofString "..." ++ [0]) 3 =
      some (Block.ofString "...") := by decide
  have total : (text ++ tmp.take (59 - text.length)).length = 59 := by
    rw [List.length_append, taken_length]
    omega
  obtain ⟨ended, marked, holds⟩ := holds.append dots (by decide) (by
    rw [total]
    decide)
  obtain ⟨after, stored, holds⟩ := holds.close (by
    rw [List.length_append, total]
    decide)
  exact ⟨cut, ended, after, appended, marked, stored, holds⟩

theorem summarize_of_long {α : Type} {ellipsis text added rest : List α}
    (short : text.length ≤ 59) (long : 59 ≤ text.length + added.length)
    (more : rest ≠ []) :
    summarize ellipsis (text ++ (added ++ rest)) =
      text ++ added.take (59 - text.length) ++ ellipsis := by
  have positive := List.length_pos_iff.mpr more
  rw [summarize, if_neg (by simp only [List.length_append]; omega),
    List.take_append, List.take_of_length_le short,
    List.take_append_of_le_length (by omega)]

/-! The arithmetic of the loop, for a text of `written` bytes. -/

theorem toSizeT_total {written : Nat} (short : written ≤ 59) (arg : ArgValue) :
    toSizeT ((written : Int) + ((reprZval arg 32).length + 1)) =
      written + ((reprZval arg 32).length + 1) := by
  have bound := length_reprZval arg
  rw [show (written : Int) + ((reprZval arg 32).length + 1) =
    ((written + ((reprZval arg 32).length + 1) : Nat) : Int) by omega]
  exact toSizeT_of_lt (by omega)

theorem toSizeT_room {written : Nat} (short : written ≤ 59) :
    toSizeT (toInt (toSizeT ((argsRealLen : Int) - written)) - 1) =
      59 - written := by
  rw [show (argsRealLen : Int) - written = ((60 - written : Nat) : Int) by
      simp only [argsRealLen]; omega,
    toSizeT_of_lt (by omega), toInt_of_lt (by omega),
    show ((60 - written : Nat) : Int) - 1 = ((59 - written : Nat) : Int) by
      omega]
  exact toSizeT_of_lt (by omega)

theorem appendArgs_cons_long {string : Block} {written : Nat}
    (short : written ≤ 59) {arg : ArgValue} {args : List ArgValue}
    (long : 60 ≤ written + ((reprZval arg 32).length + 1)) :
    appendArgs string written (arg :: args) =
      (Block.strncat string (reprZval arg 32) (59 - written)).bind fun cut =>
        (Block.strncat cut (Block.ofString "..." ++ [0]) 3).bind fun ended =>
          Block.store (argsMaxLen - 1) [0] ended := by
  rw [appendArgs]
  dsimp only
  rw [toSizeT_total short, toSizeT_room short]
  exact if_pos long

theorem appendArgs_cons_short {string : Block} {written : Nat}
    {arg : ArgValue} {args : List ArgValue}
    (fits : written + ((reprZval arg 32).length + 1) < 60) :
    appendArgs string written (arg :: args) =
      (Block.strncat string (reprZval arg 32)
        (reprZval arg 32).length).bind fun between =>
        (Block.strncat between (Block.ofString "," ++ [0]) 1).bind fun after =>
          appendArgs after
            ((written + ((reprZval arg 32).length + 1) : Nat) : Int) args := by
  have last : toSizeT (((reprZval arg 32).length : Int) + 1 - 1) =
      (reprZval arg 32).length := by
    rw [Int.add_sub_cancel]
    exact toSizeT_of_lt (by omega)
  rw [appendArgs]
  dsimp only
  rw [toSizeT_total (by omega), last]
  exact if_neg (by rw [argsRealLen]; omega)

theorem appendArgs_spec (args : List ArgValue)
    (noNul : ∀ arg ∈ args, (0 : UInt8) ∉ reprZval arg 32)
    {string text : Block} (holds : Holds string text)
    (short : text.length ≤ 59) :
    ∃ after, appendArgs string text.length args = some after ∧
      Holds after (summarize (Block.ofString "...")
        (text ++ (args.map fun arg =>
          reprZval arg 32 ++ Block.ofString ",").flatten)) := by
  induction args generalizing string text with
  | nil =>
      refine ⟨string, rfl, ?_⟩
      rw [List.map_nil, List.flatten_nil, List.append_nil, summarize,
        if_pos short]
      exact holds
  | cons arg args induction =>
      have arg_noNul := noNul arg List.mem_cons_self
      rw [List.map_cons, List.flatten_cons]
      by_cases long : 60 ≤ text.length + ((reprZval arg 32).length + 1)
      · obtain ⟨cut, ended, after, appended, marked, stored, holds⟩ :=
          holds.stop arg_noNul short long
        refine ⟨after, ?_, ?_⟩
        · rw [appendArgs_cons_long short long, appended, Option.bind_some,
            marked]
          exact stored
        · rw [List.append_assoc (reprZval arg 32),
            summarize_of_long short (by omega) (by simp [Block.ofString])]
          exact holds
      · obtain ⟨between, after, appended, closed, holds⟩ :=
          holds.appendArg arg_noNul (by omega)
        have length : (text ++ (reprZval arg 32 ++ Block.ofString ",")).length =
            text.length + ((reprZval arg 32).length + 1) := by
          rw [List.length_append, List.length_append]
          rfl
        rw [appendArgs_cons_short (by omega), appended, Option.bind_some,
          closed, Option.bind_some, ← length]
        rw [← List.append_assoc text (reprZval arg 32 ++ Block.ofString ",")]
        exact induction
          (fun other member => noNul other (List.mem_cons_of_mem _ member))
          holds (by omega)

/-! The whole call. -/

theorem length_summarize_le (text : Block) :
    (summarize (Block.ofString "...") text).length ≤ 62 := by
  rw [summarize]
  split
  · omega
  · rw [List.length_append, List.length_take,
      show (Block.ofString "...").length = 3 by decide]
    omega

/-- Every access stays in its block, whose text is the call up to 59 bytes, and
then what stands for the rest. -/
theorem convertArgsToString_summary (c : ArgsCall) :
    ∃ string text, convertArgsToString c.function c.args = some string ∧
      string.length = argsMaxLen ∧ Block.cString string = some text ∧
      text = summarize (Block.ofString "...") (callText c.function c.args) ∧
      text.length ≤ 62 := by
  have function_length := c.function_length
  have name : Block.readUpTo (c.function ++ [0]) (toSizeT (0 - 1)) =
      some c.function :=
    Block.readUpTo_literal c.function_noNul (by
      rw [show toSizeT (0 - 1) = 2 ^ 64 - 1 by decide]
      omega)
  obtain ⟨named, appended, holds⟩ :=
    holds_empty.append name c.function_noNul (by
      rw [List.length_nil]
      omega)
  have space : Block.readUpTo (Block.ofString " " ++ [0]) 1 =
      some (Block.ofString " ") := by decide
  have length : ([] ++ c.function ++ Block.ofString " ").length =
      c.function.length + 1 := by
    rw [List.nil_append, List.length_append]
    rfl
  obtain ⟨started, spaced, holds⟩ := holds.append space (by decide) (by
    rw [← List.length_append, length]
    omega)
  obtain ⟨string, summed, holds⟩ :=
    appendArgs_spec c.args c.args_noNul holds (by omega)
  refine ⟨string, _, ?_, holds.length, holds.read, rfl,
    length_summarize_le _⟩
  rw [length] at summed
  rw [convertArgsToString]
  rw [appended]
  show (Block.strncat named (Block.ofString " " ++ [0]) 1).bind _ = _
  rw [spaced]
  exact summed

/-- `$redis->set("user:1", [1, 2], $name, 86400)` with a long name. -/
def setCall : ArgsCall where
  function := Block.ofString "set"
  args :=
    [.string (Block.ofString "user:1"), .array 2,
      .string (Block.ofString "The name of a user that is too long for it"),
      .long 86400]
  function_length := by decide
  function_noNul := by decide
  args_noNul := Block.forall_of_all rfl

/-- Of the name its first 32 bytes are shown, and three dots for the rest; the
last argument is cut. -/
theorem setCall_summary :
    ∃ string, convertArgsToString setCall.function setCall.args =
        some string ∧ string.length = argsMaxLen ∧
      Block.cString string = some (Block.ofString
        "set user:1,array(2),The name of a user that is too l...,864...") := by
  obtain ⟨string, text, summed, length, read, same, -⟩ :=
    convertArgsToString_summary setCall
  have cut : summarize (Block.ofString "...")
      (callText setCall.function setCall.args) = Block.ofString
        "set user:1,array(2),The name of a user that is too l...,864..." := by
    decide
  exact ⟨string, summed, length, read.trans (congrArg some (same.trans cut))⟩

/-! The text of `Interceptor.convertArgsToString` is cut the same way. -/

theorem toList_strncat (text added : String) (count : Nat) :
    (strncat text added count).toList =
      text.toList ++ added.toList.take count := by
  rw [strncat, if_neg (by omega), String.toList_append, copyToField,
    String.toList_ofList, Int.toNat_natCast]

theorem length_append_eq (text added : String) :
    (text ++ added).length = text.length + added.length := by
  rw [← String.length_toList, String.toList_append, List.length_append,
    String.length_toList, String.length_toList]

theorem toList_appendArgs (reprText : Php.Zval → String)
    (args : List Php.Zval) {text : String} (short : text.length ≤ 59) :
    (Intercept.appendArgs reprText text text.length args).toList =
      summarize "...".toList (text.toList ++
        (args.map fun arg => (reprText arg).toList ++ [',']).flatten) := by
  induction args generalizing text with
  | nil =>
      rw [List.map_nil, List.flatten_nil, List.append_nil, summarize,
        if_pos (by rw [String.length_toList]; exact short)]
      rfl
  | cons arg args induction =>
      rw [Intercept.appendArgs, List.map_cons, List.flatten_cons]
      dsimp only
      split
      · rename_i long
        simp only [Intercept.argsRealLen] at long
        have room : Intercept.argsRealLen - (text.length : Int) - 1 =
            ((59 - text.length : Nat) : Int) := by
          simp only [Intercept.argsRealLen]
          omega
        rw [room, List.append_assoc (reprText arg).toList,
          summarize_of_long (by rw [String.length_toList]; exact short)
            (by simp only [String.length_toList]; omega) (by simp),
          toList_cutToBuffer, String.length_toList]
        have cut := toList_strncat text (reprText arg) (59 - text.length)
        have dots := toList_strncat
          (strncat text (reprText arg) ((59 - text.length : Nat) : Int))
          argsEllipsis 3
        rw [cut] at dots
        refine (congrArg (List.take _) dots).trans ?_
        rw [List.take_of_length_le]
        · rfl
        · simp only [List.length_append, List.length_take, String.length_toList,
            argsEllipsis, argsMaxLen]
          omega
      · rename_i fits
        simp only [Intercept.argsRealLen] at fits
        have last : ((reprText arg).length : Int) + 1 - 1 =
            ((reprText arg).length : Nat) := by omega
        have whole : strncat (strncat text (reprText arg)
            ((reprText arg).length + 1 - 1)) "," 1 =
              text ++ reprText arg ++ "," := by
          rw [last, ← String.toList_inj]
          have comma := toList_strncat
            (strncat text (reprText arg) ((reprText arg).length : Nat)) "," 1
          apply comma.trans
          rw [toList_strncat, ← String.length_toList, List.take_length]
          simp
        have length : (text.length : Int) + ((reprText arg).length + 1) =
            ((text ++ reprText arg ++ ",").length : Nat) := by
          rw [length_append_eq, length_append_eq]
          rfl
        rw [whole, length, induction]
        · simp
        · rw [length] at fits
          omega

theorem toList_convertArgsToString (pit : Interceptor) (frame : Frame)
    (short : frame.function.length ≤ 58) :
    (pit.convertArgsToString frame).toList =
      summarize "...".toList (frame.function.toList ++ [' '] ++
        (frame.args.map fun arg =>
          (pit.reprZval arg).toList ++ [',']).flatten) := by
  have named : strncat (strncat "" frame.function (-1)) " " 1 =
      frame.function ++ " " := by
    have space := toList_strncat (strncat "" frame.function (-1)) " " 1
    rw [← String.toList_inj]
    apply space.trans
    rw [strncat, if_pos (by decide)]
    simp
  have length : (frame.function.length : Int) + 1 =
      ((frame.function ++ " ").length : Nat) := by
    rw [length_append_eq]
    rfl
  rw [Interceptor.convertArgsToString, named, length, toList_appendArgs]
  · simp
  · rw [length_append_eq, show " ".length = 1 from rfl]
    omega

end Molten.Intercept.ArgsSummary
