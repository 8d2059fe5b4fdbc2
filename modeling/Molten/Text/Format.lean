import Mathlib.Data.List.Count
import Molten.Text.Block

namespace Molten.Text.Format

/-! The texts that `printf` and its kin make of a format and its arguments.
There is none where the standard leaves the result undefined. -/

/-- A conversion specification, with the numbers that a `*` in it stands
for. -/
structure Spec where
  flags : Block
  width : Nat
  precision : Option Nat
  modifier : Block
  conversion : UInt8
  deriving DecidableEq, Repr

/-- An argument: the number that a `*` reads, and the text that a conversion
makes of it. -/
structure Arg where
  amount : Option Int
  convert : Spec → Option Block

def percent : UInt8 := 37

def isFlag (byte : UInt8) : Bool := byte ∈ Block.ofString "-+ #0"

def isModifier (byte : UInt8) : Bool := byte ∈ Block.ofString "hljztL"

def isInner (byte : UInt8) : Bool :=
  isFlag byte || Block.isDigit byte || isModifier byte ||
    byte ∈ Block.ofString ".*"

def number (digits : Block) : Nat :=
  digits.foldl (fun value digit => 10 * value + (digit.toNat - 48)) 0

/-- A width or a precision, if there is one, and what follows it. -/
def readAmount (text : Block) (args : List Arg) :
    Option (Option Int × Block × List Arg) :=
  match text, args with
  | 42 :: text, arg :: args =>
      arg.amount.map fun amount => (some amount, text, args)
  | 42 :: _, [] => none
  | text, args =>
      if (text.takeWhile Block.isDigit).isEmpty then some (none, text, args)
      else
        some (some (number (text.takeWhile Block.isDigit)),
          text.dropWhile Block.isDigit, args)

/-- A `.` with nothing behind it is a precision of zero, and a negative one is
none. -/
def readPrecision (text : Block) (args : List Arg) :
    Option (Option Nat × Block × List Arg) :=
  match text with
  | 46 :: text =>
      (readAmount text args).map fun read =>
        match read.1 with
        | none => (some 0, read.2)
        | some (.ofNat amount) => (some amount, read.2)
        | some (.negSucc _) => (none, read.2)
  | text => some (none, text, args)

/-- A negative width is a `-` and a width. -/
def readSpec (inner : Block) (conversion : UInt8) (args : List Arg) :
    Option (Spec × List Arg) := do
  let flags := inner.takeWhile isFlag
  let (width, text, args) ← readAmount (inner.dropWhile isFlag) args
  let (precision, modifier, args) ← readPrecision text args
  if modifier.all isModifier then
    match width.getD 0 with
    | .ofNat width =>
        some (⟨flags, width, precision, modifier, conversion⟩, args)
    | .negSucc width =>
        some (⟨45 :: flags, width + 1, precision, modifier, conversion⟩, args)
  else none

def convert (inner : Block) (conversion : UInt8) (args : List Arg) :
    Option (Block × List Arg) :=
  if conversion = percent then
    if inner.isEmpty then some ([percent], args) else none
  else
    match readSpec inner conversion args with
    | some (spec, arg :: args) => (arg.convert spec).map fun out => (out, args)
    | _ => none

/-- The text of a format, of which the specification that is being read may
have begun before.  Arguments that are left over are ignored. -/
def format : Option Block → Block → List Arg → Option Block
  | none, [], _ => some []
  | some _, [], _ => none
  | none, byte :: text, args =>
      if byte = percent then format (some []) text args
      else (format none text args).map (byte :: ·)
  | some inner, byte :: text, args =>
      if isInner byte then format (some (inner ++ [byte])) text args
      else
        match convert inner byte args with
        | some (out, args) => (format none text args).map (out ++ ·)
        | none => none

/-! Arguments. -/

def pad (spec : Spec) (text : Block) : Block :=
  if 45 ∈ spec.flags then text ++ List.replicate (spec.width - text.length) 32
  else List.replicate (spec.width - text.length) 32 ++ text

def Arg.string (text : Block) : Arg where
  amount := none
  convert spec :=
    if spec.conversion = 115 ∧ spec.modifier = [] ∧ 35 ∉ spec.flags ∧
        48 ∉ spec.flags then
      some (pad spec (text.take (spec.precision.getD text.length)))
    else none

def decimal (value : Nat) : Block :=
  (Nat.toDigits 10 value).map fun digit => UInt8.ofNat digit.toNat

/-- An `int` that is not negative, in its decimal conversions. -/
def Arg.int (value : Nat) : Arg where
  amount := some value
  convert spec :=
    let sign : Block :=
      if 43 ∈ spec.flags then [43] else if 32 ∈ spec.flags then [32] else []
    let digits : Block :=
      if value = 0 ∧ spec.precision = some 0 then [] else decimal value
    let zeros :=
      match spec.precision with
      | some precision => precision - digits.length
      | none =>
          if 48 ∈ spec.flags ∧ 45 ∉ spec.flags then
            spec.width - sign.length - digits.length
          else 0
    if spec.conversion ∈ Block.ofString "di" ∧ spec.modifier = [] ∧
        35 ∉ spec.flags then
      some (pad spec (sign ++ (List.replicate zeros 48 ++ digits)))
    else none

/-- `NULL`, which only `%p` may print. -/
def Arg.null : Arg where
  amount := none
  convert spec :=
    if spec.conversion = 112 ∧ spec.modifier = [] ∧ spec.precision = none ∧
        spec.flags.all (· == 45) then
      some (pad spec (Block.ofString "(nil)"))
    else none

/-- No conversion puts a percent sign into the text. -/
def Arg.Plain (arg : Arg) : Prop :=
  ∀ spec out, arg.convert spec = some out → percent ∉ out

/-! Conversions of strings and numbers. -/

theorem convert_string (text : Block) (args : List Arg) :
    convert [] 115 (.string text :: args) = some (text, args) := by
  have read : readSpec [] 115 (.string text :: args) =
      some (⟨[], 0, none, [], 115⟩, .string text :: args) := rfl
  rw [convert, if_neg (by decide), read]
  simp [Arg.string, pad]

/-- `%-5s` -/
theorem convert_string_left (text : Block) (args : List Arg) :
    convert [45, 53] 115 (.string text :: args) =
      some (text ++ List.replicate (5 - text.length) 32, args) := by
  have read : readSpec [45, 53] 115 (.string text :: args) =
      some (⟨[45], 5, none, [], 115⟩, .string text :: args) := rfl
  rw [convert, if_neg (by decide), read]
  simp [Arg.string, pad]

theorem convert_int (value : Nat) (args : List Arg) :
    convert [] 100 (.int value :: args) = some (decimal value, args) := by
  have read : readSpec [] 100 (.int value :: args) =
      some (⟨[], 0, none, [], 100⟩, .int value :: args) := rfl
  have known : (100 : UInt8) ∈ Block.ofString "di" := by decide
  rw [convert, if_neg (by decide), read]
  simp [Arg.int, pad, known]

/-! Formats without a specification. -/

theorem format_append {text : Block} (absent : percent ∉ text) (rest : Block)
    (args : List Arg) :
    format none (text ++ rest) args =
      (format none rest args).map (text ++ ·) := by
  induction text with
  | nil => simp
  | cons byte text induction =>
      have differs : byte ≠ percent := by
        intro same
        exact absent (same ▸ List.mem_cons_self)
      have behind : percent ∉ text := by
        intro member
        exact absent (List.mem_cons_of_mem byte member)
      rw [List.cons_append, format, if_neg differs, induction behind,
        Option.map_map]
      rfl

theorem format_plain {text : Block} (absent : percent ∉ text)
    (args : List Arg) : format none text args = some text := by
  have whole := format_append absent [] args
  rwa [List.append_nil, format, Option.map_some, List.append_nil] at whole

/-- A text up to its first `%s`. -/
theorem format_string {before : Block} (absent : percent ∉ before)
    (text rest : Block) (args : List Arg) :
    format none (before ++ (37 :: 115 :: rest)) (.string text :: args) =
      (format none rest args).map fun out => before ++ (text ++ out) := by
  have string : isInner 115 = false := by decide
  rw [format_append absent, format, if_pos percent.eq_def.symm, format, string]
  simp [convert_string, Function.comp_def]

theorem format_int {before : Block} (absent : percent ∉ before) (value : Nat)
    (rest : Block) (args : List Arg) :
    format none (before ++ (37 :: 100 :: rest)) (.int value :: args) =
      (format none rest args).map fun out =>
        before ++ (decimal value ++ out) := by
  have int : isInner 100 = false := by decide
  rw [format_append absent, format, if_pos percent.eq_def.symm, format, int]
  simp [convert_int, Function.comp_def]

/-! The percent signs of a text. -/

theorem readAmount_suffix {text : Block} {args : List Arg}
    {read : Option Int × Block × List Arg}
    (done : readAmount text args = some read) : read.2.2 <:+ args := by
  unfold readAmount at done
  split at done
  · obtain ⟨amount, -, rfl⟩ := Option.map_eq_some_iff.mp done
    exact List.suffix_cons _ _
  · cases done
  · split at done
    · cases done
      exact List.suffix_rfl
    · cases done
      exact List.suffix_rfl

theorem readPrecision_suffix {text : Block} {args : List Arg}
    {read : Option Nat × Block × List Arg}
    (done : readPrecision text args = some read) : read.2.2 <:+ args := by
  unfold readPrecision at done
  split at done
  · obtain ⟨amount, taken, rfl⟩ := Option.map_eq_some_iff.mp done
    have suffix := readAmount_suffix taken
    split
    · exact suffix
    · exact suffix
    · exact suffix
  · cases done
    exact List.suffix_rfl

theorem readSpec_suffix {inner : Block} {conversion : UInt8}
    {args : List Arg} {read : Spec × List Arg}
    (done : readSpec inner conversion args = some read) :
    read.2 <:+ args := by
  unfold readSpec at done
  obtain ⟨⟨width, text, behind⟩, widthRead, done⟩ :=
    Option.bind_eq_some_iff.mp done
  obtain ⟨⟨precision, modifier, left⟩, precisionRead, done⟩ :=
    Option.bind_eq_some_iff.mp done
  have suffix : left <:+ args := (readPrecision_suffix precisionRead).trans
    (readAmount_suffix widthRead)
  dsimp only at done
  split at done
  · split at done
    · cases done
      exact suffix
    · cases done
      exact suffix
  · cases done

theorem convert_spec {inner : Block} {conversion : UInt8} {args left : List Arg}
    {out : Block}
    (done : convert inner conversion args = some (out, left)) :
    (conversion = percent ∧ out = [percent] ∧ left = args) ∨
      ∃ arg spec, arg ∈ args ∧ left <:+ args ∧ arg.convert spec = some out := by
  unfold convert at done
  split at done
  · split at done
    · cases done
      exact Or.inl ⟨‹_›, rfl, rfl⟩
    · cases done
  · split at done
    · rename_i spec arg rest read
      have suffix : arg :: rest <:+ args := readSpec_suffix read
      have behind := (List.suffix_cons arg rest).trans suffix
      obtain ⟨text, converted, same⟩ := Option.map_eq_some_iff.mp done
      cases same
      exact Or.inr ⟨arg, spec, suffix.subset List.mem_cons_self, behind,
        converted⟩
    · cases done

theorem count_format_le {text : Block} {inner : Option Block}
    {args : List Arg} (plain : ∀ arg ∈ args, arg.Plain) {out : Block}
    (formatted : format inner text args = some out) :
    out.count percent ≤ text.count percent := by
  induction text generalizing inner args out with
  | nil =>
      cases inner with
      | none =>
          cases formatted
          exact Nat.le_refl _
      | some inner => cases formatted
  | cons byte text induction =>
      cases inner with
      | none =>
          rw [format] at formatted
          split at formatted
          · exact (induction plain formatted).trans
              (List.count_le_count_cons ..)
          · obtain ⟨behind, done, rfl⟩ := Option.map_eq_some_iff.mp formatted
            have bound := induction plain done
            rw [List.count_cons, List.count_cons]
            exact Nat.add_le_add_right bound _
      | some inner =>
          rw [format] at formatted
          split at formatted
          · exact (induction plain formatted).trans
              (List.count_le_count_cons ..)
          · split at formatted
            · rename_i piece left converted
              obtain ⟨behind, done, rfl⟩ := Option.map_eq_some_iff.mp formatted
              rw [List.count_append]
              rcases convert_spec converted with
                ⟨rfl, rfl, rfl⟩ | ⟨arg, spec, member, suffix, converted⟩
              · have bound := induction plain done
                rw [List.count_singleton_self, List.count_cons_self]
                exact (Nat.add_comm 1 _).trans_le (Nat.succ_le_succ bound)
              · have bound := induction
                  (fun other within => plain other (suffix.subset within)) done
                have none_in := List.count_eq_zero.mpr
                  (plain arg member spec piece converted)
                have more := @List.count_le_count_cons _ _ percent byte text
                omega
            · cases formatted

/-- A text stands for itself just when it has no percent sign. -/
theorem format_eq_self_iff {text : Block} {args : List Arg}
    (plain : ∀ arg ∈ args, arg.Plain) :
    format none text args = some text ↔ percent ∉ text := by
  constructor
  · intro same present
    obtain ⟨rest, split⟩ := Block.eq_takeWhile_append present
    have before := Block.notMem_takeWhile percent text
    rw [split, format_append before, format, if_pos rfl] at same
    obtain ⟨behind, done, joined⟩ := Option.map_eq_some_iff.mp same
    have bound := count_format_le plain done
    rw [List.append_cancel_left joined, List.count_cons_self] at bound
    omega
  · intro absent
    exact format_plain absent args

/-! Texts that are printed. -/

theorem isDigit_of_mem_decimal {value : Nat} {byte : UInt8}
    (member : byte ∈ decimal value) : Block.isDigit byte = true := by
  obtain ⟨digit, within, rfl⟩ := List.mem_map.mp member
  have digital := Nat.isDigit_of_mem_toDigits (by decide) (by decide) within
  have bounds : 48 ≤ digit.toNat ∧ digit.toNat ≤ 57 := by
    simpa [Char.isDigit, UInt32.le_iff_toNat_le] using digital
  have code : (UInt8.ofNat digit.toNat).toNat = digit.toNat := by
    rw [UInt8.toNat_ofNat', Nat.mod_eq_of_lt (by omega)]
  simp [Block.isDigit, UInt8.le_iff_toNat_le, code, bounds]

theorem notMem_decimal {byte : UInt8} (other : Block.isDigit byte = false)
    (value : Nat) : byte ∉ decimal value := by
  intro member
  rw [isDigit_of_mem_decimal member] at other
  cases other

theorem percent_notMem_pad {spec : Spec} {text : Block}
    (absent : percent ∉ text) : percent ∉ pad spec text := by
  have blanks : percent ∉ List.replicate (spec.width - text.length) 32 := by
    intro member
    exact absurd (List.eq_of_mem_replicate member) (by decide)
  rw [pad]
  split
  · simp [absent, blanks]
  · simp [absent, blanks]

theorem plain_null : Arg.null.Plain := by
  intro spec out converted
  rw [Arg.null] at converted
  dsimp only at converted
  split at converted
  · cases converted
    exact percent_notMem_pad (by decide)
  · cases converted

end Molten.Text.Format
