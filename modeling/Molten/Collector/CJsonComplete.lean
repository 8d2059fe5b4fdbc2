import Molten.Collector.CJson

namespace Molten.Collector.CJson

open Molten.Text

/-! Every JSON text without an escaped NUL is read as the value it stands
for. -/

/-- The value was made of what stands before the rest. -/
def Reads {α : Type} {text : Block} (result : Except Failure (α × Rest text))
    (value : α) (behind : Block) : Prop :=
  ∃ rest : Rest text, result = .ok (value, rest) ∧ rest.behind = behind

/-! Spaces. -/

theorem le_of_isBlank {byte : UInt8} (blank : Json.isBlank byte = true) :
    (decide (0 < byte) && decide (byte ≤ 32)) = true := by
  have known : ∀ other ∈ ([32, 9, 10, 13] : Block),
      (decide (0 < other) && decide (other ≤ 32)) = true :=
    Block.forall_of_all rfl
  exact known byte (of_decide_eq_true blank)

theorem skip_blank {blank : Block} (blanks : Json.Blank blank)
    (rest : Block) : skip (blank ++ rest) = skip rest := by
  induction blank with
  | nil => rfl
  | cons byte blank induction =>
      have first := blanks byte List.mem_cons_self
      rw [List.cons_append, skip, List.dropWhile_cons_of_pos]
      · exact induction fun other member =>
          blanks other (List.mem_cons_of_mem byte member)
      · exact le_of_isBlank first

theorem skip_cons {byte : UInt8} (visible : 32 < byte) (rest : Block) :
    skip (byte :: rest) = byte :: rest := by
  refine List.dropWhile_cons_of_neg ?_
  simp only [Bool.and_eq_true, decide_eq_true_eq, not_and, UInt8.not_le]
  exact fun _ => visible

/-! Strings. -/

theorem hexDigit_plain {byte : UInt8} {digit : Nat}
    (known : Json.hexDigit byte = some digit) :
    byte ≠ 34 ∧ byte ≠ 0 ∧ byte ≠ 92 := by
  refine ⟨?_, ?_, ?_⟩ <;> rintro rfl <;> cases known

theorem mem_hexDigits {digits : Block} {value code : Nat}
    (number : digits.foldlM (fun value digit =>
      (Json.hexDigit digit).map (16 * value + ·)) value = some code) :
    ∀ byte ∈ digits, byte ≠ 34 ∧ byte ≠ 0 ∧ byte ≠ 92 := by
  induction digits generalizing value with
  | nil => simp
  | cons byte digits induction =>
      rw [List.foldlM_cons] at number
      obtain ⟨next, first, others⟩ := Option.bind_eq_some_iff.mp number
      obtain ⟨digit, known, -⟩ := Option.map_eq_some_iff.mp first
      intro other member
      rcases List.mem_cons.mp member with rfl | member
      · exact hexDigit_plain known
      · exact induction others other member

theorem stringRoom_plain {byte : UInt8} (quote : byte ≠ 34) (nul : byte ≠ 0)
    (backslash : byte ≠ 92) (text : Block) :
    stringRoom (byte :: text) = (stringRoom text).map (· + 1) := by
  rw [stringRoom.eq_4 byte text (fun same => (backslash same).elim)
    (fun _ _ same => (backslash same).elim), if_neg (by simp [quote, nul])]

theorem stringRoom_append {inner : Block}
    (plain : ∀ byte ∈ inner, byte ≠ 34 ∧ byte ≠ 0 ∧ byte ≠ 92) {rest : Block}
    {room : Nat} (behind : stringRoom rest = .ok room) :
    stringRoom (inner ++ rest) = .ok (room + inner.length) := by
  induction inner with
  | nil => exact behind
  | cons byte inner induction =>
      obtain ⟨quote, nul, backslash⟩ := plain byte List.mem_cons_self
      rw [List.cons_append, stringRoom_plain quote nul backslash, induction]
      · rfl
      · exact fun other member => plain other (List.mem_cons_of_mem byte member)

theorem stringRoom_escape (letter : UInt8) {text : Block} {room : Nat}
    (behind : stringRoom text = .ok room) :
    stringRoom (92 :: letter :: text) = .ok (room + 1) := by
  rw [stringRoom, behind]
  rfl

theorem stringRoom_chars {decoded written : Block}
    (chars : Json.Chars decoded written) (rest : Block) :
    ∃ room, stringRoom (written ++ 34 :: rest) = .ok room ∧
      decoded.length ≤ room := by
  induction chars with
  | nil => exact ⟨0, rfl, Nat.le_refl _⟩
  | @plain decoded written byte printable quote backslash chars induction =>
      obtain ⟨room, known, bound⟩ := induction
      refine ⟨room + 1, ?_, Nat.succ_le_succ bound⟩
      have nul : byte ≠ 0 := by
        rintro rfl
        exact absurd printable (by decide)
      rw [List.cons_append, stringRoom_plain quote nul backslash, known]
      rfl
  | @escape decoded written letter byte known chars induction =>
      obtain ⟨room, behind, bound⟩ := induction
      exact ⟨room + 1, stringRoom_escape letter behind,
        Nat.succ_le_succ bound⟩
  | @unicode decoded written digits code four number single chars induction =>
      obtain ⟨room, behind, bound⟩ := induction
      have short := Json.length_utf8_le code
      refine ⟨room + digits.length + 1, ?_, ?_⟩
      · rw [List.cons_append, List.cons_append, List.append_assoc]
        exact stringRoom_escape 117
          (stringRoom_append (mem_hexDigits number) behind)
      · rw [List.length_append]
        omega
  | @pair decoded written digits others high low four number others_four other
      first second chars induction =>
      obtain ⟨room, behind, bound⟩ := induction
      have short := Json.length_utf8_le
        (0x10000 + 0x400 * (high - 0xD800) + (low - 0xDC00))
      refine ⟨room + others.length + 1 + digits.length + 1, ?_, ?_⟩
      · simp only [List.cons_append, List.append_assoc]
        exact stringRoom_escape 117
          (stringRoom_append (mem_hexDigits number)
            (stringRoom_escape 117
              (stringRoom_append (mem_hexDigits other) behind)))
      · rw [List.length_append]
        omega

theorem parseHex_of_foldlM {digits : Block} {value code : Nat}
    (number : digits.foldlM (fun value digit =>
      (Json.hexDigit digit).map (16 * value + ·)) value = some code)
    (rest : Block) :
    parseHex digits.length value (digits ++ rest) = .ok code := by
  induction digits generalizing value with
  | nil =>
      cases number
      rfl
  | cons byte digits induction =>
      rw [List.foldlM_cons] at number
      obtain ⟨next, first, others⟩ := Option.bind_eq_some_iff.mp number
      obtain ⟨digit, known, rfl⟩ := Option.map_eq_some_iff.mp first
      simp only [List.length_cons, List.cons_append, parseHex, known]
      exact induction others

theorem parseHex4_of_hexNumber {digits : Block} {code : Nat}
    (four : digits.length = 4) (number : Json.hexNumber digits = some code)
    (rest : Block) : parseHex4 (digits ++ rest) = .ok code := by
  rw [parseHex4, ← four]
  exact parseHex_of_foldlM number rest

theorem parseUnicode_single {digits : Block} {code : Nat}
    (four : digits.length = 4) (number : Json.hexNumber digits = some code)
    (single : code < 0xD800 ∨ 0xE000 ≤ code) (nonzero : code ≠ 0)
    (rest : Block) :
    parseUnicode (digits ++ rest) = .ok (Json.utf8 code, 4) := by
  rw [parseUnicode, parseHex4_of_hexNumber four number rest]
  change (if _ then _ else _) = _
  rw [if_neg (by omega), if_neg (by omega)]

theorem parseUnicode_pair {digits others : Block} {high low : Nat}
    (four : digits.length = 4) (number : Json.hexNumber digits = some high)
    (others_four : others.length = 4)
    (other : Json.hexNumber others = some low)
    (first : 0xD800 ≤ high ∧ high < 0xDC00)
    (second : 0xDC00 ≤ low ∧ low < 0xE000) (rest : Block) :
    parseUnicode (digits ++ 92 :: 117 :: (others ++ rest)) =
      .ok (Json.utf8 (0x10000 + 0x400 * (high - 0xD800) + (low - 0xDC00)),
        10) := by
  rw [parseUnicode, parseHex4_of_hexNumber four number]
  change (if _ then _ else _) = _
  rw [if_neg (by omega), if_pos first, ← four, List.drop_left]
  change (parseHex4 (others ++ rest) >>= _) = _
  rw [parseHex4_of_hexNumber others_four other]
  change (if _ then _ else _) = _
  rw [if_pos second]

theorem unescaped_of_mem {letter byte : UInt8}
    (known : (letter, byte) ∈ Json.escapes) :
    unescaped letter = byte ∧ letter ≠ 117 := by
  have each : ∀ entry ∈ Json.escapes,
      unescaped entry.1 = entry.2 ∧ entry.1 ≠ 117 :=
    Block.forall_of_all rfl
  exact each (letter, byte) known

theorem unescape_unicode {text written decoded rest : Block} {passed : Nat}
    (first : parseUnicode text = .ok (written, passed))
    (others : unescape (text.drop passed) = .ok (decoded, rest)) :
    unescape (92 :: 117 :: text) = .ok (written ++ decoded, rest) := by
  rw [unescape, if_pos rfl, first]
  change (unescape (text.drop passed) >>= _) = _
  rw [others]
  rfl

theorem zero_mem_utf8 : (0 : UInt8) ∈ Json.utf8 0 := by decide

/-- Up to the quote behind them, the characters of a string stand for the
same bytes for the parser, unless one of these is a NUL. -/
theorem unescape_chars {decoded written : Block}
    (chars : Json.Chars decoded written) (noNul : (0 : UInt8) ∉ decoded)
    (rest : Block) :
    unescape (written ++ 34 :: rest) = .ok (decoded, 34 :: rest) := by
  induction chars with
  | nil =>
      rw [List.nil_append, unescape.eq_4 34 rest (by simp) (by simp)]
      rfl
  | @plain decoded written byte printable quote backslash chars induction =>
      simp only [List.mem_cons, not_or] at noNul
      rw [List.cons_append,
        unescape.eq_4 byte _ (fun same => (backslash same).elim)
          (fun _ _ same => (backslash same).elim),
        if_neg (by simp [quote, Ne.symm noNul.1]), induction noNul.2]
      rfl
  | @escape decoded written letter byte known chars induction =>
      simp only [List.mem_cons, not_or] at noNul
      obtain ⟨stands, other⟩ := unescaped_of_mem known
      rw [List.cons_append, List.cons_append, unescape, if_neg other,
        induction noNul.2, stands]
      rfl
  | @unicode decoded written digits code four number single chars induction =>
      simp only [List.mem_append, not_or] at noNul
      have nonzero : code ≠ 0 := by
        rintro rfl
        exact noNul.1 zero_mem_utf8
      simp only [List.cons_append, List.append_assoc]
      refine unescape_unicode
        (parseUnicode_single four number single nonzero _) ?_
      rw [← four, List.drop_left]
      exact induction noNul.2
  | @pair decoded written digits others high low four number others_four other
      first second chars induction =>
      simp only [List.mem_append, not_or] at noNul
      simp only [List.cons_append, List.append_assoc]
      refine unescape_unicode (parseUnicode_pair four number others_four other
        first second _) ?_
      have passed : (digits ++ 92 :: 117 :: (others ++
          (written ++ 34 :: rest))).drop 10 = written ++ 34 :: rest := by
        have length : (digits ++ 92 :: 117 :: others).length = 10 := by
          simp [four, others_four]
        rw [← length]
        simp
      rw [passed]
      exact induction noNul.2

theorem parseString_chars {decoded written : Block}
    (chars : Json.Chars decoded written) (noNul : (0 : UInt8) ∉ decoded)
    (rest : Block) :
    Reads (parseString (34 :: (written ++ 34 :: rest))) decoded rest := by
  obtain ⟨room, known, fits⟩ := stringRoom_chars chars rest
  have inside := unescape_chars chars noNul rest
  unfold parseString
  simp only [if_true, known]
  split
  · rename_i failed
    cases inside.symm.trans failed
  · rename_i found left done
    cases inside.symm.trans done
    rw [if_pos fits]
    exact ⟨_, congrArg Except.ok (congrArg (·, _)
      (Block.takeWhile_absent noNul)), dropByte_self 34 rest⟩

/-! Numbers. -/

/-- What stands behind a value: a space, a separator or the end. -/
def Follows (rest : Block) : Prop :=
  ∃ byte more, rest = byte :: more ∧
    byte ∈ ([0, 9, 10, 13, 32, 44, 93, 125] : Block)

theorem follows_cons {byte : UInt8} (more : Block)
    (stop : byte ∈ ([0, 9, 10, 13, 32, 44, 93, 125] : Block)) :
    Follows (byte :: more) := ⟨byte, more, rfl, stop⟩

theorem follows_blank {blank : Block} (blanks : Json.Blank blank)
    {rest : Block} (follows : Follows rest) : Follows (blank ++ rest) := by
  cases blank with
  | nil => exact follows
  | cons byte blank =>
      have known : ∀ other ∈ ([32, 9, 10, 13] : Block),
          other ∈ ([0, 9, 10, 13, 32, 44, 93, 125] : Block) :=
        Block.forall_of_all rfl
      exact follows_cons _
        (known byte (of_decide_eq_true (blanks byte List.mem_cons_self)))

/-- The text does not start with a byte of that kind. -/
def Apart (kind : UInt8 → Bool) (text : Block) : Prop :=
  ∀ byte ∈ text.head?, kind byte = false

theorem Follows.apart {rest : Block} (follows : Follows rest)
    {kind : UInt8 → Bool}
    (others : ∀ byte ∈ ([0, 9, 10, 13, 32, 44, 93, 125] : Block),
      kind byte = false) : Apart kind rest := by
  obtain ⟨byte, more, rfl, stop⟩ := follows
  intro other same
  cases same
  exact others byte stop

theorem apart_cons {kind : UInt8 → Bool} {byte : UInt8}
    (other : kind byte = false) (text : Block) : Apart kind (byte :: text) := by
  intro first same
  cases same
  exact other

theorem dropDigits_append {digits rest : Block}
    (all : ∀ byte ∈ digits, Block.isDigit byte = true)
    (apart : Apart Block.isDigit rest) :
    (digits ++ rest).dropWhile Block.isDigit = rest := by
  rw [List.dropWhile_append_of_pos all]
  cases rest with
  | nil => rfl
  | cons byte rest =>
      have other := apart byte rfl
      exact List.dropWhile_cons_of_neg (by simp [other])

theorem ne_of_isDigit {byte other : UInt8}
    (digit : Block.isDigit byte = true)
    (none : Block.isDigit other = false) : byte ≠ other := by
  rintro rfl
  cases digit.symm.trans none

theorem dropByte_digits {digits rest : Block} (some : Json.Digits digits)
    {byte : UInt8} (other : Block.isDigit byte = false) :
    dropByte byte (digits ++ rest) = digits ++ rest := by
  obtain ⟨nonempty, all⟩ := some
  cases digits with
  | nil => exact (nonempty rfl).elim
  | cons first digits =>
      exact dropByte_of_ne (ne_of_isDigit (all first List.mem_cons_self) other)
        _

theorem isDigit_of_first {byte : UInt8}
    (first : (49 ≤ byte && byte ≤ 57) = true) :
    Block.isDigit byte = true := by
  simp only [Block.isDigit, Bool.and_eq_true, decide_eq_true_eq,
    UInt8.le_iff_toNat_le] at first ⊢
  have codes : (48 : UInt8).toNat = 48 ∧ (49 : UInt8).toNat = 49 :=
    ⟨rfl, rfl⟩
  exact ⟨by omega, first.2⟩

theorem first_of_isDigit {byte : UInt8} (digit : Block.isDigit byte = true)
    (nonzero : byte ≠ 48) : (49 ≤ byte && byte ≤ 57) = true := by
  have other : byte.toNat ≠ 48 := fun same => nonzero (UInt8.toNat_inj.mp same)
  simp only [Block.isDigit, Bool.and_eq_true, decide_eq_true_eq,
    UInt8.le_iff_toNat_le] at digit ⊢
  have codes : (48 : UInt8).toNat = 48 ∧ (49 : UInt8).toNat = 49 :=
    ⟨rfl, rfl⟩
  exact ⟨by omega, digit.2⟩

theorem integerRest_append {sign integer rest : Block}
    (signed : sign = [] ∨ sign = [45]) (digits : Json.Digits integer)
    (leading : integer = [48] ∨ integer.head? ≠ some 48)
    (apart : Apart Block.isDigit rest) :
    integerRest (sign ++ (integer ++ rest)) = rest := by
  have unsigned : dropByte 45 (sign ++ (integer ++ rest)) =
      integer ++ rest := by
    rcases signed with rfl | rfl
    · exact dropByte_digits digits rfl
    · exact dropByte_self 45 _
  rw [integerRest, unsigned]
  rcases leading with rfl | leading
  · rw [List.singleton_append, dropByte_self, if_neg]
    intro first
    obtain ⟨byte, head, first⟩ := Option.any_eq_true _ _ |>.mp first
    cases (isDigit_of_first first).symm.trans (apart byte head)
  · obtain ⟨nonempty, all⟩ := digits
    cases integer with
    | nil => exact (nonempty rfl).elim
    | cons byte integer =>
        have nonzero : byte ≠ 48 := by simpa using leading
        rw [List.cons_append, dropByte_of_ne nonzero, if_pos]
        · exact dropDigits_append all apart
        · exact first_of_isDigit (all byte List.mem_cons_self) nonzero

theorem fractionRest_append {fraction rest : Block}
    (fractional : fraction = [] ∨
      ∃ behind, fraction = 46 :: behind ∧ Json.Digits behind)
    (apart : Apart Block.isDigit rest) (point : Apart (· == 46) rest) :
    fractionRest (fraction ++ rest) = .ok rest := by
  rcases fractional with rfl | ⟨behind, rfl, nonempty, all⟩
  · cases rest with
    | nil => rfl
    | cons byte rest =>
        have other : byte ≠ 46 := by simpa using point byte rfl
        rw [List.nil_append, fractionRest.eq_3]
        · exact fun same => other (List.cons.inj same).1
        · exact fun _ _ same => other (List.cons.inj same).1
  · cases behind with
    | nil => exact (nonempty rfl).elim
    | cons digit behind =>
        rw [List.cons_append, List.cons_append, fractionRest,
          if_pos (all digit List.mem_cons_self),
          dropDigits_append (fun other member =>
            all other (List.mem_cons_of_mem digit member)) apart]

theorem exponentRest_append {exponent rest : Block}
    (exponential : exponent = [] ∨
      ∃ letter sign behind, exponent = letter :: (sign ++ behind) ∧
        (letter = 69 ∨ letter = 101) ∧
        (sign = [] ∨ sign = [43] ∨ sign = [45]) ∧ Json.Digits behind)
    (apart : Apart Block.isDigit rest)
    (letter : Apart (fun byte => byte == 69 || byte == 101) rest) :
    exponentRest (exponent ++ rest) = rest := by
  rcases exponential with rfl | ⟨letter, sign, behind, rfl, known, signed,
    digits⟩
  · cases rest with
    | nil => rfl
    | cons byte rest =>
        have other : ¬ (byte = 69 ∨ byte = 101) := by
          simpa using letter byte rfl
        rw [List.nil_append, exponentRest, if_neg other]
  · rw [List.cons_append, exponentRest, if_pos known, List.append_assoc]
    have unsigned : (if (sign ++ (behind ++ rest)).head? = some 43 then
        (sign ++ (behind ++ rest)).tail
        else dropByte 45 (sign ++ (behind ++ rest))) = behind ++ rest := by
      rcases signed with rfl | rfl | rfl
      · rw [List.nil_append, if_neg, dropByte_digits digits rfl]
        obtain ⟨nonempty, all⟩ := digits
        cases behind with
        | nil => exact (nonempty rfl).elim
        | cons digit behind =>
            have other : digit ≠ 43 :=
              ne_of_isDigit (all digit List.mem_cons_self) rfl
            simpa using other
      · rfl
      · exact dropByte_self 45 _
    dsimp only
    rw [unsigned, dropDigits_append digits.2 apart]

theorem apart_exponent {exponent rest : Block}
    (exponential : exponent = [] ∨
      ∃ letter sign behind, exponent = letter :: (sign ++ behind) ∧
        (letter = 69 ∨ letter = 101) ∧
        (sign = [] ∨ sign = [43] ∨ sign = [45]) ∧ Json.Digits behind)
    {kind : UInt8 → Bool} (upper : kind 69 = false) (lower : kind 101 = false)
    (apart : Apart kind rest) : Apart kind (exponent ++ rest) := by
  rcases exponential with rfl | ⟨letter, sign, behind, rfl, known, -⟩
  · exact apart
  · rcases known with rfl | rfl
    · exact apart_cons upper _
    · exact apart_cons lower _

theorem numberRest_append {text rest : Block} (number : Json.Number text)
    (follows : Follows rest) : numberRest (text ++ rest) = .ok rest := by
  obtain ⟨signed, digits, leading, fractional, exponential⟩ := number
  rename_i sign integer fraction exponent
  have behind : Apart Block.isDigit rest :=
    follows.apart (Block.forall_of_all rfl)
  have tail : Apart Block.isDigit (exponent ++ rest) :=
    apart_exponent exponential rfl rfl behind
  have point : Apart (· == 46) (exponent ++ rest) :=
    apart_exponent exponential rfl rfl (follows.apart (Block.forall_of_all rfl))
  have integral : Apart Block.isDigit (fraction ++ (exponent ++ rest)) := by
    rcases fractional with rfl | ⟨decimals, rfl, -⟩
    · exact tail
    · exact apart_cons rfl _
  simp only [List.append_assoc]
  rw [numberRest, integerRest_append signed digits leading integral,
    fractionRest_append fractional tail point]
  obtain ⟨byte, more, rfl, stop⟩ := follows
  change (if (exponentRest (exponent ++ byte :: more)).isEmpty then _ else _) =
    _
  rw [exponentRest_append exponential behind
    ((follows_cons more stop).apart (Block.forall_of_all rfl))]
  rfl

/-! Values. -/

theorem readWords_other {byte : UInt8}
    (other : byte ≠ 110 ∧ byte ≠ 102 ∧ byte ≠ 116) (text : Block) :
    readWords words (byte :: text) = .ok none := by
  obtain ⟨n, f, t⟩ := other
  have starts : ∀ entry ∈ words,
      readWord entry.1 (byte :: text) = .ok none := by
    intro entry member
    simp only [words, List.mem_cons, List.not_mem_nil, or_false] at member
    rcases member with rfl | rfl | rfl
    · exact if_neg (Ne.symm n)
    · exact if_neg (Ne.symm f)
    · exact if_neg (Ne.symm t)
  generalize words = known at starts
  induction known with
  | nil => rfl
  | cons entry known induction =>
      rw [readWords, starts entry List.mem_cons_self]
      exact induction fun other member =>
        starts other (List.mem_cons_of_mem entry member)

theorem parseValue_word {text rest : Block} {value : Json}
    (read : readWords words text = .ok (some (value, rest))) :
    Reads (parseValue text) value rest := by
  rw [parseValue]
  split
  · rename_i failed
    cases read.symm.trans failed
  · rename_i found
    cases read.symm.trans found
    exact ⟨_, rfl, rfl⟩
  · rename_i absent
    cases read.symm.trans absent

/-- What `parse_value` does where no word stands. -/
theorem parseValue_cons {byte : UInt8} {inner : Block}
    (other : byte ≠ 110 ∧ byte ≠ 102 ∧ byte ≠ 116) :
    parseValue (byte :: inner) =
      if byte = 34 then do
        let (string, rest) ← parseString (byte :: inner)
        .ok (.string string, rest)
      else if number : byte = 45 ∨ Block.isDigit byte then
        match done : numberRest (byte :: inner) with
        | .error failure => .error failure
        | .ok rest =>
            .ok (.number ((byte :: inner).take
                ((byte :: inner).length - rest.length)),
              ⟨rest, shorter_of_numberRest number done⟩)
      else if byte = 91 then do
        let (items, rest) ← parseArray inner
        .ok (.array items, rest.trans (Nat.le_succ _))
      else if byte = 123 then do
        let (members, rest) ← parseObject inner
        .ok (.object members, rest.trans (Nat.le_succ _))
      else .error .malformed := by
  have absent := readWords_other other inner
  rw [parseValue]
  split
  · rename_i failed
    cases absent.symm.trans failed
  · rename_i found
    cases absent.symm.trans found
  · rfl

theorem Number.head {text : Block} (number : Json.Number text) :
    ∃ byte more, text = byte :: more ∧
      (byte = 45 ∨ Block.isDigit byte = true) := by
  obtain ⟨signed, ⟨nonempty, all⟩, -, -, -⟩ := number
  rename_i sign integer fraction exponent
  rcases signed with rfl | rfl
  · cases integer with
    | nil => exact (nonempty rfl).elim
    | cons byte integer =>
        exact ⟨byte, _, rfl, .inr (all byte List.mem_cons_self)⟩
  · exact ⟨45, _, rfl, .inl rfl⟩

theorem number_other {byte : UInt8}
    (number : byte = 45 ∨ Block.isDigit byte = true) :
    (byte ≠ 110 ∧ byte ≠ 102 ∧ byte ≠ 116) ∧ byte ≠ 34 ∧ 32 < byte ∧
      byte ≠ 93 := by
  rcases number with rfl | digit
  · decide
  · have above : 32 < byte := by
      simp only [Block.isDigit, Bool.and_eq_true, decide_eq_true_eq,
        UInt8.le_iff_toNat_le] at digit
      have codes : (48 : UInt8).toNat = 48 ∧ (32 : UInt8).toNat = 32 :=
        ⟨rfl, rfl⟩
      rw [UInt8.lt_iff_toNat_lt]
      omega
    exact ⟨⟨ne_of_isDigit digit rfl, ne_of_isDigit digit rfl,
      ne_of_isDigit digit rfl⟩, ne_of_isDigit digit rfl, above,
      ne_of_isDigit digit rfl⟩

theorem parseValue_number {text rest : Block} (number : Json.Number text)
    (follows : Follows rest) :
    Reads (parseValue (text ++ rest)) (.number text) rest := by
  have read := numberRest_append number follows
  obtain ⟨byte, more, rfl, first⟩ := Number.head number
  obtain ⟨other, quote, -⟩ := number_other first
  rw [List.cons_append] at read ⊢
  rw [parseValue_cons other, if_neg quote, dif_pos first]
  split
  · rename_i failed
    cases read.symm.trans failed
  · rename_i left done
    cases read.symm.trans done
    refine ⟨_, congrArg Except.ok (congrArg (·, _) ?_), rfl⟩
    have length : ((byte :: (more ++ rest)).length - rest.length) =
        (byte :: more).length := by
      simp only [List.length_cons, List.length_append]
      omega
    rw [length, ← List.cons_append, List.take_left]

theorem Value.head {value : Json} {text : Block}
    (written : Json.Value value text) :
    ∃ byte more, text = byte :: more ∧ 32 < byte ∧ byte ≠ 93 := by
  cases written with
  | null => exact ⟨110, _, rfl, by decide, by decide⟩
  | true => exact ⟨116, _, rfl, by decide, by decide⟩
  | false => exact ⟨102, _, rfl, by decide, by decide⟩
  | number written =>
      obtain ⟨byte, more, same, first⟩ := Number.head written
      obtain ⟨-, -, visible, other⟩ := number_other first
      exact ⟨byte, more, same, visible, other⟩
  | string chars => exact ⟨34, _, rfl, by decide, by decide⟩
  | array elements => exact ⟨91, _, rfl, by decide, by decide⟩
  | object fields => exact ⟨123, _, rfl, by decide, by decide⟩

theorem skip_value {value : Json} {before text : Block}
    (blanks : Json.Blank before) (written : Json.Value value text)
    (rest : Block) : skip (before ++ (text ++ rest)) = text ++ rest := by
  obtain ⟨byte, more, rfl, visible, -⟩ := Value.head written
  rw [skip_blank blanks, List.cons_append, skip_cons visible]

theorem skip_stop {blank : Block} (blanks : Json.Blank blank) {byte : UInt8}
    (visible : 32 < byte) (rest : Block) :
    skip (blank ++ byte :: rest) = byte :: rest := by
  rw [skip_blank blanks, skip_cons visible]

theorem Reads.of_skip {α : Type} {parse : (text : Block) →
    Except Failure (α × Rest text)} {text start behind : Block} {value : α}
    (skipped : skip text = start) (reads : Reads (parse start) value behind) :
    Reads (parse (skip text)) value behind := by
  rw [skipped]
  exact reads

/-! Items. -/

theorem parseItems_last {text : Block} {item : Json} {behind rest : Block}
    (first : Reads (parseValue (skip text)) item behind)
    (closed : skip behind = 93 :: rest) :
    Reads (parseItems text) [item] rest := by
  obtain ⟨left, parsed, rfl⟩ := first
  rw [parseItems, parsed]
  dsimp only [bind, Except.bind]
  split
  · rename_i read
    cases closed.symm.trans read
  · rename_i separator more read
    cases closed.symm.trans read
    rw [if_neg (by decide), if_pos rfl]
    exact ⟨_, rfl, rfl⟩

theorem parseItems_cons {text : Block} {item : Json} {items : List Json}
    {behind others rest : Block}
    (first : Reads (parseValue (skip text)) item behind)
    (comma : skip behind = 44 :: others)
    (next : Reads (parseItems others) items rest) :
    Reads (parseItems text) (item :: items) rest := by
  obtain ⟨left, parsed, rfl⟩ := first
  obtain ⟨last, done, rfl⟩ := next
  rw [parseItems, parsed]
  dsimp only [bind, Except.bind]
  split
  · rename_i read
    cases comma.symm.trans read
  · rename_i separator more read
    cases comma.symm.trans read
    rw [if_pos rfl, done]
    exact ⟨_, rfl, rfl⟩

theorem parseArray_items {inner : Block} {items : List Json} {rest : Block}
    {byte : UInt8} {more : Block} (start : skip inner = byte :: more)
    (other : byte ≠ 93) (reads : Reads (parseItems inner) items rest) :
    Reads (parseArray inner) items rest := by
  rw [parseArray]
  split
  · rename_i read
    cases start.symm.trans read
    exact (other rfl).elim
  · exact reads

theorem parseArray_nil {inner rest : Block} (start : skip inner = 93 :: rest) :
    Reads (parseArray inner) [] rest := by
  rw [parseArray]
  split
  · rename_i read
    cases start.symm.trans read
    exact ⟨_, rfl, rfl⟩
  · rename_i other
    exact (other rest start).elim

theorem parseMembers_last {text : Block} {name : Block} {item : Json}
    {between start behind rest : Block}
    (named : Reads (parseString (skip text)) name between)
    (colon : skip between = 58 :: start)
    (first : Reads (parseValue (skip start)) item behind)
    (closed : skip behind = 125 :: rest) :
    Reads (parseMembers text) [(name, item)] rest := by
  obtain ⟨left, known, rfl⟩ := named
  obtain ⟨last, parsed, rfl⟩ := first
  rw [parseMembers, known]
  dsimp only [bind, Except.bind]
  split
  · rename_i read
    cases colon.symm.trans read
  · rename_i separator more read
    cases colon.symm.trans read
    rw [if_pos rfl, parsed]
    dsimp only
    split
    · rename_i ended
      cases closed.symm.trans ended
    · rename_i separator more ended
      cases closed.symm.trans ended
      rw [if_neg (by decide), if_pos rfl]
      exact ⟨_, rfl, rfl⟩

theorem parseMembers_cons {text : Block} {name : Block} {item : Json}
    {members : List (Block × Json)} {between start behind others rest : Block}
    (named : Reads (parseString (skip text)) name between)
    (colon : skip between = 58 :: start)
    (first : Reads (parseValue (skip start)) item behind)
    (comma : skip behind = 44 :: others)
    (next : Reads (parseMembers others) members rest) :
    Reads (parseMembers text) ((name, item) :: members) rest := by
  obtain ⟨left, known, rfl⟩ := named
  obtain ⟨last, parsed, rfl⟩ := first
  obtain ⟨final, done, rfl⟩ := next
  rw [parseMembers, known]
  dsimp only [bind, Except.bind]
  split
  · rename_i read
    cases colon.symm.trans read
  · rename_i separator more read
    cases colon.symm.trans read
    rw [if_pos rfl, parsed]
    dsimp only
    split
    · rename_i ended
      cases comma.symm.trans ended
    · rename_i separator more ended
      cases comma.symm.trans ended
      rw [if_pos rfl, done]
      exact ⟨_, rfl, rfl⟩

theorem parseObject_members {inner : Block} {members : List (Block × Json)}
    {rest : Block} {byte : UInt8} {more : Block}
    (start : skip inner = byte :: more) (other : byte ≠ 125)
    (reads : Reads (parseMembers inner) members rest) :
    Reads (parseObject inner) members rest := by
  rw [parseObject]
  split
  · rename_i read
    cases start.symm.trans read
    exact (other rfl).elim
  · exact reads

theorem parseObject_nil {inner rest : Block}
    (start : skip inner = 125 :: rest) : Reads (parseObject inner) [] rest := by
  rw [parseObject]
  split
  · rename_i read
    cases start.symm.trans read
    exact ⟨_, rfl, rfl⟩
  · rename_i other
    exact (other rest start).elim

theorem parseValue_string {decoded written : Block}
    (chars : Json.Chars decoded written) (noNul : (0 : UInt8) ∉ decoded)
    (rest : Block) :
    Reads (parseValue (34 :: (written ++ 34 :: rest))) (.string decoded)
      rest := by
  obtain ⟨left, parsed, behind⟩ := parseString_chars chars noNul rest
  rw [parseValue_cons (by decide), if_pos rfl, parsed]
  exact ⟨left, rfl, behind⟩

theorem parseValue_array {inner rest : Block} {items : List Json}
    (reads : Reads (parseArray inner) items rest) :
    Reads (parseValue (91 :: inner)) (.array items) rest := by
  obtain ⟨left, parsed, rfl⟩ := reads
  rw [parseValue_cons (by decide), if_neg (by decide), dif_neg (by decide),
    if_pos rfl, parsed]
  exact ⟨_, rfl, rfl⟩

theorem parseValue_object {inner rest : Block}
    {members : List (Block × Json)}
    (reads : Reads (parseObject inner) members rest) :
    Reads (parseValue (123 :: inner)) (.object members) rest := by
  obtain ⟨left, parsed, rfl⟩ := reads
  rw [parseValue_cons (by decide), if_neg (by decide), dif_neg (by decide),
    if_neg (by decide), if_pos rfl, parsed]
  exact ⟨_, rfl, rfl⟩

theorem readWords_word : ∀ entry ∈ words, ∀ rest,
    readWords words (entry.1 ++ rest) = .ok (some (entry.2, rest)) := by
  intro entry member rest
  simp only [words, List.mem_cons, List.not_mem_nil, or_false] at member
  rcases member with rfl | rfl | rfl <;> rfl

theorem skip_members {before : Block} (blanks : Json.Blank before)
    (rest : Block) : skip (before ++ 34 :: rest) = 34 :: rest :=
  skip_stop blanks (by decide) rest

theorem append_member (before written between start text tail rest : Block) :
    before ++ 34 :: (written ++ 34 :: (between ++ 58 ::
      (start ++ (text ++ tail)))) ++ rest =
    before ++ 34 :: (written ++ 34 :: (between ++ 58 ::
      (start ++ (text ++ (tail ++ rest))))) := by
  simp

/-- An array is read once its items are. -/
theorem parseArray_reads {items : List Json} {inner rest : Block}
    (elements : Json.Elements items inner)
    (reads : items ≠ [] → Reads (parseItems (inner ++ 93 :: rest)) items rest) :
    Reads (parseArray (inner ++ 93 :: rest)) items rest := by
  cases elements with
  | nil blanks => exact parseArray_nil (skip_stop blanks (by decide) rest)
  | last blank_before value blank_after =>
      obtain ⟨byte, more, rfl, -, other⟩ := Value.head value
      have start := skip_value blank_before value
      rw [List.append_assoc, List.append_assoc] at reads ⊢
      exact parseArray_items (start _) other (reads (by simp))
  | cons blank_before value blank_after others =>
      obtain ⟨byte, more, rfl, -, other⟩ := Value.head value
      have start := skip_value blank_before value
      rw [List.append_assoc, List.append_assoc] at reads ⊢
      exact parseArray_items (start _) other (reads (by simp))

theorem parseObject_reads {members : List (Block × Json)}
    {inner rest : Block} (fields : Json.Members members inner)
    (reads : members ≠ [] →
      Reads (parseMembers (inner ++ 125 :: rest)) members rest) :
    Reads (parseObject (inner ++ 125 :: rest)) members rest := by
  cases fields with
  | nil blanks => exact parseObject_nil (skip_stop blanks (by decide) rest)
  | last blank_before =>
      rw [List.append_assoc] at reads ⊢
      exact parseObject_members (skip_members blank_before _) (by decide)
        (reads (by simp))
  | cons blank_before =>
      rw [List.append_assoc] at reads ⊢
      exact parseObject_members (skip_members blank_before _) (by decide)
        (reads (by simp))

mutual

theorem parseValue_reads {value : Json} {text : Block}
    (written : Json.Value value text) (clean : value.NulFree) {rest : Block}
    (follows : Follows rest) :
    Reads (parseValue (text ++ rest)) value rest := by
  cases written with
  | null =>
      exact parseValue_word (readWords_word (Block.ofString "null", .null)
        (by simp [words]) rest)
  | true =>
      exact parseValue_word (readWords_word (Block.ofString "true", .bool true)
        (by simp [words]) rest)
  | false =>
      exact parseValue_word (readWords_word
        (Block.ofString "false", .bool false) (by simp [words]) rest)
  | number written => exact parseValue_number written follows
  | string chars =>
      rw [List.cons_append, List.append_assoc]
      exact parseValue_string chars clean rest
  | array elements =>
      rw [List.cons_append, List.append_assoc]
      exact parseValue_array (parseArray_reads elements
        fun nonempty => parseItems_reads elements clean nonempty rest)
  | object fields =>
      rw [List.cons_append, List.append_assoc]
      exact parseValue_object (parseObject_reads fields
        fun nonempty => parseMembers_reads fields clean nonempty rest)

theorem parseItems_reads {items : List Json} {inner : Block}
    (elements : Json.Elements items inner) (clean : Json.NulFreeItems items)
    (nonempty : items ≠ []) (rest : Block) :
    Reads (parseItems (inner ++ 93 :: rest)) items rest := by
  cases elements with
  | nil blanks => exact (nonempty rfl).elim
  | last blank_before value blank_after =>
      rw [List.append_assoc, List.append_assoc]
      refine parseItems_last (.of_skip (skip_value blank_before value _)
        (parseValue_reads value clean.1 ?_)) (skip_stop blank_after ?_ rest)
      · exact follows_blank blank_after (follows_cons rest (by decide))
      · decide
  | cons blank_before value blank_after others =>
      rw [List.append_assoc, List.append_assoc, List.append_assoc]
      refine parseItems_cons (.of_skip (skip_value blank_before value _)
        (parseValue_reads value clean.1 ?_)) (skip_stop blank_after ?_ _)
        (parseItems_reads others clean.2 (by simp) rest)
      · exact follows_blank blank_after (follows_cons _ (by decide))
      · decide

theorem parseMembers_reads {members : List (Block × Json)} {inner : Block}
    (fields : Json.Members members inner)
    (clean : Json.NulFreeMembers members) (nonempty : members ≠ [])
    (rest : Block) :
    Reads (parseMembers (inner ++ 125 :: rest)) members rest := by
  cases fields with
  | nil blanks => exact (nonempty rfl).elim
  | last blank_before chars blank_between blank_start value blank_after =>
      obtain ⟨named, item, -⟩ := clean
      rw [append_member]
      refine parseMembers_last
        (.of_skip (skip_members blank_before _)
          (parseString_chars chars named _))
        (skip_stop blank_between ?_ _)
        (.of_skip (skip_value blank_start value _)
          (parseValue_reads value item ?_)) (skip_stop blank_after ?_ rest)
      · decide
      · exact follows_blank blank_after (follows_cons rest (by decide))
      · decide
  | cons blank_before chars blank_between blank_start value blank_after
      others =>
      obtain ⟨named, item, behind⟩ := clean
      rw [append_member, List.append_assoc]
      refine parseMembers_cons
        (.of_skip (skip_members blank_before _)
          (parseString_chars chars named _))
        (skip_stop blank_between ?_ _)
        (.of_skip (skip_value blank_start value _)
          (parseValue_reads value item ?_)) (skip_stop blank_after ?_ _)
        (parseMembers_reads others behind (by simp) rest)
      · decide
      · exact follows_blank blank_after (follows_cons _ (by decide))
      · decide

end

theorem cJSONParse_written {before inner after : Block} {value : Json}
    (blanks : Json.Blank before) (written : Json.Value value inner)
    (tail : Json.Blank after) (clean : value.NulFree) (behind : Block) :
    cJSONParse (before ++ (inner ++ (after ++ 0 :: behind))) = .ok value := by
  have skipped := skip_value blanks written (after ++ 0 :: behind)
  have follows : Follows (after ++ 0 :: behind) :=
    follows_blank tail (follows_cons behind (by decide))
  obtain ⟨rest, parsed, -⟩ :=
    Reads.of_skip skipped (parseValue_reads written clean follows)
  rw [cJSONParse, parsed]
  rfl

/-- `cJSON_Parse` reads every JSON text of a value without NULs as that value,
whatever stands behind the NUL of the text. -/
theorem cJSONParse_of_decodes {text : Block} {value : Json}
    (decodes : Json.Decodes text value) (clean : value.NulFree)
    (behind : Block) : cJSONParse (text ++ 0 :: behind) = .ok value := by
  obtain ⟨before, inner, after, rfl, blanks, written, tail⟩ := decodes
  rw [List.append_assoc, List.append_assoc]
  exact cJSONParse_written blanks written tail clean behind

/-- `[{"\n":-1}]`, whose name is a line break, with a space in it. -/
def spacedText : Block := Block.ofString "[ \x7b\"\\n\":-1\x7d]"

theorem cJSONParse_spacedText :
    cJSONParse (spacedText ++ [0]) =
      .ok (.array [.object [([10], .number [45, 49])]]) := by
  refine cJSONParse_of_decodes ?_ (by simp [Json.NulFree, Json.NulFreeItems,
    Json.NulFreeMembers]) []
  have none : Json.Blank [] := by simp [Json.Blank]
  have space : Json.Blank [32] := by simp [Json.Blank, Json.isBlank]
  have name : Json.Chars [10] [92, 110] := .escape (by decide) .nil
  have one : Json.Number ([45] ++ ([49] ++ ([] ++ []))) :=
    .mk (.inr rfl) ⟨by decide, Block.forall_of_all rfl⟩ (.inr (by decide))
      (.inl rfl) (.inl rfl)
  have member := Json.Members.last none name none none (.number one) none
  have items := Json.Elements.last space (.object member) none
  exact ⟨[], spacedText, [], rfl, none, .array items, none⟩

end Molten.Collector.CJson
