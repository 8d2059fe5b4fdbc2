import Molten.Collector.CJsonPrint

namespace Molten.Collector.CJson

open Molten.Text

/-! `cJSON_Minify`, which writes over the text that it reads.  `none` is a read
behind the end of the block. -/

/-- What stands before `json` in the block, and how far `into` is. -/
structure Minifier where
  before : Block
  into : Nat

namespace Minifier

/-- `json++` -/
def pass (s : Minifier) (byte : UInt8) : Minifier :=
  { s with before := s.before ++ [byte] }

/-- `*into++=*json++` -/
def copy (s : Minifier) (byte : UInt8) : Minifier where
  before := (s.before ++ [byte]).set s.into byte
  into := s.into + 1

end Minifier

/-- `while (*json && *json!='\n') json++` -/
def passLine (s : Minifier) : Block → Option (Minifier × Block)
  | [] => none
  | byte :: text =>
      if byte = 0 ∨ byte = 10 then some (s, byte :: text)
      else passLine (s.pass byte) text

/-- `while (*json && !(*json=='*' && json[1]=='/')) json++;json+=2` -/
def passComment (s : Minifier) : Block → Option (Minifier × Block)
  | [] => none
  | [_] => none
  | byte :: next :: text =>
      if byte = 0 ∨ byte = 42 ∧ next = 47 then
        some ((s.pass byte).pass next, text)
      else passComment (s.pass byte) (next :: text)

def copyByte (s : Minifier) : Block → Option (Minifier × Block)
  | [] => none
  | byte :: text => some (s.copy byte, text)

/-- The loop up to the end of a string. -/
def copyChars (s : Minifier) : Block → Option (Minifier × Block)
  | [] => none
  | [byte] => if byte = 0 ∨ byte = 34 then some (s, [byte]) else none
  | byte :: next :: text =>
      if byte = 0 ∨ byte = 34 then some (s, byte :: next :: text)
      else if byte = 92 then copyChars ((s.copy byte).copy next) text
      else copyChars (s.copy byte) (next :: text)

def copyString (s : Minifier) (text : Block) :
    Option (Minifier × Block) := do
  let (s, text) ← copyByte s text
  let (s, text) ← copyChars s text
  copyByte s text

/-- A turn of the loop, at a byte that is not the NUL. -/
def minifyTurn (s : Minifier) : Block → Option (Minifier × Block)
  | [] => none
  | byte :: text =>
      if Json.isBlank byte then some (s.pass byte, text)
      else if byte = 47 then
        match text with
        | [] => none
        | next :: _ =>
            if next = 47 then passLine s (byte :: text)
            else if next = 42 then passComment s (byte :: text)
            else copyByte s (byte :: text)
      else if byte = 34 then copyString s (byte :: text)
      else copyByte s (byte :: text)

/-- No turn is without a byte that is passed, so that there are never more turns
than bytes. -/
def minifyLoop : Nat → Minifier → Block → Option Block
  | 0, _, _ => none
  | _ + 1, _, [] => none
  | turns + 1, s, byte :: text =>
      if byte = 0 then some ((s.before ++ byte :: text).set s.into 0)
      else do
        let (s, text) ← minifyTurn s (byte :: text)
        minifyLoop turns s text

def cJSONMinify (json : Block) : Option Block :=
  minifyLoop json.length ⟨[], 0⟩ json

/-! What is left of a text. -/

/-- The inside of a string literal. -/
inductive Quoted : Block → Prop
  | nil : Quoted []
  | plain {byte : UInt8} {inner : Block} (quote : byte ≠ 34)
      (backslash : byte ≠ 92) (rest : Quoted inner) : Quoted (byte :: inner)
  | escaped {byte : UInt8} {inner : Block} (rest : Quoted inner) :
      Quoted (92 :: byte :: inner)

/-- A text, and what is left of it without blanks and comments.  The `*` that
opens a comment may be the one that closes it. -/
inductive Stripped : Block → Block → Prop
  | nil : Stripped [] []
  | blank {byte : UInt8} {text small : Block}
      (blank : Json.isBlank byte = true) (rest : Stripped text small) :
      Stripped (byte :: text) small
  | line {comment text small : Block} (inside : (10 : UInt8) ∉ comment)
      (ended : text.head?.getD 10 = 10) (rest : Stripped text small) :
      Stripped (47 :: 47 :: (comment ++ text)) small
  | comment {comment text small : Block}
      (opened : (comment ++ [42]).head? = some 42)
      (inside : ¬ [42, 47] <:+: comment ++ [42]) (rest : Stripped text small) :
      Stripped (47 :: (comment ++ 42 :: 47 :: text)) small
  | string {inner text small : Block} (quoted : Quoted inner)
      (rest : Stripped text small) :
      Stripped (34 :: (inner ++ 34 :: text)) (34 :: (inner ++ 34 :: small))
  | other {byte : UInt8} {text small : Block}
      (visible : Json.isBlank byte = false) (quote : byte ≠ 34)
      (slash : byte = 47 → text.head? ≠ some 47 ∧ text.head? ≠ some 42)
      (rest : Stripped text small) : Stripped (byte :: text) (byte :: small)

/-! The loops. -/

/-- What was written so far stands at the front of the block. -/
def Minifier.Wrote (s : Minifier) (small : Block) : Prop :=
  small <+: s.before ∧ s.into = small.length

section Loops

variable {s : Minifier} {small : Block}

theorem Minifier.Wrote.pass (wrote : s.Wrote small) (byte : UInt8) :
    (s.pass byte).Wrote small :=
  ⟨wrote.1.trans (List.prefix_append _ _), wrote.2⟩

/-- What stands at the place that `into` has come to is written over. -/
theorem set_behind (stale : Block) (byte written : UInt8) (text : Block) :
    (small ++ stale ++ byte :: text).set small.length written =
      small ++ written :: (stale ++ byte :: text).tail := by
  rw [List.append_assoc, List.set_append_right _ _ (Nat.le_refl _),
    Nat.sub_self]
  cases stale <;> rfl

theorem Minifier.Wrote.copy (wrote : s.Wrote small) (byte : UInt8) :
    (s.copy byte).Wrote (small ++ [byte]) := by
  obtain ⟨⟨stale, before⟩, into⟩ := wrote
  refine ⟨⟨(stale ++ [byte]).tail, ?_⟩, ?_⟩
  · rw [Minifier.copy, into, ← before, set_behind, List.append_assoc]
    rfl
  · rw [Minifier.copy, into, List.length_append]
    rfl

theorem passLine_eq (wrote : s.Wrote small) {comment text : Block}
    (noNul : (0 : UInt8) ∉ comment) (inside : (10 : UInt8) ∉ comment)
    (ended : text.head?.getD 10 = 10) (behind : Block) :
    ∃ s', passLine s (comment ++ (text ++ 0 :: behind)) =
      some (s', text ++ 0 :: behind) ∧ s'.Wrote small := by
  induction comment generalizing s with
  | nil =>
      refine ⟨s, ?_, wrote⟩
      cases text with
      | nil => exact if_pos (.inl rfl)
      | cons byte text => exact if_pos (.inr ended)
  | cons byte comment induction =>
      simp only [List.mem_cons, not_or] at noNul inside
      obtain ⟨s', passed, wrote'⟩ :=
        induction (wrote.pass byte) noNul.2 inside.2
      refine ⟨s', ?_, wrote'⟩
      rw [List.cons_append, passLine, if_neg, passed]
      rintro (rfl | rfl)
      · exact noNul.1 rfl
      · exact inside.1 rfl

theorem passComment_eq (wrote : s.Wrote small) {comment : Block}
    (noNul : (0 : UInt8) ∉ comment)
    (inside : ¬ [42, 47] <:+: comment ++ [42]) (text : Block) :
    ∃ s', passComment s (comment ++ 42 :: 47 :: text) = some (s', text) ∧
      s'.Wrote small := by
  induction comment generalizing s with
  | nil => exact ⟨_, rfl, (wrote.pass 42).pass 47⟩
  | cons byte comment induction =>
      simp only [List.mem_cons, not_or] at noNul
      obtain ⟨s', passed, wrote'⟩ := induction (wrote.pass byte) noNul.2
        fun infix_ => inside (infix_.trans (List.suffix_cons byte _).isInfix)
      refine ⟨s', ?_, wrote'⟩
      cases comment with
      | nil =>
          rw [← passed]
          refine if_neg ?_
          rintro (rfl | ⟨-, slash⟩)
          · exact noNul.1 rfl
          · cases slash
      | cons next comment =>
          rw [← passed]
          refine if_neg ?_
          rintro (rfl | ⟨rfl, rfl⟩)
          · exact noNul.1 rfl
          · exact inside (List.prefix_append [42, 47] _).isInfix

theorem copyChars_closed (byte : UInt8) (closes : byte = 0 ∨ byte = 34)
    (text : Block) : copyChars s (byte :: text) = some (s, byte :: text) := by
  cases text with
  | nil => exact if_pos closes
  | cons next text => exact if_pos closes

theorem copyChars_eq (wrote : s.Wrote small) {inner : Block}
    (noNul : (0 : UInt8) ∉ inner) (quoted : Quoted inner) (text : Block) :
    ∃ s', copyChars s (inner ++ 34 :: text) = some (s', 34 :: text) ∧
      s'.Wrote (small ++ inner) := by
  induction quoted generalizing s small with
  | nil =>
      rw [List.append_nil]
      exact ⟨s, copyChars_closed 34 (.inr rfl) text, wrote⟩
  | @plain byte inner quote backslash rest induction =>
      simp only [List.mem_cons, not_or] at noNul
      obtain ⟨s', copied, wrote'⟩ := induction (wrote.copy byte) noNul.2
      rw [List.append_assoc] at wrote'
      refine ⟨s', ?_, wrote'⟩
      have inside : ¬ (byte = 0 ∨ byte = 34) := by
        rintro (rfl | rfl)
        · exact noNul.1 rfl
        · exact quote rfl
      obtain ⟨next, more, split⟩ :
          ∃ next more, inner ++ 34 :: text = next :: more := by
        cases inner <;> exact ⟨_, _, rfl⟩
      rw [split] at copied
      rw [List.cons_append, split, copyChars, if_neg inside, if_neg backslash,
        copied]
  | @escaped byte inner rest induction =>
      simp only [List.mem_cons, not_or] at noNul
      obtain ⟨s', copied, wrote'⟩ :=
        induction ((wrote.copy 92).copy byte) noNul.2.2
      rw [List.append_assoc, List.append_assoc] at wrote'
      refine ⟨s', ?_, wrote'⟩
      rw [← copied]
      rfl

theorem copyString_eq (wrote : s.Wrote small) {inner : Block}
    (noNul : (0 : UInt8) ∉ inner) (quoted : Quoted inner) (text : Block) :
    ∃ s', copyString s (34 :: (inner ++ 34 :: text)) = some (s', text) ∧
      s'.Wrote (small ++ 34 :: (inner ++ [34])) := by
  obtain ⟨s', copied, wrote'⟩ :=
    copyChars_eq (wrote.copy 34) noNul quoted text
  have closed := wrote'.copy 34
  rw [List.append_assoc, List.append_assoc] at closed
  refine ⟨s'.copy 34, ?_, closed⟩
  rw [copyString, copyByte]
  simp only [bind, Option.bind_some, copied]
  rfl

/-! The whole text. -/

/-- A turn that leaves enough turns for what is behind it. -/
theorem minifyLoop_turn {turns count : Nat} {byte : UInt8} {text rest : Block}
    {s' : Minifier} (nonzero : byte ≠ 0)
    (turn : minifyTurn s (byte :: text) = some (s', rest))
    (enough : count + 1 < turns) :
    ∃ more, count < more ∧
      minifyLoop turns s (byte :: text) = minifyLoop more s' rest := by
  cases turns with
  | zero => exact absurd enough (Nat.not_lt_zero _)
  | succ turns =>
      refine ⟨turns, Nat.lt_of_succ_lt_succ enough, ?_⟩
      rw [minifyLoop, if_neg nonzero, turn]
      rfl

theorem minifyTurn_other {byte : UInt8} (visible : Json.isBlank byte = false)
    (quote : byte ≠ 34) {next : UInt8} {text : Block}
    (slash : byte = 47 → next ≠ 47 ∧ next ≠ 42) :
    minifyTurn s (byte :: next :: text) = some (s.copy byte, next :: text) := by
  rw [minifyTurn, if_neg (by simp [visible])]
  split
  · rename_i same
    rw [if_neg (slash same).1, if_neg (slash same).2]
    rfl
  · rfl

theorem minifyLoop_eq {text left : Block} (stripped : Stripped text left)
    (noNul : (0 : UInt8) ∉ text) (wrote : s.Wrote small) (behind : Block)
    {turns : Nat} (enough : text.length < turns) :
    ∃ stale, minifyLoop turns s (text ++ 0 :: behind) =
      some (small ++ left ++ 0 :: stale) := by
  induction stripped generalizing s small turns with
  | nil =>
      obtain ⟨⟨stale, before⟩, into⟩ := wrote
      refine ⟨(stale ++ 0 :: behind).tail, ?_⟩
      rw [List.append_nil, ← set_behind, before, ← into]
      cases turns with
      | zero => exact absurd enough (Nat.not_lt_zero _)
      | succ turns => rfl
  | @blank byte text left blank rest induction =>
      simp only [List.mem_cons, not_or] at noNul
      have turn : minifyTurn s (byte :: (text ++ 0 :: behind)) =
          some (s.pass byte, text ++ 0 :: behind) := if_pos blank
      obtain ⟨more, still, next⟩ :=
        minifyLoop_turn (Ne.symm noNul.1) turn enough
      obtain ⟨stale, done⟩ := induction noNul.2 (wrote.pass byte) still
      exact ⟨stale, next.trans done⟩
  | @line comment text left inside ended rest induction =>
      simp only [List.mem_cons, List.mem_append, not_or] at noNul
      obtain ⟨s', turn, wrote'⟩ :=
        @passLine_eq s small wrote (47 :: 47 :: comment) text
          (by simp [noNul.2.2.1]) (by simp [inside]) ended behind
      simp only [List.length_cons, List.length_append] at enough
      obtain ⟨more, still, next⟩ := @minifyLoop_turn s turns text.length 47
        (47 :: (comment ++ (text ++ 0 :: behind))) _ _ (by decide) turn
        (by omega)
      obtain ⟨stale, done⟩ := induction noNul.2.2.2 wrote' still
      refine ⟨stale, ?_⟩
      rw [List.cons_append, List.cons_append, List.append_assoc]
      exact next.trans done
  | @comment comment text left opened inside rest induction =>
      simp only [List.mem_cons, List.mem_append, not_or] at noNul
      have outside : ¬ [42, 47] <:+: (47 :: comment) ++ [42] := by
        rw [List.cons_append, List.infix_cons_iff]
        rintro (first | within)
        · have slash := (List.cons_prefix_cons.mp first).1
          cases slash
        · exact inside within
      obtain ⟨s', passed, wrote'⟩ := @passComment_eq s small wrote
        (47 :: comment) (by simp [noNul.2.1]) outside (text ++ 0 :: behind)
      have turn : minifyTurn s
          (47 :: (comment ++ 42 :: 47 :: (text ++ 0 :: behind))) =
          some (s', text ++ 0 :: behind) := by
        rw [← passed]
        cases comment with
        | nil => rfl
        | cons next comment =>
            cases opened
            rfl
      simp only [List.length_cons, List.length_append] at enough
      obtain ⟨more, still, next⟩ := @minifyLoop_turn s turns text.length _ _ _ _
        (by decide) turn (by omega)
      obtain ⟨stale, done⟩ := induction noNul.2.2.2.2 wrote' still
      refine ⟨stale, ?_⟩
      rw [List.cons_append, List.append_assoc]
      exact next.trans done
  | @string inner text left quoted rest induction =>
      simp only [List.mem_cons, List.mem_append, not_or] at noNul
      obtain ⟨s', copied, wrote'⟩ :=
        copyString_eq wrote noNul.2.1 quoted (text ++ 0 :: behind)
      have turn : minifyTurn s (34 :: (inner ++ 34 :: (text ++ 0 :: behind))) =
          some (s', text ++ 0 :: behind) := copied
      simp only [List.length_cons, List.length_append] at enough
      obtain ⟨more, still, next⟩ := @minifyLoop_turn s turns text.length _ _ _ _
        (by decide) turn (by omega)
      obtain ⟨stale, done⟩ := induction noNul.2.2.2 wrote' still
      refine ⟨stale, ?_⟩
      rw [List.cons_append, List.append_assoc]
      refine (next.trans done).trans ?_
      simp
  | @other byte text left visible quote slash rest induction =>
      simp only [List.mem_cons, not_or] at noNul
      have turn : minifyTurn s (byte :: (text ++ 0 :: behind)) =
          some (s.copy byte, text ++ 0 :: behind) := by
        cases text with
        | nil => exact minifyTurn_other visible quote fun _ => by decide
        | cons next text =>
            refine minifyTurn_other visible quote fun same => ?_
            obtain ⟨line, comment⟩ := slash same
            exact ⟨fun same => line (congrArg some same),
              fun same => comment (congrArg some same)⟩
      obtain ⟨more, still, next⟩ :=
        minifyLoop_turn (Ne.symm noNul.1) turn enough
      obtain ⟨stale, done⟩ := induction noNul.2 (wrote.copy byte) still
      refine ⟨stale, (next.trans done).trans ?_⟩
      simp

/-! Texts that are not passed without a read behind their end. -/

theorem passLine_some {text left : Block} {s' : Minifier}
    (noNul : (0 : UInt8) ∉ text)
    (passed : passLine s (text ++ [0]) = some (s', left)) :
    ∃ comment rest, text = comment ++ rest ∧ left = rest ++ [0] ∧
      (10 : UInt8) ∉ comment ∧ rest.head?.getD 10 = 10 := by
  induction text generalizing s with
  | nil =>
      cases passed
      exact ⟨[], [], rfl, rfl, List.not_mem_nil, rfl⟩
  | cons byte text induction =>
      simp only [List.mem_cons, not_or] at noNul
      rw [List.cons_append, passLine] at passed
      split at passed
      · rename_i closes
        cases passed
        exact ⟨[], byte :: text, rfl, rfl, List.not_mem_nil,
          closes.resolve_left (Ne.symm noNul.1)⟩
      · rename_i inside
        obtain ⟨comment, rest, rfl, rfl, none_inside, ended⟩ :=
          induction noNul.2 passed
        refine ⟨byte :: comment, rest, rfl, rfl, ?_, ended⟩
        refine List.not_mem_cons_of_ne_of_not_mem ?_ none_inside
        rintro rfl
        exact inside (.inr rfl)

theorem passComment_some {text left : Block} {s' : Minifier}
    (noNul : (0 : UInt8) ∉ text)
    (passed : passComment s (text ++ [0]) = some (s', left)) :
    ∃ comment rest, text = comment ++ 42 :: 47 :: rest ∧ left = rest ++ [0] ∧
      ¬ [42, 47] <:+: comment ++ [42] := by
  induction text generalizing s with
  | nil => cases passed
  | cons byte text induction =>
      simp only [List.mem_cons, not_or] at noNul
      obtain ⟨next, more, split⟩ : ∃ next more, text ++ [0] = next :: more := by
        cases text <;> exact ⟨_, _, rfl⟩
      rw [List.cons_append, split, passComment] at passed
      split at passed
      · rename_i closes
        obtain ⟨rfl, rfl⟩ := closes.resolve_left (Ne.symm noNul.1)
        cases passed
        cases text with
        | nil => cases split
        | cons next text =>
            cases split
            exact ⟨[], text, rfl, rfl, by decide⟩
      · rename_i inside
        rw [← split] at passed
        obtain ⟨comment, rest, rfl, rfl, unclosed⟩ := induction noNul.2 passed
        refine ⟨byte :: comment, rest, rfl, rfl, ?_⟩
        rw [List.cons_append, List.infix_cons_iff]
        rintro (first | within)
        · refine inside (.inr ?_)
          cases comment with
          | nil =>
              cases (List.cons_prefix_cons.mp
                (List.cons_prefix_cons.mp first).2).1
          | cons other comment =>
              cases split
              obtain ⟨star, behind⟩ := List.cons_prefix_cons.mp first
              exact ⟨star.symm, (List.cons_prefix_cons.mp behind).1.symm⟩
        · exact unclosed within

theorem copyChars_some {s s' : Minifier} {text left : Block}
    (noNul : (0 : UInt8) ∉ text)
    (copied : copyChars s (text ++ [0]) = some (s', left)) :
    left = [0] ∨ ∃ inner rest, text = inner ++ 34 :: rest ∧
      left = 34 :: (rest ++ [0]) ∧ Quoted inner := by
  match text with
  | [] =>
      cases copied
      exact .inl rfl
  | [byte] =>
      simp only [List.mem_singleton] at noNul
      rw [List.cons_append, List.nil_append, copyChars] at copied
      split at copied
      · rename_i closes
        obtain rfl := closes.resolve_left (Ne.symm noNul)
        cases copied
        exact .inr ⟨[], [], rfl, rfl, .nil⟩
      · split at copied
        · cases copied
        · cases copied
          exact .inl rfl
  | byte :: next :: text =>
      simp only [List.mem_cons, not_or] at noNul
      rw [List.cons_append, List.cons_append, copyChars] at copied
      split at copied
      · rename_i closes
        obtain rfl := closes.resolve_left (Ne.symm noNul.1)
        cases copied
        exact .inr ⟨[], next :: text, rfl, rfl, .nil⟩
      · rename_i inside
        split at copied
        · rename_i backslash
          refine (copyChars_some noNul.2.2 copied).imp_right ?_
          rintro ⟨inner, rest, rfl, rfl, quoted⟩
          exact ⟨byte :: next :: inner, rest, rfl, rfl,
            backslash ▸ .escaped quoted⟩
        · rename_i plain
          refine (copyChars_some (List.not_mem_cons_of_ne_of_not_mem noNul.2.1
            noNul.2.2) copied).imp_right ?_
          rintro ⟨inner, rest, split, rfl, quoted⟩
          exact ⟨byte :: inner, rest, by rw [split]; rfl, rfl,
            .plain (fun quote => inside (.inr quote)) plain quoted⟩
termination_by text.length

theorem stripped_line {text comment rest : Block}
    (split : 47 :: text = comment ++ rest) (second : text.head? = some 47)
    (inside : (10 : UInt8) ∉ comment) (ended : rest.head?.getD 10 = 10) :
    rest <:+ text ∧
      ∀ small, Stripped rest small → Stripped (47 :: text) small := by
  match comment with
  | [] =>
      subst split
      cases ended
  | [byte] =>
      have same : text = rest := (List.cons.inj split).2
      rw [← same, second] at ended
      cases ended
  | byte :: next :: comment =>
      cases split
      cases second
      refine ⟨List.suffix_append (47 :: comment) rest, fun small stripped => ?_⟩
      simp only [List.mem_cons, not_or] at inside
      exact .line inside.2.2 ended stripped

theorem stripped_comment {text comment rest : Block}
    (split : 47 :: text = comment ++ 42 :: 47 :: rest)
    (second : text.head? = some 42)
    (inside : ¬ [42, 47] <:+: comment ++ [42]) :
    rest <:+ text ∧
      ∀ small, Stripped rest small → Stripped (47 :: text) small := by
  cases comment with
  | nil => cases split
  | cons byte comment =>
      cases split
      have opened : (comment ++ [42]).head? = some 42 := by
        cases comment with
        | nil => rfl
        | cons next comment => exact second
      have unclosed : ¬ [42, 47] <:+: comment ++ [42] := fun within =>
        inside (within.trans (List.suffix_cons 47 _).isInfix)
      refine ⟨?_, fun small stripped => .comment opened unclosed stripped⟩
      exact (List.suffix_append [42, 47] rest).trans (List.suffix_append _ _)

/-- A turn behind which the block goes on takes a part of the text away that has
its place in what is left. -/
theorem minifyTurn_some {byte : UInt8} {text left : Block} {s' : Minifier}
    (noNul : (0 : UInt8) ∉ byte :: text)
    (turn : minifyTurn s (byte :: (text ++ [0])) = some (s', left))
    (nonempty : left ≠ []) :
    ∃ rest, left = rest ++ [0] ∧ rest <:+ text ∧
      ∀ small, Stripped rest small → ∃ more, Stripped (byte :: text) more := by
  obtain ⟨next, more, split⟩ : ∃ next more, text ++ [0] = next :: more := by
    cases text <;> exact ⟨_, _, rfl⟩
  have first : ∀ other, text.head? = some other → next = other := by
    intro other found
    cases text with
    | nil => cases found
    | cons head text =>
        cases found
        cases split
        rfl
  have second : next ≠ 0 → text.head? = some next := by
    intro nonzero
    cases text with
    | nil =>
        cases split
        exact absurd rfl nonzero
    | cons head text =>
        cases split
        rfl
  rw [split, minifyTurn] at turn
  rw [← split] at turn
  split at turn
  · rename_i blank
    cases turn
    exact ⟨text, rfl, List.suffix_rfl,
      fun small rest => ⟨small, .blank blank rest⟩⟩
  · rename_i visible
    have visible : Json.isBlank byte = false := by simpa using visible
    split at turn
    · rename_i slash
      subst slash
      split at turn
      · rename_i line
        subst line
        rw [← List.cons_append] at turn
        obtain ⟨comment, rest, split', rfl, inside, ended⟩ :=
          passLine_some noNul turn
        obtain ⟨suffix, strips⟩ :=
          stripped_line split' (second (by decide)) inside ended
        exact ⟨rest, rfl, suffix,
          fun small stripped => ⟨small, strips small stripped⟩⟩
      · rename_i no_line
        split at turn
        · rename_i star
          subst star
          rw [← List.cons_append] at turn
          obtain ⟨comment, rest, split', rfl, inside⟩ :=
            passComment_some noNul turn
          obtain ⟨suffix, strips⟩ :=
            stripped_comment split' (second (by decide)) inside
          exact ⟨rest, rfl, suffix,
            fun small stripped => ⟨small, strips small stripped⟩⟩
        · rename_i no_comment
          cases turn
          exact ⟨text, rfl, List.suffix_rfl, fun small rest =>
            ⟨_, .other visible (by decide) (fun _ =>
              ⟨fun found => no_line (first 47 found),
                fun found => no_comment (first 42 found)⟩) rest⟩⟩
    · rename_i no_slash
      split at turn
      · rename_i quote
        subst quote
        obtain ⟨⟨s', behind⟩, copied, turn⟩ := Option.bind_eq_some_iff.mp turn
        rcases copyChars_some
            (fun member => noNul (List.mem_cons_of_mem 34 member)) copied with
          rfl | ⟨inner, rest, rfl, rfl, quoted⟩
        · cases turn
          exact absurd rfl nonempty
        · cases turn
          refine ⟨rest, rfl, ?_, fun small stripped =>
            ⟨_, .string quoted stripped⟩⟩
          exact (List.suffix_cons 34 rest).trans (List.suffix_append _ _)
      · rename_i no_quote
        cases turn
        exact ⟨text, rfl, List.suffix_rfl, fun small rest =>
          ⟨_, .other visible no_quote (fun slash => (no_slash slash).elim)
            rest⟩⟩

theorem stripped_of_minifyLoop {turns : Nat} {text after : Block}
    (noNul : (0 : UInt8) ∉ text)
    (done : minifyLoop turns s (text ++ [0]) = some after) :
    ∃ small, Stripped text small := by
  induction turns generalizing s text with
  | zero => cases done
  | succ turns induction =>
      cases text with
      | nil => exact ⟨[], .nil⟩
      | cons byte text =>
          have nonzero : byte ≠ 0 := by
            rintro rfl
            exact noNul List.mem_cons_self
          rw [List.cons_append, minifyLoop, if_neg nonzero] at done
          obtain ⟨⟨s', left⟩, turn, done⟩ := Option.bind_eq_some_iff.mp done
          have nonempty : left ≠ [] := by
            rintro rfl
            cases turns <;> cases done
          obtain ⟨rest, rfl, suffix, strips⟩ :=
            minifyTurn_some noNul turn nonempty
          have clean : (0 : UInt8) ∉ rest := fun member =>
            noNul (List.mem_cons_of_mem byte (suffix.subset member))
          obtain ⟨small, stripped⟩ := induction clean done
          exact strips small stripped

end Loops

/-- A text is passed without a read behind its end just when its strings and
its comments are closed.  Then what is left of it takes its place, whatever
stands behind it. -/
theorem cJSONMinify_iff {text : Block} (noNul : (0 : UInt8) ∉ text) :
    ((∃ after, cJSONMinify (text ++ [0]) = some after) ↔
        ∃ small, Stripped text small) ∧
      ∀ small, Stripped text small → ∀ behind, ∃ stale,
        cJSONMinify (text ++ 0 :: behind) = some (small ++ 0 :: stale) := by
  have passed : ∀ small, Stripped text small → ∀ behind, ∃ stale,
      cJSONMinify (text ++ 0 :: behind) = some (small ++ 0 :: stale) :=
    fun small stripped behind => @minifyLoop_eq ⟨[], 0⟩ [] text small stripped
      noNul ⟨List.nil_prefix, rfl⟩ behind _ (by simp)
  refine ⟨⟨?_, ?_⟩, passed⟩
  · rintro ⟨after, done⟩
    exact stripped_of_minifyLoop noNul done
  · rintro ⟨small, stripped⟩
    obtain ⟨stale, done⟩ := passed small stripped []
    exact ⟨_, done⟩

/-- An array with a comment in it. -/
theorem cJSONMinify_commented :
    ∃ stale, cJSONMinify [91, 47, 42, 32, 42, 47, 93, 0, 32] =
      some ([91, 93, 0] ++ stale) := by
  have closed : Stripped [93] [93] :=
    .other rfl (by decide) (by decide) .nil
  have comment : Stripped [47, 42, 32, 42, 47, 93] [93] :=
    @Stripped.comment [42, 32] [93] [93] rfl (by decide) closed
  exact (@cJSONMinify_iff [91, 47, 42, 32, 42, 47, 93] (by decide)).2
    [91, 93] (.other rfl (by decide) (by decide) comment) [32]

/-! JSON. -/

/-- A text that takes the place of another one, and its own. -/
structure Minifies (text small : Block) : Prop where
  length : small.length ≤ text.length
  strips : ∀ {rest left}, Stripped rest left →
    Stripped (text ++ rest) (small ++ left)
  keeps : ∀ {rest left}, Stripped rest left →
    Stripped (small ++ rest) (small ++ left)

namespace Minifies

variable {text small other less : Block}

theorem nil : Minifies [] [] := ⟨Nat.le_refl _, id, id⟩

theorem append (first : Minifies text small) (second : Minifies other less) :
    Minifies (text ++ other) (small ++ less) where
  length := by
    rw [List.length_append, List.length_append]
    exact Nat.add_le_add first.length second.length
  strips rest := by
    rw [List.append_assoc, List.append_assoc]
    exact first.strips (second.strips rest)
  keeps rest := by
    rw [List.append_assoc, List.append_assoc]
    exact first.keeps (second.keeps rest)

theorem blanks {blank : Block} (blanks : Json.Blank blank) :
    Minifies blank [] where
  length := Nat.zero_le _
  strips rest := by
    induction blank with
    | nil => exact rest
    | cons byte blank induction =>
        exact .blank (blanks byte List.mem_cons_self)
          (induction fun other member =>
            blanks other (List.mem_cons_of_mem byte member))
  keeps := id

theorem of_keeps (keeps : ∀ {rest left}, Stripped rest left →
    Stripped (text ++ rest) (text ++ left)) : Minifies text text :=
  ⟨Nat.le_refl _, keeps, keeps⟩

/-- Neither a blank, nor a quote, nor the start of a comment. -/
def Visible (byte : UInt8) : Bool :=
  !Json.isBlank byte && byte != 34 && byte != 47

theorem visible (plain : ∀ byte ∈ text, Visible byte = true) :
    Minifies text text := by
  refine of_keeps fun rest => ?_
  induction text with
  | nil => exact rest
  | cons byte text induction =>
      have first := plain byte List.mem_cons_self
      simp only [Visible, Bool.and_eq_true, Bool.not_eq_true', bne_iff_ne]
        at first
      exact .other first.1.1 first.1.2 (fun slash => (first.2 slash).elim)
        (induction fun other member =>
          plain other (List.mem_cons_of_mem byte member))

theorem cons {byte : UInt8} (first : Visible byte = true)
    (second : Minifies text small) :
    Minifies (byte :: text) (byte :: small) :=
  have single : Minifies [byte] [byte] := visible (by simpa using first)
  single.append second

end Minifies

theorem quoted_of_chars {decoded written : Block}
    (chars : Json.Chars decoded written) : Quoted written := by
  have hex : ∀ {digits : Block} {code more : Nat},
      digits.foldlM (fun value digit =>
        (Json.hexDigit digit).map (16 * value + ·)) more = some code →
      ∀ {written : Block}, Quoted written → Quoted (digits ++ written) := by
    intro digits code more number written quoted
    induction digits generalizing more with
    | nil => exact quoted
    | cons byte digits induction =>
        rw [List.foldlM_cons] at number
        obtain ⟨next, first, others⟩ := Option.bind_eq_some_iff.mp number
        obtain ⟨digit, known, -⟩ := Option.map_eq_some_iff.mp first
        refine .plain ?_ ?_ (induction others)
        · rintro rfl
          cases known
        · rintro rfl
          cases known
  induction chars with
  | nil => exact .nil
  | plain printable quote backslash rest induction =>
      exact .plain quote backslash induction
  | escape known rest induction => exact .escaped induction
  | unicode four number single rest induction =>
      exact .escaped (hex number induction)
  | pair four number others_four other first second rest induction =>
      exact .escaped (hex number (.escaped (hex other induction)))

theorem minifies_string {decoded written : Block}
    (chars : Json.Chars decoded written) :
    Minifies (34 :: (written ++ [34])) (34 :: (written ++ [34])) := by
  refine .of_keeps fun {rest left} stripped => ?_
  have string := Stripped.string (quoted_of_chars chars) stripped
  simpa using string

theorem visible_digits {digits : Block}
    (plain : ∀ byte ∈ digits, Block.isDigit byte = true) :
    ∀ byte ∈ digits, Minifies.Visible byte = true := by
  intro byte member
  have digit := plain byte member
  have differs : ∀ other ∈ ([32, 9, 10, 13, 34, 47] : Block),
      byte ≠ other := by
    have none_digit : ∀ other ∈ ([32, 9, 10, 13, 34, 47] : Block),
        Block.isDigit other ≠ true := Block.forall_of_all rfl
    rintro other inside rfl
    exact none_digit byte inside digit
  simp only [List.forall_mem_cons, List.not_mem_nil] at differs
  simp [Minifies.Visible, Json.isBlank, differs]

theorem minifies_number {text : Block} (number : Json.Number text) :
    Minifies text text := by
  obtain ⟨signed, digits, -, fractional, exponential⟩ := number
  rename_i sign integer fraction exponent
  have first : Minifies sign sign := by
    rcases signed with rfl | rfl
    · exact .nil
    · exact .visible (Block.forall_of_all rfl)
  have second : Minifies fraction fraction := by
    rcases fractional with rfl | ⟨behind, rfl, digits⟩
    · exact .nil
    · exact .cons rfl (.visible (visible_digits digits.2))
  have third : Minifies exponent exponent := by
    rcases exponential with rfl | ⟨letter, sign, behind, rfl, known, signed,
      digits⟩
    · exact .nil
    · have signless : Minifies sign sign := by
        rcases signed with rfl | rfl | rfl
        · exact .nil
        · exact .visible (Block.forall_of_all rfl)
        · exact .visible (Block.forall_of_all rfl)
      have behind := signless.append (.visible (visible_digits digits.2))
      rcases known with rfl | rfl <;> exact .cons rfl behind
  have integers : Minifies integer integer :=
    .visible (visible_digits digits.2)
  exact first.append (integers.append (second.append third))

mutual

theorem minified_value {value : Json} {text : Block}
    (written : Json.Value value text) :
    ∃ small, Json.Value value small ∧ Minifies text small := by
  cases written with
  | null => exact ⟨_, .null, .visible (Block.forall_of_all rfl)⟩
  | true => exact ⟨_, .true, .visible (Block.forall_of_all rfl)⟩
  | false => exact ⟨_, .false, .visible (Block.forall_of_all rfl)⟩
  | number written => exact ⟨_, .number written, minifies_number written⟩
  | string chars => exact ⟨_, .string chars, minifies_string chars⟩
  | array elements =>
      obtain ⟨small, elements, minifies⟩ := minified_elements elements
      refine ⟨_, .array elements, .cons rfl (minifies.append ?_)⟩
      exact .visible (Block.forall_of_all rfl)
  | object fields =>
      obtain ⟨small, fields, minifies⟩ := minified_members fields
      refine ⟨_, .object fields, .cons rfl (minifies.append ?_)⟩
      exact .visible (Block.forall_of_all rfl)

theorem minified_elements {items : List Json} {inner : Block}
    (elements : Json.Elements items inner) :
    ∃ small, Json.Elements items small ∧ Minifies inner small := by
  cases elements with
  | nil blanks => exact ⟨[], .nil blank_nil, .blanks blanks⟩
  | last before value after =>
      obtain ⟨small, value, minifies⟩ := minified_value value
      exact ⟨_, .last blank_nil value blank_nil, (Minifies.blanks before).append
        (minifies.append (.blanks after))⟩
  | cons before value after others =>
      obtain ⟨small, value, minifies⟩ := minified_value value
      obtain ⟨less, others, behind⟩ := minified_elements others
      exact ⟨_, .cons blank_nil value blank_nil others,
        (Minifies.blanks before).append (minifies.append
          ((Minifies.blanks after).append (.cons rfl behind)))⟩

theorem minified_members {members : List (Block × Json)} {inner : Block}
    (fields : Json.Members members inner) :
    ∃ small, Json.Members members small ∧ Minifies inner small := by
  cases fields with
  | nil blanks => exact ⟨[], .nil blank_nil, .blanks blanks⟩
  | @last name written item _ _ _ _ _ before chars between start value after =>
      obtain ⟨small, value, minifies⟩ := minified_value value
      have colon : Minifies.Visible 58 = true := rfl
      have behind := (Minifies.blanks between).append (.cons colon
        ((Minifies.blanks start).append
          (minifies.append (.blanks after))))
      have named := (minifies_string chars).append behind
      refine ⟨_, .last blank_nil chars blank_nil blank_nil value blank_nil, ?_⟩
      simpa using (Minifies.blanks before).append named
  | @cons name written item _ _ _ _ _ _ _ _ before chars between start value
      after others =>
      obtain ⟨small, value, minifies⟩ := minified_value value
      obtain ⟨less, others, rest⟩ := minified_members others
      have colon : Minifies.Visible 58 = true := rfl
      have comma : Minifies.Visible 44 = true := rfl
      have behind := (Minifies.blanks between).append (.cons colon
        ((Minifies.blanks start).append (minifies.append
          ((Minifies.blanks after).append (.cons comma rest)))))
      have named := (minifies_string chars).append behind
      refine ⟨_, .cons blank_nil chars blank_nil blank_nil value blank_nil
        others, ?_⟩
      simpa using (Minifies.blanks before).append named

end

/-- A text of JSON becomes one of the same value, in its place, which is no
longer and which a second call leaves as it is. -/
theorem cJSONMinify_decodes {text : Block} {value : Json}
    (decodes : Json.Decodes text value) :
    ∃ small, Json.Value value small ∧ small.length ≤ text.length ∧
      (∀ behind, ∃ stale, cJSONMinify (text ++ 0 :: behind) =
        some (small ++ 0 :: stale)) ∧
      ∀ behind, ∃ stale, cJSONMinify (small ++ 0 :: behind) =
        some (small ++ 0 :: stale) := by
  obtain ⟨before, inner, after, rfl, blank_before, written, blank_after⟩ :=
    decodes
  obtain ⟨small, value, minifies⟩ := minified_value written
  have whole := (Minifies.blanks blank_before).append
    (minifies.append (.blanks blank_after))
  have noNul : (0 : UInt8) ∉ before ++ (inner ++ after) := by
    simp [blank_before.noNul, written.noNul, blank_after.noNul]
  rw [List.append_nil, List.nil_append] at whole
  have stripped := whole.strips .nil
  have again := minifies.keeps .nil
  simp only [List.append_nil] at stripped again
  refine ⟨small, value, whole.length, fun behind => ?_, fun behind => ?_⟩
  · exact @minifyLoop_eq ⟨[], 0⟩ [] _ small stripped noNul
      ⟨List.nil_prefix, rfl⟩ behind _ (by simp)
  · exact @minifyLoop_eq ⟨[], 0⟩ [] _ small again value.noNul
      ⟨List.nil_prefix, rfl⟩ behind _ (by simp)

/-- An array with a blank in it. -/
theorem cJSONMinify_spaced :
    ∃ small, Json.Value (.array [.number [49]]) small ∧
      small.length ≤ ([91, 49, 32, 93] : Block).length ∧
      (∀ behind, ∃ stale, cJSONMinify ([91, 49, 32, 93] ++ 0 :: behind) =
        some (small ++ 0 :: stale)) ∧
      ∀ behind, ∃ stale, cJSONMinify (small ++ 0 :: behind) =
        some (small ++ 0 :: stale) := by
  have elements := Json.Elements.last blank_nil (.number number_one)
    (blank_single 32 rfl)
  exact cJSONMinify_decodes ⟨[], _, [], rfl, blank_nil, .array elements,
    blank_nil⟩

end Molten.Collector.CJson
