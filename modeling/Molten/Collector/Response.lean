import Molten.Text.Block

namespace Molten.Collector

open Molten.Text

/-! The buffer into which the callback of a request puts the response. -/

/-- `process_data`, with the size of `data` as `size * nmemb`. -/
def processData (data content : Block) : Option Block :=
  Block.strncpy content data data.length

def curlEasyPerform : List Block → Block → Option Block
  | [], response => some response
  | data :: chunks, response => do
      let response ← processData data response
      curlEasyPerform chunks response

/-- `get_request`.  A `uri` that is too short asks for nothing. -/
def getRequest (uri : Option Block) (chunks : List Block) (response : Block) :
    Option Block :=
  match uri with
  | some uri =>
      if 5 < uri.length then curlEasyPerform chunks response else some response
  | none => some response

/-- `post_request`, which hands `post_data` to the server and is the same from
there on. -/
def postRequest (uri : Option Block) (_postData : Block)
    (chunks : List Block) (response : Block) : Option Block :=
  getRequest uri chunks response

/-- A response, in the chunks in which it arrives, and what is in the buffer
of the caller. -/
structure Transfer where
  uri : Block
  chunks : List Block
  response : Block
  uri_long : 5 < uri.length
  noNul : (0 : UInt8) ∉ chunks.flatten
  length_lt : chunks.flatten.length < response.length

namespace Transfer

def body (t : Transfer) : Block := t.chunks.flatten

def ReadsBody (t : Transfer) : Prop :=
  (getRequest (some t.uri) t.chunks t.response).bind Block.cString =
      some t.body ∧
    ∀ postData,
      (postRequest (some t.uri) postData t.chunks t.response).bind
        Block.cString = some t.body

/-! When it does. -/

/-- The byte that the last chunk which is long enough has at a place, or else
what was there before. -/
def visible (response : Block) (chunks : List Block) (i : Nat) :
    Option UInt8 :=
  ((chunks.reverse.find? (i < ·.length)).getD response)[i]?

/-- Every place of the body is last written by a chunk that has the byte of the
body at that place, or has it already, and a NUL is behind them. -/
def Coincides (t : Transfer) : Prop :=
  (∀ i < t.body.length, visible t.response t.chunks i = t.body[i]?) ∧
    t.response[t.body.length]? = some 0

theorem visible_cons (response data : Block) (chunks : List Block) (i : Nat) :
    visible response (data :: chunks) i =
      visible (data ++ response.drop data.length) chunks i := by
  rw [visible, visible, List.reverse_cons, List.find?_append]
  cases chunks.reverse.find? (i < ·.length) with
  | some last => rfl
  | none =>
      rw [Option.none_or, Option.getD_none]
      by_cases long : i < data.length
      · rw [List.find?_cons_of_pos (by simpa using long), Option.getD_some,
          List.getElem?_append_left long]
      · rw [List.find?_cons_of_neg (by simpa using long), List.find?_nil,
          Option.getD_none, List.getElem?_append_right (by omega),
          List.getElem?_drop, Nat.add_sub_cancel' (by omega)]

theorem processData_eq {data : Block} (noNul : (0 : UInt8) ∉ data)
    {content : Block} (fits : data.length ≤ content.length) :
    processData data content = some (data ++ content.drop data.length) := by
  have stored : 0 + data.length ≤ content.length := by omega
  rw [processData, Block.strncpy, Block.readUpTo_noNul noNul (Nat.le_refl _)]
  simpa using Block.store_eq_some stored

theorem curlEasyPerform_eq (chunks : List Block) (response : Block)
    (noNul : ∀ data ∈ chunks, (0 : UInt8) ∉ data)
    (fits : ∀ data ∈ chunks, data.length ≤ response.length) :
    ∃ filled, curlEasyPerform chunks response = some filled ∧
      ∀ i : Nat, filled[i]? = visible response chunks i := by
  induction chunks generalizing response with
  | nil => exact ⟨response, rfl, fun i => rfl⟩
  | cons data chunks induction =>
      have stored := processData_eq (noNul data List.mem_cons_self)
        (fits data List.mem_cons_self)
      have length : (data ++ response.drop data.length).length =
          response.length := by
        have fits_data := fits data List.mem_cons_self
        rw [List.length_append, List.length_drop]
        omega
      obtain ⟨filled, performed, bytes⟩ :=
        induction (data ++ response.drop data.length)
          (fun other member => noNul other (List.mem_cons_of_mem _ member))
          (fun other member => by
            rw [length]
            exact fits other (List.mem_cons_of_mem _ member))
      refine ⟨filled, ?_, fun i => ?_⟩
      · rw [curlEasyPerform, stored]
        exact performed
      · rw [bytes i, visible_cons]

theorem length_le_flatten {data : Block} {chunks : List Block}
    (member : data ∈ chunks) : data.length ≤ chunks.flatten.length :=
  (List.sublist_flatten_of_mem member).length_le

theorem visible_behind (response : Block) (chunks : List Block) :
    visible response chunks chunks.flatten.length =
      response[chunks.flatten.length]? := by
  have short : chunks.reverse.find?
      (fun data => decide (chunks.flatten.length < data.length)) = none := by
    apply List.find?_eq_none.mpr
    intro data member
    have bound := length_le_flatten (List.mem_reverse.mp member)
    simpa using bound
  rw [visible, short]
  rfl

theorem cString_eq_body_iff {t : Transfer} {filled : Block}
    (bytes : ∀ i : Nat, filled[i]? = visible t.response t.chunks i) :
    Block.cString filled = some t.body ↔ t.Coincides := by
  rw [Block.cString_eq_some_iff, List.prefix_iff_getElem?]
  have behind : filled[t.body.length]? = t.response[t.body.length]? :=
    (bytes _).trans (visible_behind t.response t.chunks)
  constructor
  · intro read
    obtain ⟨-, same⟩ := read
    constructor
    · intro i within
      have inside : i < (t.body ++ [0]).length := by
        rw [List.length_append]
        omega
      rw [← bytes i, same i inside, List.getElem_append_left within,
        List.getElem?_eq_getElem within]
    · rw [← behind, same t.body.length (by simp)]
      simp
  · intro coincides
    obtain ⟨same, nul⟩ := coincides
    refine ⟨t.noNul, fun i within => ?_⟩
    rw [List.length_append, List.length_singleton] at within
    rcases Nat.lt_succ_iff_lt_or_eq.mp within with before | rfl
    · rw [bytes i, same i before, List.getElem_append_left before,
        List.getElem?_eq_getElem before]
    · rw [behind, nul]
      simp

theorem curlEasyPerform_filled (t : Transfer) :
    ∃ filled, curlEasyPerform t.chunks t.response = some filled ∧
      ∀ i : Nat, filled[i]? = visible t.response t.chunks i := by
  refine curlEasyPerform_eq t.chunks t.response ?_ ?_
  · intro data member nul
    exact t.noNul (List.mem_flatten.mpr ⟨data, member, nul⟩)
  · intro data member
    have bound := length_le_flatten member
    have room := t.length_lt
    omega

theorem readsBody_iff_coincides (t : Transfer) :
    t.ReadsBody ↔ t.Coincides := by
  obtain ⟨filled, performed, bytes⟩ := t.curlEasyPerform_filled
  have got : getRequest (some t.uri) t.chunks t.response = some filled := by
    rw [getRequest, if_pos t.uri_long, performed]
  rw [← cString_eq_body_iff bytes]
  constructor
  · intro reads
    obtain ⟨read, -⟩ := reads
    rwa [got] at read
  · intro read
    exact ⟨by rw [got]; exact read,
      fun postData => by rw [postRequest, got]; exact read⟩

/-! A body whose first byte is in it once. -/

def FirstOnce (t : Transfer) : Prop :=
  ∀ i, 0 < i → t.body[i]? ≠ t.body[0]?

theorem FirstOnce.length_pos {t : Transfer} (once : t.FirstOnce) :
    0 < t.body.length := by
  rcases Nat.eq_zero_or_pos t.body.length with empty | positive
  · refine absurd ?_ (once 1 Nat.one_pos)
    rw [List.getElem?_eq_none (by omega), List.getElem?_eq_none (by omega)]
  · exact positive

theorem mem_chunks_of_first {t : Transfer} (once : t.FirstOnce)
    (first : visible t.response t.chunks 0 = t.body[0]?) :
    t.body ∈ t.chunks := by
  have positive := once.length_pos
  cases found : t.chunks.reverse.find? (0 < ·.length) with
  | none =>
      have empty : ∀ data ∈ t.chunks, data = [] := by
        intro data member
        have short := List.find?_eq_none.mp found data
          (List.mem_reverse.mpr member)
        simpa using short
      have nothing : t.body = [] := List.flatten_eq_nil_iff.mpr empty
      rw [nothing] at positive
      exact absurd positive (Nat.lt_irrefl 0)
  | some last =>
      obtain ⟨long, behind, before, split, empty⟩ :=
        List.find?_eq_some_iff_append.mp found
      have chunks : t.chunks = before.reverse ++ last :: behind.reverse := by
        rw [← List.reverse_reverse t.chunks, split]
        simp
      have nothing : behind.reverse.flatten = [] := by
        apply List.flatten_eq_nil_iff.mpr
        intro data member
        simpa using empty data (List.mem_reverse.mp member)
      have body : t.body = before.reverse.flatten ++ last := by
        rw [Transfer.body, chunks, List.flatten_append, List.flatten_cons,
          nothing, List.append_nil]
      have shown : last[0]? = t.body[0]? := by
        rw [← first, visible, found]
        rfl
      rcases Nat.eq_zero_or_pos before.reverse.flatten.length with start | later
      · rw [List.length_eq_zero_iff.mp start, List.nil_append] at body
        rw [body, chunks]
        exact List.mem_append_right _ List.mem_cons_self
      · refine absurd ?_ (once _ later)
        rw [← shown, body, List.getElem?_append_right (Nat.le_refl _),
          Nat.sub_self]

theorem eq_nil_or_eq_body {t : Transfer} (whole : t.body ∈ t.chunks)
    {data : Block} (member : data ∈ t.chunks) : data = [] ∨ data = t.body := by
  obtain ⟨before, behind, chunks⟩ := List.append_of_mem whole
  have length : t.body.length = before.flatten.length +
      (t.body.length + behind.flatten.length) := by
    have flat := congrArg (List.length ∘ List.flatten) chunks
    simpa [Transfer.body] using flat
  rw [chunks, List.mem_append, List.mem_cons] at member
  rcases member with member | same | member
  · have bound := length_le_flatten member
    exact Or.inl (List.length_eq_zero_iff.mp (by omega))
  · exact Or.inr same
  · have bound := length_le_flatten member
    exact Or.inl (List.length_eq_zero_iff.mp (by omega))

theorem visible_of_mem {t : Transfer} (whole : t.body ∈ t.chunks) {i : Nat}
    (within : i < t.body.length) :
    visible t.response t.chunks i = t.body[i]? := by
  cases found : t.chunks.reverse.find? (i < ·.length) with
  | none =>
      have short := List.find?_eq_none.mp found t.body
        (List.mem_reverse.mpr whole)
      exact absurd within (by simpa using short)
  | some last =>
      have member := List.mem_reverse.mp (List.mem_of_find?_eq_some found)
      have long : i < last.length := by
        simpa using List.find?_some found
      rcases eq_nil_or_eq_body whole member with rfl | rfl
      · exact absurd long (Nat.not_lt_zero i)
      · rw [visible, found]
        rfl

theorem coincides_iff_mem {t : Transfer} (once : t.FirstOnce) :
    t.Coincides ↔
      t.body ∈ t.chunks ∧ t.response[t.body.length]? = some 0 := by
  constructor
  · intro coincides
    obtain ⟨same, nul⟩ := coincides
    exact ⟨mem_chunks_of_first once (same 0 once.length_pos), nul⟩
  · intro arrived
    obtain ⟨whole, nul⟩ := arrived
    exact ⟨fun i within => visible_of_mem whole within, nul⟩

/-- Where the bytes cannot coincide, the body has to come in one chunk, with a
NUL behind it in the buffer before. -/
theorem request_readsBody_iff (t : Transfer) :
    (t.ReadsBody ↔ t.Coincides) ∧
      (t.FirstOnce → (t.Coincides ↔
        t.body ∈ t.chunks ∧ t.response[t.body.length]? = some 0)) :=
  ⟨readsBody_iff_coincides t, coincides_iff_mem⟩

/-- `[1]` in two chunks, into a buffer of zeros. -/
def twoChunks : Transfer where
  uri := [104, 116, 116, 112, 58, 47, 47, 97]
  chunks := [[91, 49], [93]]
  response := [0, 0, 0, 0]
  uri_long := by decide
  noNul := by decide
  length_lt := by decide

theorem twoChunks_not_readsBody : ¬ twoChunks.ReadsBody := by
  intro reads
  obtain ⟨read, -⟩ := reads
  exact absurd read (by decide)

end Transfer

end Molten.Collector
