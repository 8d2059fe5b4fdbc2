import Mathlib.Algebra.Group.Int.Defs
import Molten.Text.Block

namespace Molten.Chain.QueryTrim

open Molten.Text

/-! The query string is trimmed from the URL of a request, and from the name of
its main span. -/

/-- A `zval` of `$_SERVER`, in bytes. -/
inductive ServerZval
  | string (bytes : Block)
  | other
  deriving DecidableEq, Repr

def questionMark : UInt8 := 63

/-! `join_ori_url` -/

/-- The loop from `i` on, where the string still has `rest`.  The result is `i`
after it, and whether a question mark ended it.  Past the end of `int` the
comparison with the length fails. -/
def scan (i : Nat) : Block → Int × Bool
  | [] => (i, false)
  | byte :: rest =>
      if byte = questionMark then (i, true)
      else if i + 1 < 2 ^ 31 then scan (i + 1) rest
      else (-2 ^ 31, false)

/-- The loop of `join_ori_url`, from the end of the host on. -/
def scanUri (hostLen : Nat) (string : Block) : Int × Bool :=
  let start : Int := Int.bmod hostLen (2 ^ 32)
  if start < 0 then (start, false)
  else scan start.toNat (string.drop start.toNat)

def trimmed (hostLen : Nat) (string : Block) : Block :=
  let scanned := scanUri hostLen string
  (if scanned.2 then string.take scanned.1.toNat else []) ++
    if scanned.1 % 2 ^ 64 = string.length then string else []

def joinOriUrl (httpHost requestUri : Option ServerZval)
    (trimQueryString : Bool) (url : Block) : Bool × Block :=
  match httpHost, requestUri with
  | some (.string host), some (.string uri) =>
      (true, url ++
        if trimQueryString then trimmed host.length (host ++ uri)
        else host ++ uri)
  | _, _ => (false, url)

/-! The name of the main span, from `mo_chain_dtor`. -/

def strchr (text : Block) (byte : UInt8) : Option Nat :=
  if byte ∈ text then some (text.takeWhile (· != byte)).length else none

/-- The difference of the pointers, in an `unsigned char`.  Without a question
mark one of them is null. -/
def queryOffset (text : Block) (address : Nat) : Nat :=
  match strchr text questionMark with
  | some offset => offset % 2 ^ 8
  | none => ((-(address : Int)) % 2 ^ 8).toNat

def operationName (uri : Block) (address : Nat) : Block :=
  let text := uri.takeWhile (· != 0)
  let tmp := queryOffset text address
  if 0 < tmp then text.take tmp else text

/-- An empty host is looked up again, which leaves what was found where there
is no `SERVER_NAME`. -/
def spanHost (httpHost serverName : Option ServerZval) :
    Option ServerZval :=
  let emptyHost :=
    match httpHost with
    | some (.string bytes) => decide (bytes.head?.getD 0 = 0)
    | some .other => false
    | none => true
  if emptyHost then serverName.or httpHost else httpHost

/-- `url_len`, an `int` that `emalloc` takes as a size.  Below 0 it asks for
more memory than there is. -/
def urlLen (host uri : Block) : Int :=
  Int.bmod (host.length + uri.length + 10) (2 ^ 32)

/-- The operation name of the main span of a request with an URI, on a
skywalking span. -/
def mainSpanName (httpHost serverName requestUri : Option ServerZval)
    (address : Nat) : Option Block :=
  match spanHost httpHost serverName, requestUri with
  | some (.string host), some (.string uri) =>
      if urlLen host uri < 0 then none else some (operationName uri address)
  | _, _ => none

/-! What both are to be. -/

def beforeQuery (uri : Block) : Block := uri.takeWhile (· != questionMark)

structure RequestTarget where
  host : Block
  uri : Block
  serverName : Option ServerZval
  /-- where the bytes of the URI are -/
  address : Nat
  length_lt : host.length + uri.length < 2 ^ 63

namespace RequestTarget

def TrimsUrl (t : RequestTarget) : Prop :=
  joinOriUrl (some (.string t.host)) (some (.string t.uri)) true [] =
    (true, t.host ++ beforeQuery t.uri)

def TrimsName (t : RequestTarget) : Prop :=
  mainSpanName (some (.string t.host)) t.serverName (some (.string t.uri))
    t.address = some (beforeQuery t.uri)

/-- The place where the URL is cut is an `int`. -/
def UrlFits (t : RequestTarget) : Prop :=
  t.host.length + (beforeQuery t.uri).length < 2 ^ 31

/-- There is a host, and `url_len` is not below 0. -/
def HostFits (t : RequestTarget) : Prop :=
  (t.host.head?.getD 0 = 0 → t.serverName ≠ some .other) ∧
    ∀ host, spanHost (some (.string t.host)) t.serverName =
      some (.string host) → 0 ≤ urlLen host t.uri

/-- The place where the name is cut is an `unsigned char` other than 0.  Without
a query it is what the address of the URI makes of it. -/
def NameFits (t : RequestTarget) : Prop :=
  t.HostFits ∧
    (0 : UInt8) ∉ beforeQuery t.uri ∧
    if questionMark ∈ t.uri then
      0 < (beforeQuery t.uri).length ∧ (beforeQuery t.uri).length < 2 ^ 8
    else
      (-(t.address : Int)) % 2 ^ 8 = 0 ∨
        (t.uri.length : Int) ≤ (-(t.address : Int)) % 2 ^ 8

end RequestTarget

/-! The URL. -/

theorem scan_eq {i : Nat} {rest : Block}
    (fits : i + (beforeQuery rest).length < 2 ^ 31) :
    scan i rest =
      (((i + (beforeQuery rest).length : Nat) : Int),
        decide (questionMark ∈ rest)) := by
  induction rest generalizing i with
  | nil => simp [scan, beforeQuery]
  | cons byte rest induction =>
      by_cases mark : byte = questionMark
      · simp [scan, beforeQuery, mark]
      · rw [beforeQuery, Block.takeWhile_cons_ne mark, List.length_cons] at fits ⊢
        have next := induction (i := i + 1) (by rw [beforeQuery]; omega)
        rw [scan, if_neg mark, if_pos (by omega), next, beforeQuery]
        simp only [List.mem_cons, Ne.symm mark, false_or]
        rw [show i + 1 + (rest.takeWhile (· != questionMark)).length =
          i + ((rest.takeWhile (· != questionMark)).length + 1) by omega]

theorem scan_bounds {i : Nat} (start : i < 2 ^ 31) (rest : Block) :
    (scan i rest).1 < 2 ^ 31 ∧
      ((scan i rest).2 = true →
        (i : Int) ≤ (scan i rest).1 ∧
          (scan i rest).1 < ((i + rest.length : Nat) : Int)) ∧
      ((scan i rest).2 = false →
        (scan i rest).1 = ((i + rest.length : Nat) : Int) ∨
          (scan i rest).1 = -2 ^ 31) := by
  induction rest generalizing i with
  | nil =>
      refine ⟨?_, nofun, fun _ => Or.inl rfl⟩
      show (i : Int) < 2 ^ 31
      omega
  | cons byte rest induction =>
      rw [List.length_cons]
      by_cases mark : byte = questionMark
      · rw [scan, if_pos mark]
        refine ⟨?_, fun _ => ⟨Int.le_refl _, ?_⟩, nofun⟩
        · show (i : Int) < 2 ^ 31
          omega
        · show (i : Int) < _
          omega
      · rw [scan, if_neg mark]
        split
        · rename_i next
          have bounds := induction next
          refine ⟨bounds.1, fun found => ?_, fun lost => ?_⟩
          · have found_bounds := bounds.2.1 found
            omega
          · have lost_bounds := bounds.2.2 lost
            omega
        · exact ⟨by decide, nofun, fun _ => Or.inr rfl⟩

/-- Where the loop stops: behind the string, past the end of `int`, or at a
question mark. -/
theorem scanUri_bounds (hostLen : Nat) (string : Block) :
    (scanUri hostLen string).1 < 2 ^ 31 ∧
      ((scanUri hostLen string).2 = true →
        0 ≤ (scanUri hostLen string).1 ∧
          (scanUri hostLen string).1 < string.length) ∧
      ((scanUri hostLen string).2 = false →
        -2 ^ 31 ≤ (scanUri hostLen string).1) := by
  have lower : -2 ^ 31 ≤ Int.bmod hostLen (2 ^ 32) := by
    rw [Int.bmod_def]
    omega
  have upper : Int.bmod hostLen (2 ^ 32) < 2 ^ 31 := by
    rw [Int.bmod_def]
    omega
  unfold scanUri
  generalize Int.bmod hostLen (2 ^ 32) = start at lower upper ⊢
  by_cases negative : start < 0
  · simp only [if_pos negative]
    exact ⟨upper, nofun, fun _ => lower⟩
  · simp only [if_neg negative]
    have bounds := scan_bounds (i := start.toNat) (by omega)
      (string.drop start.toNat)
    rw [List.length_drop] at bounds
    refine ⟨bounds.1, fun found => ?_, fun lost => ?_⟩
    · have place := bounds.2.1 found
      omega
    · have place := bounds.2.2 lost
      omega

theorem length_trimmed_lt (hostLen : Nat) {string : Block}
    (length_lt : string.length < 2 ^ 63) :
    (trimmed hostLen string).length < 2 ^ 31 := by
  have bounds := scanUri_bounds hostLen string
  unfold trimmed
  generalize scanUri hostLen string = scanned at bounds ⊢
  obtain ⟨i, found⟩ := scanned
  cases found with
  | true =>
      have place := bounds.2.1 rfl
      have upper := bounds.1
      simp only [if_true]
      rw [if_neg (by omega), List.append_nil, List.length_take]
      omega
  | false =>
      have lower := bounds.2.2 rfl
      have upper := bounds.1
      simp only [Bool.false_eq_true, if_false, List.nil_append]
      split
      · omega
      · exact Nat.two_pow_pos 31

theorem scanUri_of_fits {host uri : Block}
    (fits : host.length + (beforeQuery uri).length < 2 ^ 31) :
    scanUri host.length (host ++ uri) =
      (((host.length + (beforeQuery uri).length : Nat) : Int),
        decide (questionMark ∈ uri)) := by
  have start : Int.bmod host.length (2 ^ 32) = (host.length : Int) := by
    rw [Int.bmod_def]
    omega
  unfold scanUri
  rw [start]
  simp only [if_neg (show ¬ (host.length : Int) < 0 by omega)]
  rw [Int.toNat_natCast, List.drop_left, scan_eq fits]

theorem trimmed_of_fits {host uri : Block}
    (fits : host.length + (beforeQuery uri).length < 2 ^ 31) :
    trimmed host.length (host ++ uri) = host ++ beforeQuery uri := by
  unfold trimmed
  rw [scanUri_of_fits fits]
  simp only [Int.toNat_natCast]
  by_cases query : questionMark ∈ uri
  · obtain ⟨rest, split⟩ := Block.eq_takeWhile_append query
    have longer : (beforeQuery uri).length < uri.length := by
      have length := congrArg List.length split
      rw [List.length_append, List.length_cons] at length
      rw [beforeQuery]
      omega
    have start : uri.take (beforeQuery uri).length = beforeQuery uri := by
      have taken : (beforeQuery uri ++ questionMark :: rest).take
          (beforeQuery uri).length = beforeQuery uri := List.take_left
      rw [beforeQuery, ← split] at taken
      exact taken
    rw [if_pos (by simpa using query), if_neg, List.append_nil,
      List.take_append, List.take_of_length_le (by omega),
      Nat.add_sub_cancel_left, start]
    rw [List.length_append]
    omega
  · have whole : beforeQuery uri = uri := Block.takeWhile_absent query
    rw [whole] at fits
    rw [if_neg (by simpa using query), List.nil_append, whole,
      if_pos (by rw [List.length_append]; omega)]

theorem trimsUrl_iff_urlFits (t : RequestTarget) :
    t.TrimsUrl ↔ t.UrlFits := by
  have length_lt : (t.host ++ t.uri).length < 2 ^ 63 := by
    rw [List.length_append]
    exact t.length_lt
  constructor
  · intro trims
    rw [RequestTarget.TrimsUrl, joinOriUrl, if_pos rfl, List.nil_append,
      Prod.mk.injEq] at trims
    have same := trims.2
    have bound := length_trimmed_lt t.host.length length_lt
    rw [same, List.length_append] at bound
    exact bound
  · intro fits
    rw [RequestTarget.TrimsUrl, joinOriUrl, if_pos rfl, trimmed_of_fits fits]
    rfl

/-! The name. -/

theorem queryOffset_of_query {text : Block} (query : questionMark ∈ text)
    (address : Nat) :
    queryOffset text address = (beforeQuery text).length % 2 ^ 8 := by
  rw [queryOffset, strchr, if_pos query]
  rfl

theorem queryOffset_of_none {text : Block} (query : questionMark ∉ text)
    (address : Nat) :
    queryOffset text address = ((-(address : Int)) % 2 ^ 8).toNat := by
  rw [queryOffset, strchr, if_neg query]

theorem zero_notMem_operationName (uri : Block) (address : Nat) :
    (0 : UInt8) ∉ operationName uri address := by
  have text_noNul := Block.notMem_takeWhile 0 uri
  rw [operationName]
  split
  · exact fun member => text_noNul (List.mem_of_mem_take member)
  · exact text_noNul

theorem takeWhile_of_query {uri : Block} (query : questionMark ∈ uri)
    (noNul : (0 : UInt8) ∉ beforeQuery uri) :
    ∃ rest, uri.takeWhile (· != 0) =
      beforeQuery uri ++ questionMark :: rest := by
  obtain ⟨rest, split⟩ := Block.eq_takeWhile_append query
  refine ⟨rest.takeWhile (· != 0), ?_⟩
  have start : ∀ byte ∈ beforeQuery uri, (byte != 0) = true := by
    intro byte member
    exact bne_iff_ne.mpr fun zero => noNul (zero ▸ member)
  have whole : uri.takeWhile (· != 0) =
      (beforeQuery uri ++ questionMark :: rest).takeWhile (· != 0) :=
    congrArg _ split
  rw [whole, List.takeWhile_append_of_pos start,
    Block.takeWhile_cons_ne (by decide)]

theorem operationName_of_query {uri before rest : Block}
    (text : uri.takeWhile (· != 0) = before ++ questionMark :: rest)
    (absent : questionMark ∉ before) (address : Nat) :
    operationName uri address = before ↔
      0 < before.length ∧ before.length < 2 ^ 8 := by
  have offset : queryOffset (before ++ questionMark :: rest) address =
      before.length % 2 ^ 8 := by
    rw [queryOffset_of_query (by simp), beforeQuery,
      Block.takeWhile_append_stop absent]
  unfold operationName
  rw [text]
  dsimp only
  rw [offset]
  constructor
  · intro same
    have length := congrArg List.length same
    split at length
    · rw [List.length_take, List.length_append, List.length_cons] at length
      omega
    · rw [List.length_append, List.length_cons] at length
      omega
  · intro bounds
    obtain ⟨positive, small⟩ := bounds
    rw [Nat.mod_eq_of_lt small, if_pos positive, List.take_left]

theorem operationName_of_none {uri : Block} (query : questionMark ∉ uri)
    (noNul : (0 : UInt8) ∉ uri) (address : Nat) :
    operationName uri address = uri ↔
      (-(address : Int)) % 2 ^ 8 = 0 ∨
        (uri.length : Int) ≤ (-(address : Int)) % 2 ^ 8 := by
  unfold operationName
  rw [Block.takeWhile_absent noNul]
  dsimp only
  rw [queryOffset_of_none query]
  constructor
  · intro same
    have length := congrArg List.length same
    split at length
    · rw [List.length_take] at length
      omega
    · omega
  · rintro (zero | behind)
    · rw [zero]
      rfl
    · split
      · exact List.take_of_length_le (by omega)
      · rfl

/-- The name is cut where it should be just when the offset of the query, or
of the address, fits. -/
theorem operationName_iff (uri : Block) (address : Nat) :
    operationName uri address = beforeQuery uri ↔
      (0 : UInt8) ∉ beforeQuery uri ∧
        if questionMark ∈ uri then
          0 < (beforeQuery uri).length ∧ (beforeQuery uri).length < 2 ^ 8
        else
          (-(address : Int)) % 2 ^ 8 = 0 ∨
            (uri.length : Int) ≤ (-(address : Int)) % 2 ^ 8 := by
  by_cases noNul : (0 : UInt8) ∉ beforeQuery uri
  · by_cases query : questionMark ∈ uri
    · obtain ⟨rest, text⟩ := takeWhile_of_query query noNul
      rw [if_pos query, operationName_of_query text
        (Block.notMem_takeWhile questionMark uri)]
      exact ⟨fun fits => ⟨noNul, fits⟩, And.right⟩
    · have whole : beforeQuery uri = uri := Block.takeWhile_absent query
      rw [whole] at noNul ⊢
      rw [if_neg query, operationName_of_none query noNul]
      exact ⟨fun fits => ⟨noNul, fits⟩, And.right⟩
  · constructor
    · intro same
      exact absurd (same ▸ zero_notMem_operationName uri address) noNul
    · intro parts
      obtain ⟨absent, -⟩ := parts
      exact absurd absent noNul

theorem spanHost_string {host : Block} {serverName : Option ServerZval} :
    (∃ bytes, spanHost (some (.string host)) serverName =
        some (.string bytes)) ↔
      (host.head?.getD 0 = 0 → serverName ≠ some .other) := by
  unfold spanHost
  by_cases empty : host.head?.getD 0 = 0
  · cases serverName with
    | none => simp [empty]
    | some name => cases name <;> simp [empty]
  · simp [empty]

theorem trimsName_iff_nameFits (t : RequestTarget) :
    t.TrimsName ↔ t.NameFits := by
  unfold RequestTarget.TrimsName RequestTarget.NameFits RequestTarget.HostFits
    mainSpanName
  rw [← operationName_iff, ← spanHost_string]
  cases spanHost (some (.string t.host)) t.serverName with
  | none => simp
  | some host =>
      cases host with
      | other => simp
      | string host =>
          by_cases negative : urlLen host t.uri < 0
          · simp [negative, Int.not_le.mpr negative]
          · simp [negative, Int.not_lt.mp negative]

/-- Both are trimmed the same way just when the URL and the name fit. -/
theorem query_trimmed_iff (t : RequestTarget) :
    t.TrimsUrl ∧ t.TrimsName ↔ t.UrlFits ∧ t.NameFits := by
  rw [trimsUrl_iff_urlFits, trimsName_iff_nameFits]

/-- `/` and 299 more bytes before the query, on a host of one byte. -/
def longTarget : RequestTarget where
  host := [104]
  uri := List.replicate 300 47 ++ [questionMark, 120]
  serverName := none
  address := 4096
  length_lt := by
    rw [List.length_append, List.length_replicate]
    decide

theorem longTarget_not_trimmed :
    ¬ (longTarget.TrimsUrl ∧ longTarget.TrimsName) := by
  rw [trimsUrl_iff_urlFits, trimsName_iff_nameFits]
  intro trims
  obtain ⟨-, -, -, fits⟩ := trims
  have absent : questionMark ∉ List.replicate 300 47 :=
    fun member => absurd (List.eq_of_mem_replicate member) (by decide)
  have before : beforeQuery longTarget.uri = List.replicate 300 47 :=
    Block.takeWhile_append_stop absent [120]
  have query : questionMark ∈ longTarget.uri :=
    List.mem_append_right _ List.mem_cons_self
  rw [if_pos query, before, List.length_replicate] at fits
  omega

end Molten.Chain.QueryTrim
