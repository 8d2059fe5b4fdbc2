import Molten.Span.Annotations

namespace Molten.Span

open Molten.Php
open Molten.Text

/-! What a SkyWalking span takes from outside its annotations: a long text is
read on behind its buffer. -/

namespace Ba

def isPeer (ba : Ba) : Bool :=
  match ba.type with
  | .sa => true
  | .saHost => true
  | .saIp => true
  | _ => false

/-- The text ends within the buffer, or is not shown. -/
def Fits (ba : Ba) : Prop :=
  ba.isPeer = false → ∀ value, ba.value = some value → value.length ≤ 128

/-- Without the address that only a peer shows. -/
def shown (ba : Ba) : Ba :=
  if ba.isPeer then ba
  else { ba with serviceName := "", ipv4 := none, port := 0 }

/-- As the chain adds it, unless it is a peer. -/
def under (pct : ChainInfo) (ba : Ba) : Ba :=
  if ba.isPeer then ba else spanAddBaEx pct ba.key ba.value ba.type

theorem shown_under (pct : ChainInfo) (ba : Ba) :
    (ba.under pct).shown = ba.shown := by
  obtain ⟨key, value, serviceName, ipv4, port, type⟩ := ba
  cases type <;> rfl

end Ba

/-! The peer of the chain itself, whose address is kept in 16 bytes. -/

theorem length_peerName_spanAddBaEx {pct : ChainInfo}
    (hip : pct.ip.length ≤ 15) (key : String) (value : Option String)
    (type : BaType) :
    (spanAddBaEx pct key value type).peerName.length < peerNameSize := by
  have hport := length_printLong_le pct.port
  have hpeer : (spanAddBaEx pct key value type).peerName =
      pct.ip ++ ":" ++ printLong pct.port := rfl
  rw [String.length_toList] at hport
  rw [hpeer, String.length_append, String.length_append, peerNameSize,
    show ":".length = 1 from rfl]
  omega

theorem basFit_under_iff {pct : ChainInfo} (hip : pct.ip.length ≤ 15)
    (psb : SpanBuilder) (bas : List Ba) :
    psb.BasFit (bas.map (Ba.under pct)) ↔
      (psb.type = .skywalking → ∀ ba ∈ bas, ba.isPeer = true →
        ba.value.isSome → ba.peerName.length < peerNameSize) := by
  unfold SpanBuilder.BasFit
  refine imp_congr_right fun _ => ?_
  rw [List.forall_mem_map]
  refine forall₂_congr fun ba _ => ?_
  cases hpeer : ba.isPeer with
  | true => simp [Ba.under, hpeer]
  | false =>
      refine iff_of_true (fun _ => ?_) (by simp)
      rw [Ba.under, hpeer]
      exact length_peerName_spanAddBaEx hip _ _ _

/-- So the buffers fit under both chains, or under none. -/
theorem basFit_iff_of_under {pct pct' : ChainInfo} (hip : pct.ip.length ≤ 15)
    (hip' : pct'.ip.length ≤ 15) {psb psb' : SpanBuilder}
    (htype : psb'.type = psb.type) {bas bas' : List Ba}
    (hself : bas'.map (Ba.under pct') = bas')
    (h : bas'.map (Ba.under pct) = bas) : psb'.BasFit bas' ↔ psb.BasFit bas := by
  rw [← h, basFit_under_iff hip, ← htype, ← basFit_under_iff hip', hself]

theorem basFit_of_not_peer {pct : ChainInfo} (hip : pct.ip.length ≤ 15)
    {bas : List Ba} (hself : bas.map (Ba.under pct) = bas)
    (hpeer : ∀ ba ∈ bas, ba.isPeer = false) (psb : SpanBuilder) :
    psb.BasFit bas := by
  rw [← hself, basFit_under_iff hip]
  intro _ ba hba htrue
  rw [hpeer ba hba] at htrue
  cases htrue

/-! Spans that do not depend on it. -/

theorem skCut_of_le {value : String} (h : value.length ≤ 128)
    (residue : String) : skCut residue value = value :=
  if_neg (Nat.not_lt.mpr h)

theorem skSpanAddBa_shown (residue : String) (span : HashTable)
    (timestamp : Nat) (ba : Ba) :
    skSpanAddBa residue span timestamp ba.shown =
      skSpanAddBa residue span timestamp ba := by
  obtain ⟨key, value, serviceName, ipv4, port, type⟩ := ba
  cases type <;> cases value <;> rfl

theorem skSpanAddBa_of_fits {ba : Ba} (h : ba.Fits) (residue residue' : String)
    (span : HashTable) (timestamp : Nat) :
    skSpanAddBa residue span timestamp ba =
      skSpanAddBa residue' span timestamp ba := by
  unfold skSpanAddBa
  cases hvalue : ba.value with
  | none => rfl
  | some value =>
      by_cases hpeer : ba.isPeer = false
      · have hlen := h hpeer value hvalue
        simp only [skCut_of_le hlen]
      · unfold Ba.isPeer at hpeer
        cases htype : ba.type <;> simp [htype] at hpeer <;> rfl

theorem spanAddBas_shown (residue : String) (timestamp : Nat)
    (span : HashTable) (bas : List Ba) :
    (⟨.skywalking, residue⟩ : SpanBuilder).spanAddBas timestamp span
        (bas.map Ba.shown) =
      (⟨.skywalking, residue⟩ : SpanBuilder).spanAddBas timestamp span
        bas := by
  rw [SpanBuilder.spanAddBas, List.foldl_map]
  exact congrArg (List.foldl · span bas)
    (funext₂ fun span ba => skSpanAddBa_shown residue span timestamp ba)

theorem spanAddBas_of_fits {bas bas' : List Ba}
    (hshown : bas.map Ba.shown = bas'.map Ba.shown)
    (hfits : ∀ ba ∈ bas, ba.Fits) (residue residue' : String)
    (timestamp : Nat) (span : HashTable) :
    (⟨.skywalking, residue⟩ : SpanBuilder).spanAddBas timestamp span bas =
      (⟨.skywalking, residue'⟩ : SpanBuilder).spanAddBas timestamp span
        bas' := by
  rw [← spanAddBas_shown residue', ← hshown, spanAddBas_shown]
  clear hshown
  induction bas generalizing span with
  | nil => rfl
  | cons ba bas ih =>
      rw [List.forall_mem_cons] at hfits
      have hstep := skSpanAddBa_of_fits hfits.1 residue residue' span timestamp
      exact (ih hfits.2 _).trans (congrArg
        ((⟨.skywalking, residue'⟩ : SpanBuilder).spanAddBas timestamp · bas)
        hstep)

/-! Spans that do. -/

theorem eq_of_flatMap_eq {α β : Type} {f g : α → List β} {items : List α}
    (hlength : ∀ item, (f item).length = (g item).length)
    (h : items.flatMap f = items.flatMap g) : ∀ item ∈ items, f item = g item := by
  induction items with
  | nil => exact fun _ hitem => nomatch hitem
  | cons first items ih =>
      rw [List.flatMap_cons, List.flatMap_cons] at h
      obtain ⟨hfirst, hrest⟩ := List.append_inj h (hlength first)
      exact List.forall_mem_cons.mpr ⟨hfirst, ih hrest⟩

theorem skCut_residue_inj {value : String}
    (h : skCut "" value = skCut "x" value) : value.length ≤ 128 := by
  by_contra hlong
  rw [skCut, skCut, if_pos (Nat.not_le.mp hlong),
    if_pos (Nat.not_le.mp hlong)] at h
  have hlength := congrArg String.length h
  simp [String.length_append] at hlength

theorem length_skTagged (residue residue' : String) (ba : Ba) :
    (skTagged residue ba).length = (skTagged residue' ba).length := by
  unfold skTagged
  cases ba.value with
  | none => rfl
  | some value => cases ba.type <;> rfl

theorem length_skLogged (residue residue' : String) (timestamp : Nat)
    (ba : Ba) :
    (skLogged residue timestamp ba).length =
      (skLogged residue' timestamp ba).length := by
  unfold skLogged
  cases ba.value with
  | none => rfl
  | some value => cases ba.type <;> rfl

theorem fits_of_shown {ba : Ba} {timestamp : Nat}
    (htagged : skTagged "" ba = skTagged "x" ba)
    (hlogged : skLogged "" timestamp ba = skLogged "x" timestamp ba) :
    ba.Fits := by
  intro hpeer value hvalue
  apply skCut_residue_inj
  unfold skTagged at htagged
  unfold skLogged at hlogged
  unfold Ba.isPeer at hpeer
  cases htype : ba.type with
  | sa => simp [htype] at hpeer
  | saHost => simp [htype] at hpeer
  | saIp => simp [htype] at hpeer
  | normal => simpa [hvalue, htype] using htagged
  | saDsn => simpa [hvalue, htype] using htagged
  | path => simpa [hvalue, htype] using htagged
  | error =>
      rw [hvalue, htype] at hlogged
      have hlog := Zval.array.inj (List.head_eq_of_cons_eq hlogged)
      have hfields := congrArg
        (fun log : HashTable => (log.inner "ld").values) hlog
      simp only [skLog_errorFields] at hfields
      have hmessage := skTag_injective.list_map hfields
      simpa [errorFields] using hmessage

/-- A span is the same over two memories only if its texts fit. -/
theorem fits_of_spanAddBas_eq {span : HashTable} (hspan : SkReady span)
    {bas : List Ba} {timestamp : Nat}
    (h : (⟨.skywalking, ""⟩ : SpanBuilder).spanAddBas timestamp span bas =
      (⟨.skywalking, "x"⟩ : SpanBuilder).spanAddBas timestamp span bas) :
    ∀ ba ∈ bas, ba.Fits := by
  obtain ⟨hto, hlo⟩ := skSpanAddBas_view "" timestamp bas hspan
  obtain ⟨hto', hlo'⟩ := skSpanAddBas_view "x" timestamp bas hspan
  rw [h, hto'] at hto
  rw [h, hlo'] at hlo
  have htagged := eq_of_flatMap_eq (fun ba => by
    rw [List.length_map, List.length_map, length_skTagged])
    (List.append_cancel_left hto.symm)
  have hlogged := eq_of_flatMap_eq (length_skLogged "" "x" timestamp)
    (List.append_cancel_left hlo.symm)
  exact fun ba hba => fits_of_shown
    (skTag_injective.list_map (htagged ba hba)) (hlogged ba hba)

/-! The fields that annotations leave alone. -/

theorem find_skAddTag_of_ne {name : String} (hto : name ≠ "to")
    (span : HashTable) (key : String) (value : Option String) :
    (skAddTag span key value).find (.name name) =
      span.find (.name name) := by
  cases value with
  | none => rfl
  | some value => exact HashTable.find_within_of_ne hto _

theorem find_skSpanAddBa_of_ne {name : String} {ba : Ba}
    (hname : name ∉ ["to", "lo", "ie"])
    (hpeer : name ≠ "pn" ∨ ba.isPeer = false) (residue : String)
    (span : HashTable) (timestamp : Nat) :
    (skSpanAddBa residue span timestamp ba).find (.name name) =
      span.find (.name name) := by
  simp only [List.mem_cons, List.not_mem_nil, or_false, not_or] at hname
  obtain ⟨hto, hlo, hie⟩ := hname
  have peer : ∀ addressKey, ba.isPeer = true →
      (skAddPeer span addressKey ba).find (.name name) =
        span.find (.name name) := by
    intro addressKey htrue
    have hpn : name ≠ "pn" := hpeer.resolve_right (by simp [htrue])
    rw [skAddPeer, find_skAddTag_of_ne hto, find_skAddTag_of_ne hto,
      find_skAddTag_of_ne hto, HashTable.find_addAssoc_of_ne hpn]
  unfold skSpanAddBa
  unfold Ba.isPeer at peer
  cases ba.value with
  | none => rfl
  | some value =>
      cases htype : ba.type with
      | sa => exact peer _ (by rw [htype])
      | saHost => exact peer _ (by rw [htype])
      | saIp => exact peer _ (by rw [htype])
      | normal => exact find_skAddTag_of_ne hto _ _ _
      | saDsn => exact find_skAddTag_of_ne hto _ _ _
      | path => exact find_skAddTag_of_ne hto _ _ _
      | error =>
          simp only
          rw [skAddLog, HashTable.find_within_of_ne hlo,
            HashTable.find_addAssoc_of_ne hie, find_skAddTag_of_ne hto]

theorem find_spanAddBas_of_ne {name : String} {bas : List Ba}
    (hname : name ∉ ["to", "lo", "ie"])
    (hpeer : name ≠ "pn" ∨ ∀ ba ∈ bas, ba.isPeer = false) (residue : String)
    (timestamp : Nat) (span : HashTable) :
    ((⟨.skywalking, residue⟩ : SpanBuilder).spanAddBas timestamp span
      bas).find (.name name) = span.find (.name name) := by
  induction bas generalizing span with
  | nil => rfl
  | cons ba bas ih =>
      have hstep := find_skSpanAddBa_of_ne hname
        (hpeer.imp_right fun h => h ba List.mem_cons_self) residue span
        timestamp
      rw [← hstep]
      exact ih (hpeer.imp_right fun h ba hba =>
        h ba (List.mem_cons_of_mem _ hba)) _

end Molten.Span
