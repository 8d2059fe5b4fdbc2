import Mathlib.Data.List.Defs
import Mathlib.Logic.Function.Basic
import Molten.Text.CString

namespace Molten.Intercept

open Molten.Text

/-! The overriding of the curl functions in the function table, on PHP 7. -/

structure ZendFunction (Handler : Type) where
  internal : Bool
  handler : Handler
  deriving DecidableEq

structure ReloadDef where
  origFunc : String
  overFunc : String
  saveFunc : String
  deriving DecidableEq, Repr

def prd : List ReloadDef :=
  [⟨"curl_setopt", "molten_curl_setopt", "origin_molten_curl_setopt"⟩,
   ⟨"curl_exec", "molten_curl_exec", "origin_molten_curl_exec"⟩,
   ⟨"curl_setopt_array", "molten_curl_setopt_array",
     "origin_molten_curl_setopt_array"⟩,
   ⟨"curl_reset", "molten_curl_reset", "origin_molten_curl_reset"⟩]

variable {Handler : Type}

abbrev FunctionTable (Handler : Type) := String → Option (ZendFunction Handler)

/-- The key of a string with a length of its own. -/
def keyOf (len : Nat) (text : String) : String := copyToField len text

/-- The key under which the done guard looks for the saved function: its name,
cut at the length of the other one. -/
def ReloadDef.guard (d : ReloadDef) : String :=
  keyOf d.origFunc.toList.length d.saveFunc

/-- `zend_hash_str_add_mem` keeps an entry that is there. -/
def addMem (key : String) (function : ZendFunction Handler)
    (table : FunctionTable Handler) : FunctionTable Handler :=
  if table key = none then Function.update table key (some function) else table

def updateMem (key : String) (function : ZendFunction Handler)
    (table : FunctionTable Handler) : FunctionTable Handler :=
  Function.update table key (some function)

def hashDel (key : String) (table : FunctionTable Handler) :
    FunctionTable Handler :=
  Function.update table key none

/-- One turn of the loop of `molten_reload_curl_function`.  `none` is the copy
from a `NULL` replacement. -/
def reloadDef (table : FunctionTable Handler) (d : ReloadDef) :
    Option (FunctionTable Handler) :=
  match table d.guard with
  | some _ => some table
  | none =>
      match table d.origFunc with
      | none => some table
      | some orig =>
          if orig.internal then
            (table d.overFunc).map fun replace =>
              updateMem d.origFunc replace (addMem d.saveFunc orig table)
          else some table

/-- The function table, and the static pointers to the saved functions by the
names of the curl functions. -/
structure Reloading (Handler : Type) where
  table : FunctionTable Handler
  origins : FunctionTable Handler

/-- What `origin_curl_setopt` and the like are set to at the end of
`molten_reload_curl_function`. -/
def retrieve (table : FunctionTable Handler)
    (origins : FunctionTable Handler) (d : ReloadDef) :
    FunctionTable Handler :=
  match table d.saveFunc with
  | some orig => Function.update origins d.origFunc (some orig)
  | none => origins

def moltenReloadCurlFunction (s : Reloading Handler) :
    Option (Reloading Handler) := do
  let table ← prd.foldlM reloadDef s.table
  return { table, origins := prd.foldl (retrieve table) s.origins }

def reloadTimes (s : Reloading Handler) : Nat → Option (Reloading Handler)
  | 0 => some s
  | n + 1 => do
      let s ← reloadTimes s n
      moltenReloadCurlFunction s

/-- `sizeof(p->save_func)`, the size of a pointer. -/
def saveFuncSize : Nat := 8

def clearDef (table : FunctionTable Handler) (d : ReloadDef) :
    FunctionTable Handler :=
  match table d.saveFunc with
  | some orig =>
      hashDel (keyOf saveFuncSize d.saveFunc) (updateMem d.origFunc orig table)
  | none => table

def moltenClearReloadFunction (table : FunctionTable Handler) :
    FunctionTable Handler :=
  prd.foldl clearDef table

example : prd.map ReloadDef.guard =
    ["origin_molt", "origin_mo", "origin_molten_cur", "origin_mol"] := by
  decide

/-- After a reload at least once and a clear the table is what it was, and what
was saved meanwhile was original. -/
def UnloadUndoes (s : Reloading Handler) (reloads : Nat) : Prop :=
  ∃ loaded, reloadTimes s (reloads + 1) = some loaded ∧
    moltenClearReloadFunction loaded.table = s.table ∧
    ∀ d ∈ prd, ∀ function, loaded.table d.saveFunc = some function →
      s.table d.origFunc = some function

def Overrides (table : FunctionTable Handler) (d : ReloadDef) : Prop :=
  table d.guard = none ∧
    ∃ function, table d.origFunc = some function ∧ function.internal = true

instance (table : FunctionTable Handler) (d : ReloadDef) :
    Decidable (Overrides table d) :=
  decidable_of_iff ((table d.guard).isNone ∧
      (table d.origFunc).any ZendFunction.internal) <| by
    rw [Overrides, Option.isNone_iff_eq_none, Option.any_eq_true]

/-! Which keys each turn of a loop reads and writes. -/

def ReloadDef.reads (d : ReloadDef) : List String :=
  [d.guard, d.origFunc, d.overFunc, d.saveFunc]

def ReloadDef.writes (d : ReloadDef) : List String := [d.origFunc, d.saveFunc]

theorem reads_apart : ∀ d ∈ prd, ∀ e ∈ prd, d ≠ e →
    ∀ key ∈ d.reads, key ∉ e.writes := by decide

theorem overFunc_not_written : ∀ d ∈ prd, ∀ e ∈ prd,
    d.overFunc ∉ e.writes := by decide

theorem saveFunc_ne_origFunc : ∀ d ∈ prd, ∀ e ∈ prd,
    d.saveFunc ≠ e.origFunc := by decide

theorem saveFunc_ne_deleted : ∀ d ∈ prd, ∀ e ∈ prd,
    d.saveFunc ≠ keyOf saveFuncSize e.saveFunc := by decide

theorem addMem_of_ne {key other : String} (h : other ≠ key)
    (function : ZendFunction Handler) (table : FunctionTable Handler) :
    addMem key function table other = table other := by
  rw [addMem]
  split
  · exact Function.update_of_ne h ..
  · rfl

theorem addMem_self_of_some {key : String} {function : ZendFunction Handler}
    {table : FunctionTable Handler} (h : table key = some function)
    (other : ZendFunction Handler) : addMem key other table = table :=
  if_neg (by simp [h])

theorem addMem_self_of_none {key : String} {table : FunctionTable Handler}
    (h : table key = none) (function : ZendFunction Handler) :
    addMem key function table key = some function := by
  simp [addMem, h]

theorem reloadDef_cases {table table' : FunctionTable Handler} {d : ReloadDef}
    (h : reloadDef table d = some table') :
    (¬ Overrides table d ∧ table' = table) ∨
      ∃ orig replace, table d.guard = none ∧ table d.origFunc = some orig ∧
        orig.internal = true ∧ table d.overFunc = some replace ∧
        table' =
          updateMem d.origFunc replace (addMem d.saveFunc orig table) := by
  unfold reloadDef at h
  split at h
  · rename_i hguard
    refine .inl ⟨fun ⟨hnone, _⟩ => ?_, (Option.some.inj h).symm⟩
    exact Option.some_ne_none _ (hguard.symm.trans hnone)
  · rename_i hguard
    split at h
    · rename_i horig
      refine .inl ⟨fun ⟨_, _, hsome, _⟩ => ?_, (Option.some.inj h).symm⟩
      exact Option.some_ne_none _ (hsome.symm.trans horig)
    · rename_i orig horig
      split at h
      · rename_i hinternal
        obtain ⟨replace, hreplace, rfl⟩ := Option.map_eq_some_iff.mp h
        exact .inr ⟨orig, replace, hguard, horig, hinternal, hreplace, rfl⟩
      · rename_i hinternal
        refine .inl ⟨fun ⟨_, function, hsome, h'⟩ => ?_,
          (Option.some.inj h).symm⟩
        obtain rfl := Option.some.inj (hsome.symm.trans horig)
        exact hinternal h'

theorem reloadDef_frame {table table' : FunctionTable Handler} {d : ReloadDef}
    (h : reloadDef table d = some table') {key : String}
    (hkey : key ∉ d.writes) : table' key = table key := by
  simp only [ReloadDef.writes, List.mem_cons, List.not_mem_nil, or_false,
    not_or] at hkey
  obtain ⟨-, rfl⟩ | ⟨orig, replace, -, -, -, -, rfl⟩ := reloadDef_cases h
  · rfl
  · rw [updateMem, Function.update_of_ne hkey.1, addMem_of_ne hkey.2]

theorem reloadDef_saveFunc {table table' : FunctionTable Handler}
    {e : ReloadDef} (he : e ∈ prd) (h : reloadDef table e = some table')
    {d : ReloadDef} (hd : d ∈ prd) {function : ZendFunction Handler}
    (hsaved : table d.saveFunc = some function) :
    table' d.saveFunc = some function := by
  obtain ⟨-, rfl⟩ | ⟨orig, replace, -, -, -, -, rfl⟩ := reloadDef_cases h
  · exact hsaved
  · rw [updateMem, Function.update_of_ne (saveFunc_ne_origFunc d hd e he)]
    by_cases hsame : d.saveFunc = e.saveFunc
    · rw [addMem_self_of_some (hsame ▸ hsaved), hsaved]
    · rw [addMem_of_ne hsame, hsaved]

theorem reloadDef_overrides {table table' : FunctionTable Handler}
    {d : ReloadDef} (hd : d ∈ prd) (h : reloadDef table d = some table')
    (hoverrides : Overrides table d) (hsave : table d.saveFunc = none) :
    table' d.saveFunc = table d.origFunc := by
  obtain ⟨hnot, -⟩ | ⟨orig, replace, -, horig, -, -, rfl⟩ := reloadDef_cases h
  · exact absurd hoverrides hnot
  · rw [updateMem, Function.update_of_ne (saveFunc_ne_origFunc d hd d hd),
      addMem_self_of_none hsave, horig]

theorem reloadDef_isSome {table : FunctionTable Handler} {d : ReloadDef}
    (h : (table d.overFunc).isSome) :
    ∃ table', reloadDef table d = some table' := by
  obtain ⟨replace, hreplace⟩ := Option.isSome_iff_exists.mp h
  unfold reloadDef
  rw [hreplace]
  split
  · exact ⟨_, rfl⟩
  · split
    · exact ⟨_, rfl⟩
    · split <;> exact ⟨_, rfl⟩

/-! Whole reloads. -/

theorem reload_saveFunc {defs : List ReloadDef} (hdefs : defs ⊆ prd)
    {table table' : FunctionTable Handler}
    (h : defs.foldlM reloadDef table = some table') {d : ReloadDef}
    (hd : d ∈ prd) {function : ZendFunction Handler}
    (hsaved : table d.saveFunc = some function) :
    table' d.saveFunc = some function := by
  induction defs generalizing table with
  | nil =>
      obtain rfl := Option.some.inj h
      exact hsaved
  | cons e defs ih =>
      obtain ⟨he, hrest⟩ := List.cons_subset.mp hdefs
      rw [List.foldlM_cons, Option.bind_eq_bind, Option.bind_eq_some_iff] at h
      obtain ⟨table₁, hfirst, h⟩ := h
      exact ih hrest h (reloadDef_saveFunc he hfirst hd hsaved)

theorem overrides_congr {table table' : FunctionTable Handler} {d : ReloadDef}
    (h : ∀ key ∈ d.reads, table' key = table key) :
    Overrides table' d ↔ Overrides table d := by
  rw [Overrides, Overrides, h d.guard (by simp [ReloadDef.reads]),
    h d.origFunc (by simp [ReloadDef.reads])]

theorem reload_overrides {defs : List ReloadDef} (hdefs : defs ⊆ prd)
    {table table' : FunctionTable Handler}
    (h : defs.foldlM reloadDef table = some table') {d : ReloadDef}
    (hd : d ∈ defs) (hoverrides : Overrides table d)
    (hsave : table d.saveFunc = none) :
    table' d.saveFunc = table d.origFunc := by
  induction defs generalizing table with
  | nil => exact absurd hd List.not_mem_nil
  | cons e defs ih =>
      obtain ⟨he, hrest⟩ := List.cons_subset.mp hdefs
      rw [List.foldlM_cons, Option.bind_eq_bind, Option.bind_eq_some_iff] at h
      obtain ⟨table₁, hfirst, h⟩ := h
      by_cases hde : d = e
      · subst hde
        have hsaved := reloadDef_overrides he hfirst hoverrides hsave
        obtain ⟨-, function, horig, -⟩ := hoverrides
        rw [horig] at hsaved ⊢
        exact reload_saveFunc hrest h he hsaved
      · have hd' := (List.mem_cons.mp hd).resolve_left hde
        have hreads : ∀ key ∈ d.reads, table₁ key = table key :=
          fun key hkey => reloadDef_frame hfirst
            (reads_apart d (hdefs hd) e he hde key hkey)
        rw [ih hrest h hd' ((overrides_congr hreads).mpr hoverrides) ?_,
          hreads d.origFunc (by simp [ReloadDef.reads])]
        rw [hreads d.saveFunc (by simp [ReloadDef.reads]), hsave]

theorem reload_isSome {defs : List ReloadDef} (hdefs : defs ⊆ prd)
    {table : FunctionTable Handler}
    (hover : ∀ d ∈ prd, (table d.overFunc).isSome) :
    ∃ table', defs.foldlM reloadDef table = some table' ∧
      ∀ d ∈ prd, (table' d.overFunc).isSome := by
  induction defs generalizing table with
  | nil => exact ⟨table, rfl, hover⟩
  | cons e defs ih =>
      obtain ⟨he, hrest⟩ := List.cons_subset.mp hdefs
      obtain ⟨table₁, hfirst⟩ := reloadDef_isSome (hover e he)
      have hover₁ : ∀ d ∈ prd, (table₁ d.overFunc).isSome := fun d hd => by
        rw [reloadDef_frame hfirst (overFunc_not_written d hd e he)]
        exact hover d hd
      obtain ⟨table', h, hover'⟩ := ih hrest hover₁
      refine ⟨table', ?_, hover'⟩
      rw [List.foldlM_cons, hfirst]
      exact h

theorem reload_of_not_overrides {defs : List ReloadDef}
    {table : FunctionTable Handler} (hdefs : defs ⊆ prd)
    (hover : ∀ d ∈ prd, (table d.overFunc).isSome)
    (hnot : ∀ d ∈ defs, ¬ Overrides table d) :
    defs.foldlM reloadDef table = some table := by
  induction defs with
  | nil => rfl
  | cons e defs ih =>
      obtain ⟨hhead, htail⟩ := List.forall_mem_cons.mp hnot
      obtain ⟨he, hrest⟩ := List.cons_subset.mp hdefs
      obtain ⟨table₁, hfirst⟩ := reloadDef_isSome (hover e he)
      obtain ⟨-, rfl⟩ | ⟨orig, _, hguard, horig, hinternal, -⟩ :=
        reloadDef_cases hfirst
      · rw [List.foldlM_cons, hfirst]
        exact ih hrest htail
      · exact absurd ⟨hguard, orig, horig, hinternal⟩ hhead

/-! Several reloads. -/

/-- The table holds the overriding functions, and none of the names to save
under. -/
structure Unloaded (table : FunctionTable Handler) : Prop where
  overFunc : ∀ d ∈ prd, (table d.overFunc).isSome
  saveFunc : ∀ d ∈ prd, table d.saveFunc = none

theorem exists_reloadTimes {s : Reloading Handler} (hs : Unloaded s.table)
    (reloads : Nat) :
    ∃ loaded, reloadTimes s reloads = some loaded ∧
      ∀ d ∈ prd, (loaded.table d.overFunc).isSome := by
  induction reloads with
  | zero => exact ⟨s, rfl, hs.overFunc⟩
  | succ reloads ih =>
      obtain ⟨loaded, hloaded, hover⟩ := ih
      obtain ⟨table, htable, hover'⟩ := reload_isSome (List.Subset.refl prd) hover
      refine ⟨⟨table, prd.foldl (retrieve table) loaded.origins⟩, ?_, hover'⟩
      simp [reloadTimes, hloaded, moltenReloadCurlFunction, htable]

theorem moltenReload_table {s loaded : Reloading Handler}
    (h : moltenReloadCurlFunction s = some loaded) :
    prd.foldlM reloadDef s.table = some loaded.table := by
  simp only [moltenReloadCurlFunction, Option.bind_eq_bind,
    Option.bind_eq_some_iff, Option.pure_def, Option.some.injEq] at h
  obtain ⟨table, htable, rfl⟩ := h
  exact htable

theorem reloadTimes_saveFunc {s loaded : Reloading Handler} {reloads : Nat}
    (h : reloadTimes s (reloads + 1) = some loaded)
    (hs : Unloaded s.table) {d : ReloadDef} (hd : d ∈ prd)
    (hoverrides : Overrides s.table d) :
    loaded.table d.saveFunc = s.table d.origFunc := by
  induction reloads generalizing loaded with
  | zero =>
      exact reload_overrides (List.Subset.refl prd) (moltenReload_table h) hd
        hoverrides (hs.saveFunc d hd)
  | succ reloads ih =>
      obtain ⟨before, hbefore, hlast⟩ := Option.bind_eq_some_iff.mp h
      have hsaved := ih hbefore
      obtain ⟨-, function, horig, -⟩ := hoverrides
      rw [horig] at hsaved ⊢
      exact reload_saveFunc (List.Subset.refl prd) (moltenReload_table hlast) hd
        hsaved

theorem reloadTimes_of_not_overrides {s : Reloading Handler}
    (hs : Unloaded s.table) (hnot : ∀ d ∈ prd, ¬ Overrides s.table d)
    (reloads : Nat) :
    ∃ loaded, reloadTimes s reloads = some loaded ∧
      loaded.table = s.table := by
  induction reloads with
  | zero => exact ⟨s, rfl, rfl⟩
  | succ reloads ih =>
      obtain ⟨loaded, hloaded, htable⟩ := ih
      have hreload := reload_of_not_overrides (List.Subset.refl prd)
        hs.overFunc hnot
      refine ⟨⟨s.table, prd.foldl (retrieve s.table) loaded.origins⟩, ?_, rfl⟩
      simp [reloadTimes, hloaded, moltenReloadCurlFunction, htable, hreload]

/-- What is saved is original, and so is what is not yet saved. -/
def SavesOriginal (start table : FunctionTable Handler) : Prop :=
  ∀ d ∈ prd,
    (table d.saveFunc = none ∧ table d.origFunc = start d.origFunc) ∨
      ∃ function, table d.saveFunc = some function ∧
        start d.origFunc = some function

theorem SavesOriginal.reloadDef {start table table' : FunctionTable Handler}
    (htable : SavesOriginal start table) {e : ReloadDef} (he : e ∈ prd)
    (h : reloadDef table e = some table') : SavesOriginal start table' := by
  intro d hd
  obtain ⟨hnone, horig⟩ | ⟨function, hsaved, horig⟩ := htable d hd
  · by_cases hde : d = e
    · subst hde
      obtain ⟨-, rfl⟩ | ⟨orig, replace, hguard, hfound, hinternal, -, -⟩ :=
        reloadDef_cases h
      · exact .inl ⟨hnone, horig⟩
      · have hsave := reloadDef_overrides he h ⟨hguard, orig, hfound, hinternal⟩
          hnone
        exact .inr ⟨orig, hsave.trans hfound, horig.symm.trans hfound⟩
    · have hreads : ∀ key ∈ d.reads, table' key = table key :=
        fun key hkey => reloadDef_frame h (reads_apart d hd e he hde key hkey)
      refine .inl ⟨?_, ?_⟩
      · rw [hreads d.saveFunc (by simp [ReloadDef.reads]), hnone]
      · rw [hreads d.origFunc (by simp [ReloadDef.reads]), horig]
  · exact .inr ⟨function, reloadDef_saveFunc he h hd hsaved, horig⟩

theorem SavesOriginal.reload {start table table' : FunctionTable Handler}
    (htable : SavesOriginal start table) {defs : List ReloadDef}
    (hdefs : defs ⊆ prd) (h : defs.foldlM Intercept.reloadDef table =
      some table') : SavesOriginal start table' := by
  induction defs generalizing table with
  | nil =>
      obtain rfl := Option.some.inj h
      exact htable
  | cons e defs ih =>
      obtain ⟨he, hrest⟩ := List.cons_subset.mp hdefs
      rw [List.foldlM_cons, Option.bind_eq_bind, Option.bind_eq_some_iff] at h
      obtain ⟨table₁, hfirst, h⟩ := h
      exact ih (htable.reloadDef he hfirst) hrest h

theorem SavesOriginal.of_reloads {s loaded : Reloading Handler}
    (hs : Unloaded s.table) {reloads : Nat}
    (h : reloadTimes s reloads = some loaded) :
    SavesOriginal s.table loaded.table := by
  induction reloads generalizing loaded with
  | zero =>
      obtain rfl := Option.some.inj h
      exact fun d hd => .inl ⟨hs.saveFunc d hd, rfl⟩
  | succ reloads ih =>
      obtain ⟨before, hbefore, hlast⟩ := Option.bind_eq_some_iff.mp h
      exact (ih hbefore).reload (List.Subset.refl prd)
        (moltenReload_table hlast)

/-- However often the functions are reloaded, no override is saved. -/
theorem savesOriginal_reloadTimes {s : Reloading Handler}
    (hs : Unloaded s.table) (reloads : Nat) :
    ∃ loaded, reloadTimes s reloads = some loaded ∧
      SavesOriginal s.table loaded.table := by
  obtain ⟨loaded, hloaded, -⟩ := exists_reloadTimes hs reloads
  exact ⟨loaded, hloaded, SavesOriginal.of_reloads hs hloaded⟩

/-! The clear. -/

theorem clearDef_frame (table : FunctionTable Handler) {d : ReloadDef}
    {key : String} (horig : key ≠ d.origFunc)
    (hdeleted : key ≠ keyOf saveFuncSize d.saveFunc) :
    clearDef table d key = table key := by
  cases hsaved : table d.saveFunc with
  | none => simp [clearDef, hsaved]
  | some orig =>
      simp [clearDef, hsaved, hashDel, updateMem, Function.update_of_ne,
        horig, hdeleted]

theorem clear_saveFunc {defs : List ReloadDef} (hdefs : defs ⊆ prd)
    (table : FunctionTable Handler) {d : ReloadDef} (hd : d ∈ prd) :
    defs.foldl clearDef table d.saveFunc = table d.saveFunc := by
  induction defs generalizing table with
  | nil => rfl
  | cons e defs ih =>
      obtain ⟨he, hrest⟩ := List.cons_subset.mp hdefs
      rw [List.foldl_cons, ih hrest]
      exact clearDef_frame table (saveFunc_ne_origFunc d hd e he)
        (saveFunc_ne_deleted d hd e he)

theorem clear_of_none {defs : List ReloadDef} {table : FunctionTable Handler}
    (h : ∀ d ∈ defs, table d.saveFunc = none) :
    defs.foldl clearDef table = table := by
  induction defs with
  | nil => rfl
  | cons e defs ih =>
      obtain ⟨hhead, htail⟩ := List.forall_mem_cons.mp h
      have hfirst : clearDef table e = table := by simp [clearDef, hhead]
      rw [List.foldl_cons, hfirst, ih htail]

/-- A saved function stays saved, since the clear deletes another key. -/
theorem not_unloadUndoes {s : Reloading Handler} (hs : Unloaded s.table)
    {d : ReloadDef} (hd : d ∈ prd) (hoverrides : Overrides s.table d)
    (reloads : Nat) : ¬ UnloadUndoes s reloads := by
  rintro ⟨loaded, hloaded, hclear, -⟩
  have hsaved := reloadTimes_saveFunc hloaded hs hd hoverrides
  rw [← clear_saveFunc (List.Subset.refl prd) loaded.table hd] at hsaved
  obtain ⟨-, function, horig, -⟩ := hoverrides
  have hnone := (congrFun hclear d.saveFunc).trans (hs.saveFunc d hd)
  rw [moltenClearReloadFunction, hsaved, horig] at hnone
  exact Option.some_ne_none _ hnone

/-- Unloading undoes loading only where loading does nothing. -/
theorem unloadUndoes_iff (s : Reloading Handler) (hs : Unloaded s.table)
    (reloads : Nat) :
    UnloadUndoes s reloads ↔ ∀ d ∈ prd, ¬ Overrides s.table d := by
  constructor
  · exact fun h d hd hoverrides => not_unloadUndoes hs hd hoverrides reloads h
  · intro hnot
    obtain ⟨loaded, hloaded, htable⟩ :=
      reloadTimes_of_not_overrides hs hnot (reloads + 1)
    refine ⟨loaded, hloaded, ?_, ?_⟩
    · rw [htable, moltenClearReloadFunction, clear_of_none hs.saveFunc]
    · intro d hd function hsaved
      rw [htable, hs.saveFunc d hd] at hsaved
      exact absurd hsaved (by simp)

/-- A table whose curl functions are all left alone: one is not internal, one
is absent, and the guards of the other two are taken. -/
def keptTable : FunctionTable String := fun name =>
  if name ∈ prd.map ReloadDef.overFunc ++ ["curl_exec", "curl_reset"] then
    some ⟨true, name⟩
  else if name ∈ ["curl_setopt", "origin_mo", "origin_mol"] then
    some ⟨false, name⟩
  else none

def curlTable : FunctionTable String := fun name =>
  if name ∈ prd.map ReloadDef.overFunc ++ prd.map ReloadDef.origFunc then
    some ⟨true, name⟩
  else none

theorem unloadUndoes_keptTable :
    UnloadUndoes ⟨keptTable, fun _ => none⟩ 1 ∧
      ¬ UnloadUndoes ⟨curlTable, fun _ => none⟩ 1 := by
  have hkept : ∀ d ∈ prd, ¬ Overrides keptTable d := by decide
  have hcurl : ¬ ∀ d ∈ prd, ¬ Overrides curlTable d := by decide
  constructor
  · exact (unloadUndoes_iff ⟨keptTable, fun _ => none⟩
      ⟨by decide, by decide⟩ 1).mpr hkept
  · exact fun h => hcurl ((unloadUndoes_iff ⟨curlTable, fun _ => none⟩
      ⟨by decide, by decide⟩ 1).mp h)

theorem not_unloadUndoes_curlTable :
    Unloaded curlTable ∧ ¬ UnloadUndoes ⟨curlTable, fun _ => none⟩ 0 := by
  have hs : Unloaded curlTable := ⟨by decide, by decide⟩
  refine ⟨hs, not_unloadUndoes hs List.mem_cons_self ⟨by decide, ?_⟩ 0⟩
  exact ⟨⟨true, "curl_setopt"⟩, by decide, rfl⟩

end Molten.Intercept
