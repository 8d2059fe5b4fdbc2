import Mathlib.Data.List.Infix

namespace Molten.Text

/-! Paths of a file system, one character a byte. -/

abbrev Path := List Char

namespace Path

def dot : Path := ['.']

def dotDot : Path := ['.', '.']

def EndsInSlash (path : Path) : Prop := path.getLast? = some '/'

instance (path : Path) : Decidable path.EndsInSlash :=
  inferInstanceAs (Decidable (_ = _))

/-- The names between the slashes. -/
def components (path : Path) : List Path :=
  (path.splitOn '/').filter fun name => name ≠ []

/-- The path up to its last slash, which stays, or the working directory. -/
def directoryPart (path : Path) : Path :=
  if '/' ∈ path then (path.reverse.dropWhile (· ≠ '/')).reverse else dot

theorem components_slash (before after : Path) :
    components (before ++ '/' :: after) =
      components before ++ components after := by
  rw [components, List.splitOn_append_cons_self, List.filter_append]
  rfl

theorem components_name {name : Path} (hname : '/' ∉ name) (hne : name ≠ []) :
    components name = [name] := by
  rw [components, List.splitOn_eq_singleton hname]
  simp [hne]

@[simp] theorem components_nil : components [] = [] := rfl

theorem components_closed (path : Path) :
    components (path ++ ['/']) = components path := by
  rw [components_slash, components_nil, List.append_nil]

theorem length_components_name_le {name : Path} (hname : '/' ∉ name) :
    (components name).length ≤ 1 := by
  by_cases hne : name = []
  · subst hne
    exact Nat.zero_le 1
  · rw [components_name hname hne]
    exact le_rfl

/-- A path is a name, or a name behind a slash. -/
theorem exists_last_slash (path : Path) :
    '/' ∉ path ∨ ∃ before name, path = before ++ '/' :: name ∧ '/' ∉ name := by
  by_cases hslash : '/' ∈ path
  · right
    obtain ⟨name, before, hsplit, hname⟩ :=
      List.eq_append_cons_of_mem (List.mem_reverse.mpr hslash)
    refine ⟨before.reverse, name.reverse, ?_, by simpa using hname⟩
    rw [← List.reverse_reverse path, hsplit]
    simp
  · exact .inl hslash

theorem directoryPart_name {name : Path} (hname : '/' ∉ name) :
    directoryPart name = dot := if_neg hname

theorem directoryPart_slash (before : Path) {name : Path}
    (hname : '/' ∉ name) :
    directoryPart (before ++ '/' :: name) = before ++ ['/'] := by
  have hdrop : (before ++ '/' :: name).reverse.dropWhile (· ≠ '/') =
      '/' :: before.reverse := by
    rw [List.reverse_append, List.reverse_cons, List.append_assoc,
      List.dropWhile_append_of_pos]
    · rfl
    · intro c hc
      apply decide_eq_true
      rintro rfl
      exact hname (List.mem_reverse.mp hc)
  rw [directoryPart, if_pos (by simp), hdrop, List.reverse_cons,
    List.reverse_reverse]

theorem directoryPart_append (path : Path) {name : Path}
    (hname : '/' ∉ name) :
    directoryPart (path ++ name) = directoryPart path := by
  obtain hpath | ⟨before, last, rfl, hlast⟩ := exists_last_slash path
  · rw [directoryPart_name hpath, directoryPart_name]
    exact fun hmem => (List.mem_append.mp hmem).elim hpath hname
  · rw [List.append_assoc, List.cons_append, directoryPart_slash _ hlast,
      directoryPart_slash]
    exact fun hmem => (List.mem_append.mp hmem).elim hlast hname

theorem endsInSlash_iff {path : Path} :
    path.EndsInSlash ↔ ∃ before, path = before ++ ['/'] :=
  List.getLast?_eq_some_iff

theorem components_append {path : Path}
    (h : path = [] ∨ path.EndsInSlash) (name : Path) :
    components (path ++ name) = components path ++ components name := by
  obtain rfl | hslash := h
  · rfl
  · obtain ⟨before, rfl⟩ := endsInSlash_iff.mp hslash
    rw [List.append_assoc, List.singleton_append, components_slash,
      components_closed]

theorem exists_last_name {path : Path} (hne : path ≠ [])
    (h : ¬path.EndsInSlash) :
    ∃ name, name ≠ [] ∧ '/' ∉ name ∧
      (path = name ∨ ∃ before, path = before ++ '/' :: name) := by
  obtain hname | ⟨before, name, rfl, hname⟩ := exists_last_slash path
  · exact ⟨path, hne, hname, .inl rfl⟩
  · refine ⟨name, ?_, hname, .inr ⟨before, rfl⟩⟩
    rintro rfl
    exact h (endsInSlash_iff.mpr ⟨before, rfl⟩)

theorem directoryPart_of_endsInSlash {path : Path} (h : path.EndsInSlash) :
    directoryPart path = path := by
  obtain ⟨before, rfl⟩ := endsInSlash_iff.mp h
  exact directoryPart_slash before List.not_mem_nil

end Path

end Molten.Text
