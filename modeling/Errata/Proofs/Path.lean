import Errata.Path

/-!
# Paths that are written and read

The components of a path that was read are not empty, are not a single dot, and hold no slash. Such
a path is read as it is written. So a path means the same if it is written and read once more.

* `splitAll_eq_splitOn`, `not_mem_of_mem_splitAll`: cutting a list.
* `IsClean`, `isClean_ofString`: the paths that are read.
* **`ofString_toString`**: they are read as they are written.
-/

namespace Errata.Path

/-! ### Cutting lists -/

section

variable {α : Type} [DecidableEq α]

/-- Cutting a list at every occurrence of an element. -/
theorem splitAll_eq_splitOn (x : α) (l : List α) : splitAll x l = l.splitOn x := by
  induction l with
  | nil => rfl
  | cons y l ih =>
    rw [splitAll, ih, List.splitOn_cons_eq_if_modifyHead]
    simp only [beq_iff_eq]
    split
    · rfl
    · cases hcut : l.splitOn x with
      | nil => exact absurd hcut (List.splitOn_ne_nil x l)
      | cons part parts => rfl

/-- The element at which a list is cut is in none of the parts. -/
theorem not_mem_of_mem_splitAll {x : α} {l part : List α} (h : part ∈ splitAll x l) : x ∉ part := by
  induction l generalizing part with
  | nil =>
    obtain rfl := List.mem_singleton.mp h
    exact List.not_mem_nil
  | cons y l ih =>
    rw [splitAll] at h
    split at h
    · rcases List.mem_cons.mp h with rfl | h
      · exact List.not_mem_nil
      · exact ih h
    · next hne =>
      split at h
      · obtain rfl := List.mem_singleton.mp h
        simpa using Ne.symm hne
      · next first parts hcut =>
        rw [hcut] at ih
        rcases List.mem_cons.mp h with rfl | h
        · exact List.not_mem_cons_of_ne_of_not_mem (Ne.symm hne) (ih List.mem_cons_self)
        · exact ih (List.mem_cons_of_mem _ h)

end

/-! ### Paths -/

/-- Whether the components of a path are such as are read. -/
structure IsClean (p : Path) : Prop where
  /-- No component is left out when the path is read. -/
  kept : ∀ part ∈ p.parts, part ≠ "" ∧ part ≠ "."
  /-- No component holds a slash. -/
  noSlash : ∀ part ∈ p.parts, '/' ∉ part.toList

/-- A path that is read is clean. -/
theorem isClean_ofString (s : String) : (ofString s).IsClean := by
  constructor
  · intro part hpart
    exact of_decide_eq_true (List.mem_filter.mp hpart).2
  · intro part hpart
    obtain ⟨chars, hchars, rfl⟩ := List.mem_map.mp (List.mem_filter.mp hpart).1
    rw [String.toList_ofList]
    exact not_mem_of_mem_splitAll hchars

/-- The components that are read from components with slashes between them. -/
theorem filter_splitAll_intercalate {p : Path} (h : p.IsClean) :
    ((splitAll '/' ("/".intercalate p.parts).toList).map String.ofList).filter
      (fun part => part ≠ "" ∧ part ≠ ".") = p.parts := by
  have hkept : p.parts.filter (fun part => part ≠ "" ∧ part ≠ ".") = p.parts :=
    List.filter_eq_self.mpr fun part hpart => decide_eq_true (h.kept part hpart)
  by_cases hparts : p.parts = []
  · rw [hparts]
    decide
  · have hcut : splitAll '/' ("/".intercalate p.parts).toList = p.parts.map String.toList := by
      rw [splitAll_eq_splitOn, String.toList_intercalate]
      refine List.splitOn_intercalate '/' ?_ (by simpa using hparts)
      rintro _ hchars
      obtain ⟨part, hpart, rfl⟩ := List.mem_map.mp hchars
      exact h.noSlash part hpart
    rw [hcut, List.map_map]
    simpa [Function.comp_def] using hkept

/-- Components with slashes between them start with no slash. -/
theorem head?_intercalate_ne {p : Path} (h : p.IsClean) :
    ("/".intercalate p.parts).toList.head? ≠ some '/' := by
  rw [String.toList_intercalate]
  cases hparts : p.parts with
  | nil => simp
  | cons first rest =>
    have hfirst : first ∈ p.parts := hparts ▸ List.mem_cons_self
    obtain ⟨c, chars, hchars⟩ := List.exists_cons_of_ne_nil
      (mt String.toList_eq_nil_iff.mp (h.kept first hfirst).1)
    have hc : c ≠ '/' := by
      rintro rfl
      exact h.noSlash first hfirst (hchars ▸ List.mem_cons_self)
    cases rest with
    | nil => simpa [hchars] using hc
    | cons second rest => simpa [hchars, List.intercalate_cons_cons] using hc

/-- A root is read with whatever is written behind it, unless that starts with a slash. -/
theorem ofString_written (root : Root) {inside : String} (h : inside.toList.head? ≠ some '/') :
    ofString (root.written ++ inside) =
      ⟨root, ((splitAll '/' inside.toList).map String.ofList).filter
        (fun part => part ≠ "" ∧ part ≠ ".")⟩ := by
  have hchars : (root.written ++ inside).toList = root.written.toList ++ inside.toList :=
    String.toList_append
  rw [ofString, hchars]
  cases hinside : inside.toList with
  | nil => cases root <;> decide
  | cons c chars =>
    have hc : c ≠ '/' := by
      rintro rfl
      simp [hinside] at h
    cases root with
    | relative => simp [Root.written, hc]
    | slash => simp [Root.written, hc, splitAll]
    | doubleSlash => simp [Root.written, hc, splitAll]

/-- **A path is read as it is written.** -/
theorem ofString_toString {p : Path} (h : p.IsClean) : ofString (toString p) = p := by
  have hwritten : toString p = if p.root = .relative ∧ p.parts = [] then "."
    else p.root.written ++ "/".intercalate p.parts := rfl
  rw [hwritten]
  split
  · next hempty =>
    obtain ⟨root, parts⟩ := p
    obtain ⟨rfl, rfl⟩ := hempty
    decide
  · rw [ofString_written p.root (head?_intercalate_ne h), filter_splitAll_intercalate h]

end Errata.Path
