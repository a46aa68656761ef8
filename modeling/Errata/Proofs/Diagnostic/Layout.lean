import Errata.Diagnostic.Report
import Errata.Proofs.Path
import Errata.Proofs.Syntax.Wording
import Errata.Proofs.Text.Control

/-!
# What the lines of a report consist of

A report puts the name of the file, the label, the message and a line of the source between wording
of its own. None of that wording holds a control character, so a control character in a report comes
from what is reported.

* `Path.mem_of_relativeTo?`: a path seen from a directory has no components of that directory.
* `Report.mem_displayName`: the characters of the name of a file as it is shown.
* `mem_displayLines`: the characters of the lines that a report can show.
* `Report.mem_sourceLine`: the characters of the line that it shows.
* `Report.notMem_heading`, **`Report.notMem_layoutOne`**: the control characters of a diagnostic.
-/

namespace Errata

namespace Path

/-! ### Components -/

/-- The components before a path, the last one first, after those of the path have been put in front
of them. -/
def pushed (before parts : List String) : List String :=
  parts.foldl (fun reversed part => if part = ".." then reversed.tail else part :: reversed) before

/-- A path takes some components off those before it, and puts some of its own in their place. -/
theorem exists_pushed_eq (before parts : List String) :
    ∃ own k, pushed before parts = own ++ before.drop k ∧ own ⊆ parts := by
  induction parts generalizing before with
  | nil => exact ⟨[], 0, rfl, List.Subset.refl _⟩
  | cons part parts ih =>
    rw [pushed, List.foldl_cons]
    split
    · obtain ⟨own, k, heq, hown⟩ := ih before.tail
      exact ⟨own, k + 1, by rw [← pushed, heq, List.drop_tail], List.subset_cons_of_subset _ hown⟩
    · obtain ⟨own, k, heq, hown⟩ := ih (part :: before)
      cases k with
      | zero =>
        refine ⟨own ++ [part], 0, by rw [← pushed, heq]; simp, ?_⟩
        exact List.append_subset.mpr ⟨List.subset_cons_of_subset _ hown, by simp⟩
      | succ k => exact ⟨own, k, by rw [← pushed, heq]; rfl, List.subset_cons_of_subset _ hown⟩

/-- No more components are left than there were. -/
theorem length_pushed_le (before parts : List String) :
    (pushed before parts).length ≤ before.length + parts.length := by
  induction parts generalizing before with
  | nil => exact Nat.le_refl _
  | cons part parts ih =>
    rw [pushed, List.foldl_cons]
    split
    · have h := ih before.tail
      rw [pushed, List.length_tail] at h
      rw [List.length_cons]
      omega
    · have h := ih (part :: before)
      rw [pushed, List.length_cons] at h
      rw [List.length_cons]
      omega

/-- **A path seen from a directory** has no components but its own. -/
theorem mem_of_relativeTo? {cwd p q : Path} (h : (cwd.resolve p).relativeTo? cwd = some q) :
    q.root = .relative ∧ q.parts ⊆ p.parts := by
  unfold relativeTo? at h
  split at h
  · cases h
    refine ⟨rfl, ?_⟩
    rw [resolve, join]
    split
    · obtain ⟨own, k, heq, hown⟩ := exists_pushed_eq (pushed [] cwd.parts) p.parts
      -- what is left of the directory is not longer than the directory, and so is dropped
      have hlength := length_pushed_le [] cwd.parts
      have hcollapse : collapse (cwd.parts ++ p.parts) =
          ((pushed [] cwd.parts).drop k).reverse ++ own.reverse := by
        rw [← List.reverse_append, ← heq, pushed, pushed, ← List.foldl_append]
        rfl
      rw [hcollapse, List.drop_append, List.drop_of_length_le (by simp at hlength ⊢; omega),
        List.nil_append]
      exact fun part hpart => hown (List.mem_reverse.mp (List.mem_of_mem_drop hpart))
    · obtain ⟨own, k, heq, hown⟩ := exists_pushed_eq [] p.parts
      rw [List.drop_nil, List.append_nil] at heq
      exact fun part hpart =>
        hown (heq ▸ List.mem_reverse.mp (List.mem_of_mem_drop hpart))
  · cases h

/-- What is in a part of a list that is cut is in the list. -/
theorem mem_of_mem_splitAll {α : Type} [DecidableEq α] {x y : α} {l part : List α}
    (h : part ∈ splitAll x l) (hy : y ∈ part) : y ∈ l := by
  induction l generalizing part with
  | nil =>
    obtain rfl := List.mem_singleton.mp h
    exact hy
  | cons z l ih =>
    rw [splitAll] at h
    split at h
    · rcases List.mem_cons.mp h with rfl | h
      · cases hy
      · exact List.mem_cons_of_mem _ (ih h hy)
    · split at h
      · obtain rfl := List.mem_singleton.mp h
        exact List.mem_cons.mpr (.inl (List.mem_singleton.mp hy))
      · next first parts hcut =>
        rw [hcut] at ih
        rcases List.mem_cons.mp h with rfl | h
        · exact (List.mem_cons.mp hy).elim (fun hz => hz ▸ List.mem_cons_self) fun hy =>
            List.mem_cons_of_mem _ (ih List.mem_cons_self hy)
        · exact List.mem_cons_of_mem _ (ih (List.mem_cons_of_mem _ h) hy)

/-- The characters of the components of a path that is read. -/
theorem mem_of_mem_ofString {s part : String} (hpart : part ∈ (ofString s).parts) {c : Char}
    (hc : c ∈ part.toList) : c ∈ s.toList := by
  obtain ⟨chars, hchars, rfl⟩ := List.mem_map.mp (List.mem_filter.mp hpart).1
  rw [String.toList_ofList] at hc
  exact mem_of_mem_splitAll hchars hc

end Path

/-! ### Lines of a text -/

/-- The characters of the lines of a text are characters of the text, and none of them ends a
line. -/
theorem mem_displayLines {text line : List Char} (hline : line ∈ displayLines text) {c : Char}
    (hc : c ∈ line) : c ∈ text ∧ isLineEnd c = false := by
  fun_induction displayLines text generalizing line with
  | case1 => cases hline
  | case2 rest ih =>
    rcases List.mem_cons.mp hline with rfl | hline
    · cases hc
    · obtain ⟨hmem, hend⟩ := ih hline hc
      exact ⟨List.mem_cons_of_mem _ (List.mem_cons_of_mem _ hmem), hend⟩
  | case3 d rest _ hd ih =>
    rcases List.mem_cons.mp hline with rfl | hline
    · cases hc
    · exact (ih hline hc).imp_left (List.mem_cons_of_mem _)
  | case4 d rest _ hd hrest ih =>
    obtain rfl := List.mem_singleton.mp hline
    obtain rfl := List.mem_singleton.mp hc
    exact ⟨List.mem_cons_self, by simpa using hd⟩
  | case5 d rest _ hd first more hrest ih =>
    rw [hrest] at ih
    rcases List.mem_cons.mp hline with rfl | hline
    · rcases List.mem_cons.mp hc with rfl | hc
      · exact ⟨List.mem_cons_self, by simpa using hd⟩
      · exact (ih List.mem_cons_self hc).imp_left (List.mem_cons_of_mem _)
    · exact (ih (List.mem_cons_of_mem _ hline) hc).imp_left (List.mem_cons_of_mem _)

namespace Report

/-! ### Names of files -/

/-- **The characters of the name of a file as it is shown** are those of the name itself, and those
that a path is written with. -/
theorem mem_displayName {cwd : Path} {filename : String} {c : Char}
    (hc : c ∈ (displayName cwd filename).toList) : c ∈ filename.toList ∨ c = '.' ∨ c = '/' := by
  unfold displayName at hc
  split at hc
  · exact .inl hc
  · split at hc
    · next path hpath =>
      obtain ⟨hroot, hparts⟩ := Path.mem_of_relativeTo? hpath
      have hwritten : toString path = if path.root = .relative ∧ path.parts = [] then "."
        else path.root.written ++ "/".intercalate path.parts := rfl
      rw [String.toList_append, hwritten] at hc
      rcases List.mem_append.mp hc with hc | hc
      · exact .inr (by simpa using hc)
      · split at hc
        · exact .inr (.inl (by simpa using hc))
        · rw [hroot, Path.Root.written, String.empty_append, String.toList_intercalate] at hc
          rcases Syntax.mem_or_of_mem_intercalate hc with hc | ⟨chars, hchars, hc⟩
          · exact .inr (.inr (by simpa using hc))
          · obtain ⟨part, hpart, rfl⟩ := List.mem_map.mp hchars
            exact .inl (Path.mem_of_mem_ofString (hparts hpart) hc)
    · exact .inl hc

/-- The characters of the line of the source that is shown are characters of the source, and none of
them ends a line. -/
theorem mem_sourceLine {source : Option String} {span : Span} {c : Char}
    (h : c ∈ sourceLine (source.map fun s => displayLines s.toList) span) :
    (∃ s ∈ source, c ∈ s.toList) ∧ isLineEnd c = false := by
  unfold sourceLine at h
  split at h
  · cases h
  · cases source with
    | none => simp at h
    | some s =>
      rw [Option.map_some, Option.getD_some] at h
      cases hline : (displayLines s.toList)[(span.line - 1).toNat]? with
      | none =>
        rw [hline] at h
        cases h
      | some line =>
        rw [hline, Option.getD_some] at h
        exact (mem_displayLines (List.mem_of_getElem? hline) h).imp_left fun hin => ⟨s, rfl, hin⟩

/-! ### Wording -/

section

variable {x : Char} (hx : IsControl x)

include hx

/-- A span is written without control characters. -/
theorem notMem_toString_span (s : Span) : x ∉ (toString s).toList := by
  have hwritten : toString s = toString s.line ++ ":" ++ toString s.column := rfl
  simp only [hwritten, String.toList_append, List.mem_append, not_or]
  exact ⟨⟨notMem_toString_int hx _, notMem_of_all hx (by decide)⟩, notMem_toString_int hx _⟩

/-- The name of a file is shown without control characters that are not in it. -/
theorem notMem_displayName {filename : String} (h : x ∉ filename.toList) (cwd : Path) :
    x ∉ (displayName cwd filename).toList := by
  intro hmem
  rcases mem_displayName hmem with hmem | rfl | rfl
  · exact h hmem
  · exact absurd hx (by decide)
  · exact absurd hx (by decide)

/-- A row of equal characters. -/
theorem notMem_repeated (n : Nat) {c : Char} (hc : 32 ≤ c.toNat) : x ∉ (repeated n c).toList := by
  rw [repeated, String.toList_ofList]
  intro hmem
  obtain rfl := List.eq_of_mem_replicate hmem
  exact absurd hx (Nat.not_lt.mpr hc)

/-! ### Diagnostics -/

/-- The heading of a diagnostic has no control characters but those of the place, the label and the
message. -/
theorem notMem_heading {place : String} {d : Diagnostic} (hplace : x ∉ place.toList)
    (hlabel : x ∉ d.label.toList) (hmessage : x ∉ d.message.toList) :
    ∀ p ∈ heading place d, x ∉ p.text.toList := by
  have hseverity : x ∉ d.severity.word.toList := by
    cases d.severity <;> exact notMem_of_all hx (by decide)
  have hsentence : x ∉ ("]: " ++ sentence d.message).toList := by
    rw [String.toList_append, List.mem_append, not_or]
    refine ⟨notMem_of_all hx (by decide), ?_⟩
    unfold sentence
    split
    · exact hmessage
    · rw [String.toList_append, List.mem_append, not_or]
      exact ⟨hmessage, notMem_of_all hx (by decide)⟩
  simp only [heading, List.forall_mem_cons]
  exact ⟨hplace, notMem_of_all hx (by decide), hseverity, notMem_of_all hx (by decide), hlabel,
    hsentence, nofun⟩

/-- **The lines that show a diagnostic** have no control characters but those of the name of the
file, of the label and the message, and of the line of the source. -/
theorem notMem_layoutOne (unicode : Bool) {filename : String} {lines : Option (List (List Char))}
    {d : Diagnostic} (hfilename : x ∉ filename.toList) (hlabel : x ∉ d.label.toList)
    (hmessage : x ∉ d.message.toList) (hsource : ∀ span, x ∉ sourceLine lines span) :
    ∀ line ∈ layoutOne unicode filename lines d, ∀ p ∈ line, x ∉ p.text.toList := by
  unfold layoutOne
  cases d.span with
  | none =>
    rw [List.forall_mem_singleton]
    exact notMem_heading hx hfilename hlabel hmessage
  | some span =>
    have hplace : x ∉ (filename ++ ":" ++ toString span).toList := by
      simp only [String.toList_append, List.mem_append, not_or]
      exact ⟨⟨hfilename, notMem_of_all hx (by decide)⟩, notMem_toString_span hx span⟩
    have hhead := notMem_heading hx hplace hlabel hmessage
    have hline := hsource span
    have hfixed : ∀ {text : List Char}, text.all (32 ≤ ·.toNat) = true →
        x ∉ (String.ofList text).toList := notMem_of_all hx
    have hrow : ∀ n {c : Char}, 32 ≤ c.toNat → x ∉ (repeated n c).toList := notMem_repeated hx
    dsimp only
    split
    · simp only [List.forall_mem_cons, String.toList_append, List.mem_append, not_or,
        String.toList_ofList]
      exact ⟨⟨hfixed (by decide), hhead⟩,
        ⟨hfixed (by decide), ⟨hfixed (by decide), hline⟩, nofun⟩,
        ⟨hfixed (by decide), ⟨hfixed (by decide), hrow _ (by decide)⟩,
          ⟨hfixed (by decide), hrow _ (by decide)⟩, nofun⟩,
        ⟨⟨hfixed (by decide), hrow _ (by decide)⟩, hfixed (by decide), nofun⟩, nofun⟩
    · simp only [List.forall_mem_cons, String.toList_append, List.mem_append, not_or,
        String.toList_ofList]
      exact ⟨hhead, ⟨⟨hfixed (by decide), hline⟩, nofun⟩,
        ⟨⟨⟨hfixed (by decide), hrow _ (by decide)⟩, hrow _ (by decide)⟩, nofun⟩, nofun⟩

end

end Report

end Errata
