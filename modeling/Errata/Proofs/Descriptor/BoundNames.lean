import Errata.Proofs.Descriptor.Import
import Errata.Proofs.Syntax.Wording
import Errata.Proofs.Text.Joined

/-!
# The names that imports take

The names that an import takes are found by cutting its statement at words and separators. A name
holds none of these, and so the names that are found are those that the statement is made of. One
statement misleads the search: that of names from a module called `import`.

* `afterFirst?_append`, `cutAt_intercalate`: cutting at separators.
* `boundNames_importModuleText`, **`boundNames_importNamesText`**: the names that are found.
-/

namespace Errata.Descriptor

open Syntax (IsName)

/-! ### Separators -/

section

variable {separator : List Char} {c : Char}

/-- A separator does not start in a text without its first character. -/
theorem afterFirst?_append_left {before : List Char} (h : c ∉ before) (after : List Char) :
    afterFirst? (c :: separator) (before ++ after) = afterFirst? (c :: separator) after := by
  induction before with
  | nil => rfl
  | cons b before ih =>
    rw [List.mem_cons, not_or] at h
    rw [List.cons_append, afterFirst?, if_neg (by simp [h.1]), ih h.2]

/-- A separator does not occur in a text without its first character. -/
theorem afterFirst?_eq_none {chars : List Char} (h : c ∉ chars) :
    afterFirst? (c :: separator) chars = none := by
  rw [← List.append_nil chars, afterFirst?_append_left h]
  rfl

/-- A separator at the start of a text. -/
theorem afterFirst?_self (after : List Char) :
    afterFirst? (c :: separator) (c :: separator ++ after) = some after := by
  rw [List.cons_append, afterFirst?, if_pos (by simp), ← List.cons_append, List.drop_left]

/-- **What stands behind a separator**, if its first character does not stand in front of it. -/
theorem afterFirst?_append {before : List Char} (h : c ∉ before) (after : List Char) :
    afterFirst? (c :: separator) (before ++ (c :: separator ++ after)) = some after := by
  rw [afterFirst?_append_left h, afterFirst?_self]

/-- **Cutting at separators** gives back parts that do not hold the first character of one. -/
theorem cutAt_intercalate {parts : List (List Char)} (hne : parts ≠ [])
    (h : ∀ part ∈ parts, c ∉ part) {fuel : Nat}
    (hfuel : (List.intercalate (c :: separator) parts).length ≤ fuel) :
    cutAt (c :: separator) fuel (List.intercalate (c :: separator) parts) = parts := by
  induction parts generalizing fuel with
  | nil => exact absurd rfl hne
  | cons first parts ih =>
    rw [List.forall_mem_cons] at h
    cases parts with
    | nil =>
      rw [List.intercalate_singleton]
      cases fuel with
      | zero => rfl
      | succ fuel => rw [cutAt, afterFirst?_eq_none h.1]
    | cons second parts =>
      rw [List.intercalate_cons_cons, List.append_assoc] at hfuel ⊢
      simp only [List.length_append, List.length_cons] at hfuel
      obtain ⟨fuel, rfl⟩ := Nat.exists_eq_succ_of_ne_zero (show fuel ≠ 0 by omega)
      rw [cutAt, afterFirst?_append h.1]
      dsimp only
      have hlength : (first ++ (c :: separator ++
          List.intercalate (c :: separator) (second :: parts))).length -
            (List.intercalate (c :: separator) (second :: parts)).length -
              (c :: separator).length = first.length := by
        simp only [List.length_append]
        omega
      rw [ih (List.cons_ne_nil _ _) h.2 (by omega), hlength, List.take_left]

end

/-! ### Words -/

/-- What is spelled like a name holds no separator. -/
theorem not_mem_of_isName {name : List Char} (h : IsName name) {c : Char}
    (hc : Syntax.isNameChar c = false) : c ∉ name :=
  fun hm => absurd (h.isNameChar c hm) (by simp [hc])

section

variable {path : List String} (hpath : ∀ name ∈ path, IsName name.toList)

include hpath

/-- A path holds dots, and what may stand in a name. -/
theorem eq_or_isNameChar_of_mem_path {c : Char} (hc : c ∈ (".".intercalate path).toList) :
    c = '.' ∨ Syntax.isNameChar c = true := by
  rw [String.toList_intercalate] at hc
  rcases Syntax.mem_or_of_mem_intercalate hc with hc | ⟨chars, hchars, hc⟩
  · exact Or.inl (by simpa using hc)
  · obtain ⟨name, hname, rfl⟩ := List.mem_map.mp hchars
    exact Or.inr ((hpath name hname).isNameChar c hc)

/-- A path holds no white space. -/
theorem isBlank_of_mem_path :
    ∀ c ∈ (".".intercalate path).toList, Unicode.isBlank c = false := by
  intro c hc
  rcases eq_or_isNameChar_of_mem_path hpath hc with rfl | hc
  · decide
  · exact Syntax.isBlank_of_isNameChar hc

/-- Dots and a path hold no blank. -/
theorem blank_not_mem_origin {dots : String} (hdots : ∀ c ∈ dots.toList, c = '.') :
    ' ' ∉ dots.toList ++ (".".intercalate path).toList := by
  intro hm
  rcases List.mem_append.mp hm with hm | hm
  · exact absurd (hdots _ hm) (by decide)
  · rcases eq_or_isNameChar_of_mem_path hpath hm with hc | hc
    · exact absurd hc (by decide)
    · exact absurd hc (by decide)

/-- A path is not empty if it has components. -/
theorem path_ne_nil (hne : path ≠ []) : (".".intercalate path).toList ≠ [] := by
  obtain ⟨first, rest, rfl⟩ := List.exists_cons_of_ne_nil hne
  obtain ⟨c, more, hname, -⟩ := hpath first List.mem_cons_self
  rw [String.toList_intercalate]
  exact List.ne_nil_of_mem (mem_intercalate (hname ▸ List.mem_cons_self))

/-- The first component of a path reaches to its first dot. -/
theorem takeWhile_path (hne : path ≠ []) :
    [String.ofList ((".".intercalate path).toList.takeWhile (· ≠ '.'))] = path.head?.toList := by
  obtain ⟨first, rest, rfl⟩ := List.exists_cons_of_ne_nil hne
  have hdot : ∀ c ∈ first.toList, decide (c ≠ '.') = true := by
    intro c hc
    exact decide_eq_true (ne_of_mem_of_not_mem hc
      (not_mem_of_isName (hpath first List.mem_cons_self) (by decide)))
  have hfirst : (".".intercalate (first :: rest)).toList.takeWhile (· ≠ '.') = first.toList := by
    rw [String.toList_intercalate, List.map_cons]
    cases rest with
    | nil => rw [List.map_nil, List.intercalate_singleton, List.takeWhile_eq_self_iff.mpr hdot]
    | cons second rest =>
      rw [List.map_cons, List.intercalate_cons_cons, List.append_assoc,
        List.takeWhile_append_of_pos hdot]
      simp
  rw [hfirst, String.ofList_toList]
  rfl

/-! ### Imports of modules -/

/-- The words of the statement of an import of a module. -/
theorem words_importModuleText (hne : path ≠ []) {newName : Option String}
    (hnewName : ∀ n ∈ newName, IsName n.toList) :
    words (importModuleText path newName).toList =
      "import".toList :: (".".intercalate path).toList ::
        newName.elim [] fun n => ["as".toList, n.toList] := by
  have hblank : Unicode.isBlank ' ' = true := rfl
  have hpathNe := path_ne_nil hpath hne
  have htext : (importModuleText path newName).toList = "import".toList ++
      ' ' :: ((".".intercalate path).toList ++ (newNameText newName).toList) := by
    rw [importModuleText_eq]
    simp
  rw [htext, words_append_space rfl (by decide), words_cons_of_blank hblank]
  cases newName with
  | none =>
    rw [newNameText, String.toList_empty, List.append_nil,
      words_word hpathNe (isBlank_of_mem_path hpath)]
    rfl
  | some n =>
    have hn := hnewName n rfl
    have hnew : (newNameText (some n)).toList = ' ' :: ("as".toList ++ ' ' :: n.toList) := by
      rw [newNameText, String.toList_append]
      rfl
    rw [hnew, words_append_blank _ hpathNe (isBlank_of_mem_path hpath) hblank,
      words_cons_of_blank hblank, words_append_space rfl (by decide), words_cons_of_blank hblank,
      words_word hn.ne_nil hn.isBlank]
    rfl

/-- **The name that an import of a module takes**: the new name, or the first component of the
path. -/
theorem boundNames_importModuleText (hne : path ≠ []) {newName : Option String}
    (hnewName : ∀ n ∈ newName, IsName n.toList) (span : Option Span) :
    Import.boundNames ⟨importModuleText path newName, span⟩ =
      newName.elim path.head?.toList fun n => [n] := by
  have hwords := words_importModuleText hpath hne hnewName
  cases newName with
  | none =>
    simp only [Import.boundNames, hwords, Option.elim_none]
    exact takeWhile_path hpath hne
  | some n =>
    simp only [Import.boundNames, hwords, Option.elim_some, if_pos, String.ofList_toList]

end

/-! ### Imports of names -/

/-- What stands behind the name of a module, unless that is the word `import`. -/
theorem afterFirst?_import {origin : List Char} (hblank : ' ' ∉ origin)
    (hne : origin ≠ "import".toList) (aliases : List Char) :
    afterFirst? " import ".toList
        ("from".toList ++ ' ' :: (origin ++ (" import ".toList ++ aliases))) = some aliases := by
  have hseparator : " import ".toList = ' ' :: "import ".toList := rfl
  have hnot : ¬("import ".toList).isPrefixOf (origin ++ (" import ".toList ++ aliases)) = true := by
    rw [List.isPrefixOf_iff_prefix]
    rintro ⟨rest, hrest⟩
    have hfirst : ∀ {text : List Char} (more : List Char), ' ' ∉ text →
        (text ++ ' ' :: more).takeWhile (· ≠ ' ') = text := by
      intro text more htext
      rw [List.takeWhile_append_of_pos fun c hc =>
        decide_eq_true (ne_of_mem_of_not_mem hc htext)]
      simp
    -- both texts reach up to the same first blank
    have hsame : origin ++ ' ' :: ("import ".toList ++ aliases) = "import".toList ++ ' ' :: rest :=
      hrest.symm
    rw [← hfirst ("import ".toList ++ aliases) hblank, hsame] at hne
    exact hne (hfirst rest (by decide))
  rw [hseparator, afterFirst?_append_left (by decide), afterFirst?, if_neg (by simpa using hnot),
    ← hseparator]
  exact afterFirst?_append hblank aliases

/-- A name is what stands last where it is imported, be it a new one or not. -/
theorem afterLast_renamedText {name : String} {newName : Option String}
    (hname : IsName name.toList) (hnewName : ∀ n ∈ newName, IsName n.toList) {fuel : Nat}
    (hfuel : fuel ≠ 0) :
    String.ofList (afterLast " as ".toList fuel (renamedText (name, newName)).toList) =
      newName.getD name := by
  have hnone : ∀ {n : String} (fuel : Nat), IsName n.toList →
      afterLast " as ".toList fuel n.toList = n.toList := by
    intro n fuel hn
    cases fuel with
    | zero => rfl
    | succ fuel =>
      rw [afterLast, show " as ".toList = ' ' :: "as ".toList from rfl,
        afterFirst?_eq_none (not_mem_of_isName hn (by decide))]
  cases newName with
  | none =>
    rw [renamedText, newNameText, String.append_empty, hnone fuel hname, String.ofList_toList]
    rfl
  | some n =>
    obtain ⟨fuel, rfl⟩ := Nat.exists_eq_succ_of_ne_zero hfuel
    have htext : (renamedText (name, some n)).toList =
        name.toList ++ (' ' :: "as ".toList ++ n.toList) := by
      rw [renamedText, newNameText, String.toList_append, String.toList_append]
      rfl
    rw [htext, afterLast, show " as ".toList = ' ' :: "as ".toList from rfl,
      afterFirst?_append (not_mem_of_isName hname (by decide))]
    dsimp only
    rw [show ' ' :: "as ".toList = " as ".toList from rfl, hnone fuel (hnewName n rfl),
      String.ofList_toList]
    rfl

/-- The names that an import takes are read behind the name of a module if its first word is
`from`. -/
theorem boundNames_eq_fromNames {text : String} {rest : List Char} {c : Char}
    (htext : text.toList = "from".toList ++ ' ' :: rest) (hc : c ∈ rest)
    (hblank : Unicode.isBlank c = false) (span : Option Span) :
    Import.boundNames ⟨text, span⟩ = Import.boundNames.fromNames text.toList := by
  have hwords : words text.toList = "from".toList :: words (' ' :: rest) := by
    rw [htext, words_append_space rfl (by decide)]
  have hfrom : "from".toList ≠ "import".toList := by decide
  rw [Import.boundNames]
  dsimp only
  rw [hwords]
  split
  · next heq => rw [if_neg ((List.cons.inj heq).1 ▸ hfrom)]
  · next heq => rw [if_neg ((List.cons.inj heq).1 ▸ hfrom)]
  · next hfew =>
    obtain ⟨second, others, hothers⟩ :=
      List.exists_cons_of_ne_nil (words_ne_nil (List.mem_cons_of_mem ' ' hc) hblank)
    exact absurd (congrArg _ hothers) (hfew _ _ _)

/-- **The names that an import of names takes**: each imported name, or its new name. The module
may not be called `import`. -/
theorem boundNames_importNamesText {dots : String} {path : List String}
    {names : List (String × Option String)} (hdots : ∀ c ∈ dots.toList, c = '.')
    (hpath : ∀ name ∈ path, IsName name.toList)
    (horigin : dots.toList ++ (".".intercalate path).toList ≠ "import".toList)
    (hne : names ≠ [])
    (hnames : ∀ p ∈ names, IsName p.1.toList ∧ ∀ n ∈ p.2, IsName n.toList) (span : Option Span) :
    Import.boundNames ⟨importNamesText dots path names, span⟩ =
      names.map fun (name, newName) => newName.getD name := by
  obtain ⟨aliases, haliases⟩ : ∃ aliases,
      (", ".intercalate (names.map renamedText)).toList = aliases := ⟨_, rfl⟩
  have htext : (importNamesText dots path names).toList = "from".toList ++
      ' ' :: (dots.toList ++ (".".intercalate path).toList ++ (" import ".toList ++ aliases)) := by
    rw [importNamesText_eq, ← haliases]
    simp
  have hpart : ∀ part ∈ (names.map renamedText).map String.toList, ',' ∉ part := by
    simp only [List.mem_map]
    rintro _ ⟨_, ⟨⟨name, newName⟩, hp, rfl⟩, rfl⟩
    obtain ⟨hname, hnewName⟩ := hnames _ hp
    cases newName with
    | none => simpa [renamedText, newNameText] using not_mem_of_isName hname (by decide)
    | some n =>
      simpa [renamedText, newNameText] using
        ⟨not_mem_of_isName hname (by decide), not_mem_of_isName (hnewName n rfl) (by decide)⟩
  have hcut : cutAt ", ".toList (importNamesText dots path names).toList.length aliases =
      (names.map renamedText).map String.toList := by
    rw [String.toList_intercalate] at haliases
    rw [← haliases]
    have hle : (List.intercalate ", ".toList ((names.map renamedText).map String.toList)).length ≤
        (importNamesText dots path names).toList.length := by
      rw [htext, ← haliases]
      simp only [List.length_append, List.length_cons]
      omega
    exact cutAt_intercalate (by simpa using hne) hpart hle
  have hlength : (importNamesText dots path names).toList.length ≠ 0 := by
    rw [htext]
    simp
  rw [boundNames_eq_fromNames htext (c := 'i') (by simp) (by decide),
    Import.boundNames.fromNames]
  conv_lhs => rw [htext, afterFirst?_import (blank_not_mem_origin hpath hdots) horigin, ← htext]
  dsimp only
  rw [hcut, List.map_map, List.map_map]
  refine List.map_congr_left fun p hp => ?_
  exact afterLast_renamedText (hnames p hp).1 (hnames p hp).2 hlength

end Errata.Descriptor
