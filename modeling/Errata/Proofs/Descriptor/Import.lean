import Errata.Proofs.Descriptor.Origin
import Errata.Proofs.Syntax.Spelling
import Errata.Proofs.Text.Blank

/-!
# The statements of imports

The names that an import takes are read off its statement: off its second or fourth word after
`import`, or else off what follows ` import `. The statements that are made of items always have
these parts.

* `Import.IsReadable`: the statements off which names can be read.
* `isReadable_of_importOf?`: **the statement that is made of an item** is one.
-/

namespace Errata.Descriptor

/-- Whether the names that an import takes can be read off its statement: it has words, a module
follows the first word if that is `import`, and ` import ` stands in it if that is another. -/
def Import.IsReadable (i : Import) : Prop :=
  ∃ first rest, words i.text.toList = first :: rest ∧
    (first = "import".toList → rest ≠ []) ∧
    (first ≠ "import".toList →
      ∃ aliases, afterFirst? " import ".toList i.text.toList = some aliases)

/-! ### Text -/

/-- How a new name is written behind what it is given to. -/
def newNameText : Option String → String
  | none => ""
  | some newName => " as " ++ newName

/-- How an imported name is written. -/
def renamedText : String × Option String → String
  | (name, newName) => name ++ newNameText newName

/-- The statement of an import of a module, part by part. -/
theorem importModuleText_eq (path : List String) (newName : Option String) :
    importModuleText path newName = "import " ++ ".".intercalate path ++ newNameText newName := by
  cases newName <;> rfl

/-- The statement of an import of names, part by part. -/
theorem importNamesText_eq (dots : String) (path : List String)
    (names : List (String × Option String)) :
    importNamesText dots path names =
      "from " ++ dots ++ ".".intercalate path ++ " import " ++
        ", ".intercalate (names.map renamedText) := by
  refine congrArg (fun written => _ ++ ", ".intercalate written) (List.map_congr_left ?_)
  rintro ⟨name, newName⟩ -
  cases newName with
  | none => exact String.append_empty.symm
  | some newName => exact String.append_assoc

/-! ### Reading names off -/

/-- Something stands after a separator that occurs in a text. -/
theorem exists_afterFirst? {separator text : List Char} (h : separator <:+: text) :
    ∃ rest, afterFirst? separator text = some rest := by
  induction text with
  | nil =>
    obtain rfl := List.infix_nil.mp h
    exact ⟨[], rfl⟩
  | cons c text ih =>
    rw [afterFirst?]
    split
    · exact ⟨_, rfl⟩
    · next hprefix =>
      rcases List.infix_cons_iff.mp h with h | h
      · exact absurd (List.isPrefixOf_iff_prefix.mpr h) hprefix
      · exact ih h

/-- A word that might be a name is the first word in front of a space. -/
theorem words_append_space {word after : List Char} (hword : word.all Syntax.isNameChar = true)
    (hne : word ≠ []) : words (word ++ ' ' :: after) = word :: words (' ' :: after) :=
  words_append_blank after hne
    (fun c hc => Syntax.isBlank_of_isNameChar (List.all_eq_true.mp hword c hc)) (by decide)

/-- The first component of a path stands in the path as it is written. -/
theorem mem_intercalate {separator first : List Char} {rest : List (List Char)} {c : Char}
    (hc : c ∈ first) : c ∈ separator.intercalate (first :: rest) := by
  cases rest with
  | nil => rwa [List.intercalate_singleton]
  | cons second rest =>
    rw [List.intercalate_cons_cons]
    exact List.mem_append_left _ (List.mem_append_left _ hc)

/-- The names can be read off the import of a module. -/
theorem isReadable_importModuleText {path : List String} (newName : Option String)
    (span : Option Span) (hne : path ≠ []) (h : ∀ name ∈ path, Syntax.IsName name.toList) :
    Import.IsReadable ⟨importModuleText path newName, span⟩ := by
  obtain ⟨first, rest, rfl⟩ := List.exists_cons_of_ne_nil hne
  obtain ⟨c, more, hname, hstart, -⟩ := h first List.mem_cons_self
  obtain ⟨suffix, hstatement⟩ : ∃ suffix, importModuleText (first :: rest) newName =
      "import " ++ ".".intercalate (first :: rest) ++ suffix := ⟨_, rfl⟩
  have htext : (importModuleText (first :: rest) newName).toList =
      "import".toList ++ ' ' :: (".".intercalate (first :: rest) ++ suffix).toList := by
    simp [hstatement]
  have hc : c ∈ (".".intercalate (first :: rest) ++ suffix).toList := by
    rw [String.toList_append, String.toList_intercalate]
    exact List.mem_append_left _ (mem_intercalate (hname ▸ List.mem_cons_self))
  refine ⟨"import".toList, _, by rw [htext, words_append_space rfl (by decide)], fun _ => ?_,
    fun h => absurd rfl h⟩
  exact words_ne_nil (List.mem_cons_of_mem ' ' hc)
    (Syntax.isBlank_of_isNameChar (Syntax.isNameChar_of_isNameStart hstart))

/-- The names can be read off the import of names. -/
theorem isReadable_importNamesText (dots : String) (path : List String)
    (names : List (String × Option String)) (span : Option Span) :
    Import.IsReadable ⟨importNamesText dots path names, span⟩ := by
  obtain ⟨aliases, hstatement⟩ : ∃ aliases, importNamesText dots path names =
      "from " ++ dots ++ ".".intercalate path ++ " import " ++ aliases := ⟨_, rfl⟩
  have htext : (importNamesText dots path names).toList = "from".toList ++
      ' ' :: ((dots ++ ".".intercalate path).toList ++ " import ".toList ++ aliases.toList) := by
    simp [hstatement]
  refine ⟨"from".toList, _, by rw [htext, words_append_space rfl (by decide)],
    fun h => absurd h (by decide), fun _ => exists_afterFirst? ?_⟩
  exact ⟨"from".toList ++ ' ' :: (dots ++ ".".intercalate path).toList, aliases.toList, by
    simp [htext]⟩

/-- **The names can be read off the statement that an item makes**, if its names are spelled like
names. -/
theorem isReadable_of_importOf? {item : Syntax.Item} {i : Import} (hs : item.IsSpelled)
    (h : importOf? item = some i) : i.IsReadable := by
  cases item with
  | importModule path newName span =>
    cases h
    exact isReadable_importModuleText newName span hs.1 hs.2
  | importNames dots path names span =>
    cases h
    exact isReadable_importNamesText dots path names span
  | declaration d => cases h

end Errata.Descriptor
