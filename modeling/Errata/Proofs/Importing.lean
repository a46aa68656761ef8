import Errata.Proofs.Descriptor.BoundNames
import Errata.Proofs.Error.Import
import Errata.Proofs.Shadowing

/-!
# Imports of modules

An import of a declaration file is written into the module as it is, word by word. Its words are
identifiers. A declaration file knows few keywords, though, and a word that is a keyword of the
module is let through: then the line is no statement, and the module cannot be loaded. All other
lines say what the file says, and the names that are kept for them are those that they define.

* `Error.ImportStatement.IsToldBy`: statements that are told by an import.
* `Error.exists_isToldBy`: an import of a file tells one.
* **`compile_imports_iff`**: when the imports of a module are statements, and what they define.
* `not_compile_imports_readable`: a module with an import that is no statement.
-/

namespace Errata

namespace Error

open Descriptor (Import importOf?)
open Syntax (Item)

/-- Whether a statement is what an import tells: the import is written in its tokens, and unless a
word of it is a keyword, it is read back and defines the names that are kept for the import. -/
structure ImportStatement.IsToldBy (i : Import) (s : ImportStatement) : Prop where
  /-- The import is written in the tokens of the statement. -/
  written : (Expression.tokens i.text.toList).map Expression.Token.lexeme = s.lexemes
  /-- The statement has a path or a level, and names if it is one of names. -/
  complete : s.IsComplete
  /-- The words that have to be names are identifiers. -/
  identifiers : ∀ word ∈ s.words, Unicode.isIdentifier word.toList = true
  /-- The statement is read back unless one of these words is a keyword. -/
  read : readImport i = if s.words.any isKeyword then none else some s
  /-- The names that are kept are those that it defines. -/
  names : s.words.any isKeyword = false → i.boundNames = s.boundNames

/-- The only path that is written like `import` is that word. -/
theorem eq_of_origin_eq {dots : String} {path : List String}
    (hdots : ∀ c ∈ dots.toList, c = '.')
    (h : dots.toList ++ (".".intercalate path).toList = "import".toList) : path = ["import"] := by
  have hnone : '.' ∉ dots.toList ++ (".".intercalate path).toList := by
    rw [h]
    decide
  have hnil : dots.toList = [] := by
    refine List.eq_nil_iff_forall_not_mem.mpr fun c hc => hnone (List.mem_append_left _ ?_)
    rwa [hdots c hc] at hc
  rw [hnil, List.nil_append] at h hnone
  rcases path with _ | ⟨first, _ | ⟨second, path⟩⟩
  · exact absurd h (by decide)
  · rw [String.intercalate_singleton, String.toList_inj] at h
    rw [h]
  · exact absurd (by simp [String.toList_intercalate]) hnone

/-- The names that are kept for the import of an item are those that its statement defines, if no
word of it is a keyword. -/
theorem boundNames_of_importOf? {item : Item} {i : Import} {s : ImportStatement}
    (hcomplete : item.IsComplete) (hworded : item.IsWorded) (hi : importOf? item = some i)
    (hs : ImportStatement.ofItem? item = some s) (hwords : s.words.any isKeyword = false) :
    i.boundNames = s.boundNames := by
  cases item with
  | importModule path newName span =>
    cases hi
    cases hs
    rw [Descriptor.boundNames_importModuleText hworded.1 hcomplete hworded.2]
    cases newName <;> rfl
  | importNames dots path names span =>
    cases hi
    cases hs
    refine Descriptor.boundNames_importNamesText hworded.1 hworded.2.1 (fun horigin => ?_)
      hcomplete.2 hworded.2.2 span
    rw [eq_of_origin_eq hworded.1 horigin, ImportStatement.words, List.any_append] at hwords
    exact absurd (Bool.or_eq_false_iff.mp hwords).1 (by decide)
  | declaration d => cases hi

/-- **An import of a file tells a statement.** -/
theorem exists_isToldBy {item : Item} {i : Import} (hcomplete : item.IsComplete)
    (hworded : item.IsWorded) (hi : importOf? item = some i) :
    ∃ s, ImportStatement.ofItem? item = some s ∧ s.IsToldBy i := by
  obtain ⟨s, hs⟩ : ∃ s, ImportStatement.ofItem? item = some s := by
    cases item with
    | importModule path newName span => exact ⟨_, rfl⟩
    | importNames dots path names span => exact ⟨_, rfl⟩
    | declaration d => cases hi
  have hwritten := lexemes_of_importOf? hcomplete hworded hi hs
  have hwhole := isComplete_of_ofItem? hcomplete hs
  refine ⟨s, hs, hwritten, hwhole, fun word hword => ?_, ?_,
    boundNames_of_importOf? hcomplete hworded hi hs⟩
  · exact Expression.isIdentifier_of_isName (isName_of_ofItem? hworded hs word hword)
  · rw [readImport, hwritten, readStatement_lexemes hwhole]

end Error

/-- **The imports of a module.** Each import of a file that compiles without errors tells a
statement whose words are identifiers. It is read as that statement, and the names that are kept for
it are those that the statement defines, unless one of the words is a keyword: then it is read as
none. -/
theorem compile_imports_iff [Expression.Capacity]
    {options : CompileOptions} {source filename : String}
    {c : Compilation} (h : compile options source filename = .ok c)
    (hclean : c.report.hasErrors = false) :
    ∃ items d blocks, c.IsModuleOf options source filename items d blocks ∧
      ∀ i ∈ d.imports, ∃ s : Error.ImportStatement, s.IsToldBy i ∧
        (Error.readImport i = some s ↔ ∀ word ∈ s.words, isKeyword word = false) ∧
        ∀ s', Error.readImport i = some s' → s' = s ∧ i.boundNames = s'.boundNames := by
  obtain ⟨items, d, blocks, hmodule⟩ := exists_isModuleOf h hclean
  refine ⟨items, d, blocks, hmodule, fun i hi => ?_⟩
  obtain ⟨tree, hparse, hitems⟩ := hmodule.read
  obtain ⟨findings, hdescribed⟩ := hmodule.described
  rw [(describe_origin hdescribed).1] at hi
  obtain ⟨item, hitem, hi⟩ := List.mem_filterMap.mp hi
  obtain ⟨s, -, htold⟩ := Error.exists_isToldBy
    (Syntax.isComplete_of_fileItems hparse hitems item hitem)
    (Syntax.isWorded_of_fileItems hparse hitems item hitem) hi
  have hread := htold.read
  refine ⟨s, htold, ?_, fun s' hs' => ?_⟩
  · rw [hread]
    cases hany : s.words.any isKeyword with
    | true => simpa using List.any_eq_true.mp hany
    | false => simpa using hany
  · cases hany : s.words.any isKeyword with
    | true => simp [hread, hany] at hs'
    | false =>
      rw [hread, hany] at hs'
      cases hs'
      exact ⟨rfl, htold.names hany⟩

/-- An import of names from a package around the module: one of them has a new name. -/
theorem compile_imports_renamed :
    ∃ c items d blocks, compile {} "from ..kit import Path as P, Port" "<input>" = .ok c ∧
      c.report.hasErrors = false ∧
      c.IsModuleOf {} "from ..kit import Path as P, Port" "<input>" items d blocks ∧
      ∃ i ∈ d.imports, Error.readImport i =
          some (.fromModule 2 ["kit"] [("Path", some "P"), ("Port", none)]) ∧
        i.boundNames = ["P", "Port"] := by
  have hrun : ((compile {} "from ..kit import Path as P, Port" "<input>").toOption.any fun c =>
      !c.report.hasErrors && c.descriptor.any fun d => d.imports.any fun i =>
        Error.readImport i =
          some (.fromModule 2 ["kit"] [("Path", some "P"), ("Port", none)])) = true := by
    decide +kernel
  obtain ⟨c, hc, hrun⟩ := (Option.any_eq_true _ _).mp hrun
  rw [Outcome.toOption_eq_some_iff] at hc
  obtain ⟨hclean, hread⟩ := Bool.and_eq_true_iff.mp hrun
  have hclean : c.report.hasErrors = false := by simpa using hclean
  obtain ⟨items, d, blocks, hmodule, himports⟩ := compile_imports_iff hc hclean
  rw [hmodule.held, Option.any_some] at hread
  obtain ⟨i, hi, hread⟩ := List.any_eq_true.mp hread
  have hread := of_decide_eq_true hread
  obtain ⟨s, -, -, hnames⟩ := himports i hi
  exact ⟨c, items, d, blocks, hc, hclean, hmodule, i, hi, hread, (hnames _ hread).2⟩

/-- **Not every import is a statement**: `class` is no keyword of declaration files, and nothing
about the file is an error. -/
theorem not_compile_imports_readable :
    ¬∀ options source filename c items d blocks, compile options source filename = .ok c →
      c.report.hasErrors = false → c.IsModuleOf options source filename items d blocks →
        ∀ i ∈ d.imports, ∃ s, Error.readImport i = some s := by
  have hrun : ((compile {} "import class" "<input>").toOption.any fun c =>
      !c.report.hasErrors && c.descriptor.any fun d =>
        d.imports.any fun i => (Error.readImport i).isNone) = true := by
    decide +kernel
  obtain ⟨c, hc, hrun⟩ := (Option.any_eq_true _ _).mp hrun
  rw [Outcome.toOption_eq_some_iff] at hc
  obtain ⟨hclean, hunread⟩ := Bool.and_eq_true_iff.mp hrun
  have hclean : c.report.hasErrors = false := by simpa using hclean
  obtain ⟨items, d, blocks, hmodule⟩ := exists_isModuleOf hc hclean
  rw [hmodule.held, Option.any_some] at hunread
  obtain ⟨i, hi, hunread⟩ := List.any_eq_true.mp hunread
  intro hread
  obtain ⟨s, hs⟩ := hread _ _ _ c items d blocks hc hclean hmodule i hi
  simp [hs] at hunread

end Errata
