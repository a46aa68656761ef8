import Errata.Compile
import Errata.Proofs.Descriptor.Build
import Errata.Proofs.Descriptor.Gathering
import Errata.Proofs.Descriptor.Literal
import Errata.Proofs.Descriptor.WellFormed
import Errata.Proofs.Syntax.Declaration

/-!
# Which files are compiled

Compiling ends with a report for nearly every text: the parser never gets stuck, a parse tree lacks
nothing, and what is described has a module. The one thing that gives up a file is an argument that
cannot be handed to the reader of expressions, and only if compiling comes to it.

* `Compilation.exists_generate`: a sound descriptor makes the last stage end.
* `exists_compile_iff`: compiling ends exactly if describing the items of the file does.
* **`Compilation.build_isWellFormed`**: the second stage makes a well-formed descriptor of any tree.
* **`compile_isOk_iff_readable`**: compiling ends exactly if every argument it comes to is readable.
* `not_compile_escaped_null`: it does not for an argument with an escaped null character.
-/

namespace Errata

/-! ### Stages -/

/-- **The last stage ends** for a sound descriptor. -/
theorem Compilation.exists_generate (options : CompileOptions) (filename : String)
    {c : Compilation} (h : ∀ d, c.descriptor = some d → d.IsSound) :
    ∃ c', c.generate options filename = .ok c' := by
  unfold generate
  cases hd : c.descriptor with
  | none => exact ⟨c, rfl⟩
  | some d =>
    dsimp only
    by_cases herrors : c.report.hasErrors = true
    · rw [if_pos herrors]
      exact ⟨c, rfl⟩
    · rw [if_neg herrors]
      obtain ⟨code, hcode⟩ := (Emission.generate_isOk_iff
        ⟨options.runtimeModule, (Path.ofString filename).name, []⟩ rfl d).mpr (h d hd)
      rw [hcode]
      exact ⟨_, rfl⟩

/-- Compiling ends exactly if describing the items of the file does: nothing else gives up a
file. -/
theorem exists_compile_iff [Expression.Capacity]
    {options : CompileOptions} {source filename : String} :
    (∃ c, compile options source filename = .ok c) ↔
      ∀ tree items, Syntax.parse source.toList = .ok tree →
        Syntax.fileItems source.toList tree = .ok items →
        ∃ description, describe options.strictPlaceholders items = .ok description := by
  unfold compile Compilation.ofSource
  dsimp only
  cases hparse : Syntax.parse source.toList with
  | error e =>
    cases e with
    | stuck => exact absurd hparse (Syntax.parse_ne_stuck _)
    | syntaxError e => exact iff_of_true ⟨_, rfl⟩ nofun
  | ok tree =>
    obtain ⟨items, hitems⟩ := Syntax.exists_fileItems_of_parse hparse
    have hdescribed : (∀ tree' items', (.ok tree : Except Syntax.Failure Syntax.Tree) = .ok tree' →
        Syntax.fileItems source.toList tree' = .ok items' →
        ∃ description, describe options.strictPlaceholders items' = .ok description) ↔
        ∃ description, describe options.strictPlaceholders items = .ok description := by
      constructor
      · exact fun h => h tree items rfl hitems
      · rintro h tree' items' ⟨⟩ hitems'
        cases hitems.symm.trans hitems'
        exact h
    rw [hdescribed]
    cases hdescribe : describe options.strictPlaceholders items with
    | error u =>
      refine iff_of_false ?_ nofun
      rintro ⟨c, h⟩
      simp [bind, Except.bind, Compilation.build, hitems, hdescribe] at h
    | ok description =>
      refine iff_of_true ?_ ⟨description, rfl⟩
      simp only [bind, Except.bind, Compilation.build, hitems, hdescribe, Outcome.mapError_ok, pure,
        Except.pure]
      refine Compilation.exists_generate options filename ?_
      rintro d ⟨⟩
      exact describe_isSound hdescribe

/-! ### Descriptors -/

/-- **The second stage makes a well-formed descriptor** of any parse tree, whatever else it finds on
the way. What a variant knows for the wrapped error and for the place is what a record keeps for
them that its fields are put into one by one, with the same violations. -/
theorem Compilation.build_isWellFormed [Expression.Capacity]
    {options : CompileOptions} {source : String}
    {c c' : Compilation} {tree : Syntax.Tree} (htree : c.tree = some tree)
    (h : c.build options source = .ok c') :
    (∃ d, c'.descriptor = some d ∧ d.IsWellFormed) ∧
      ∀ variant fs, fs.foldlM (Descriptor.Gathered.add variant) {} =
        Descriptor.fields variant [] fs >>= fun declared => pure
          ⟨declared, declared.find? fun f => f.role = .source,
            declared.find? fun f => f.role = .location⟩ := by
  refine ⟨?_, fun variant fs => Descriptor.gather_eq variant [] fs⟩
  unfold build at h
  rw [htree] at h
  obtain ⟨items, -, h⟩ := Outcome.bind_eq_ok_iff.mp h
  obtain ⟨description, hdescribed, h⟩ := Outcome.bind_eq_ok_iff.mp h
  cases h
  cases hmade : describe options.strictPlaceholders items with
  | error u =>
    rw [hmade] at hdescribed
    cases hdescribed
  | ok made =>
    rw [hmade] at hdescribed
    cases hdescribed
    exact ⟨description.descriptor, rfl, describe_isWellFormed hmade⟩

/-- A variant that wraps an error is left in the descriptor, which is well-formed. -/
theorem Compilation.build_isWellFormed_wrapping :
    ∃ c c' d,
      ofSource "enum E \x7b #[error = \"x\"] V \x7b #[source] source: T \x7d \x7d" "<input>" =
          .ok c ∧
        c.build {} "enum E \x7b #[error = \"x\"] V \x7b #[source] source: T \x7d \x7d" = .ok c' ∧
        c'.descriptor = some d ∧ d.IsWellFormed ∧ d.enumerations.length = 1 := by
  have hrun : ((ofSource
      "enum E \x7b #[error = \"x\"] V \x7b #[source] source: T \x7d \x7d" "<input>").toOption.any
        fun c => c.tree.isSome && (c.build {}
          "enum E \x7b #[error = \"x\"] V \x7b #[source] source: T \x7d \x7d").toOption.any
            fun c' => c'.descriptor.any fun d => d.enumerations.length = 1) = true := by
    decide +kernel
  obtain ⟨c, hc, hrun⟩ := (Option.any_eq_true _ _).mp hrun
  obtain ⟨hparsed, hrun⟩ := Bool.and_eq_true_iff.mp hrun
  obtain ⟨tree, htree⟩ := Option.isSome_iff_exists.mp hparsed
  obtain ⟨c', hc', hrun⟩ := (Option.any_eq_true _ _).mp hrun
  rw [Outcome.toOption_eq_some_iff] at hc hc'
  obtain ⟨d, hd, hwell⟩ := (build_isWellFormed htree hc').1
  rw [hd] at hrun
  exact ⟨c, c', d, hc, hc', hd, hwell, by simpa using hrun⟩

/-! ### Arguments -/

/-- **Compiling ends exactly if every argument it comes to is readable.** Whatever else is wrong
with an argument is a violation; an argument that is not readable gives up the whole file, whichever
options are chosen. -/
theorem compile_isOk_iff_readable [Expression.Capacity]
    (options : CompileOptions) (source filename : String) :
    (∀ text span,
      (Descriptor.expression text span =
          .ok (String.ofList (text.strip.filterMap CodePoint.char?)) ∨
        ∃ reason, Descriptor.expression text span = .error (Descriptor.violation
          (.badExpression (String.ofList (text.filterMap CodePoint.char?)) reason) span)) ↔
        text.strip.IsReadable) ∧
    ((∃ c, compile options source filename = .ok c) ↔
      ∀ tree items d literal a, Syntax.parse source.toList = .ok tree →
        Syntax.fileItems source.toList tree = .ok items → .declaration d ∈ items →
        Descriptor.ComesTo options.strictPlaceholders d literal →
        Descriptor.CheckComesTo options.strictPlaceholders literal a →
        a.text.strip.IsReadable) := by
  refine ⟨Descriptor.expression_isDecided_iff, ?_⟩
  have hliteral : ∀ literal, (∀ u, Descriptor.compileLiteral options.strictPlaceholders literal ≠
      .error (.unreadable u)) ↔
      ∀ a, Descriptor.CheckComesTo options.strictPlaceholders literal a →
        a.text.strip.IsReadable := by
    intro literal
    rw [← not_exists, Descriptor.compileLiteral_eq_unreadable_iff]
    simp only [not_exists, not_and, not_not]
  simp only [exists_compile_iff, describe_isOk_iff, hliteral]
  constructor
  · exact fun h tree items d literal a ht hi hd hc => h tree items ht hi d literal hd hc a
  · exact fun h tree items ht hi d literal hd hc a => h tree items d literal a ht hi hd hc

/-- An escaped null character in an argument gives up a file, though the argument is a mistake like
any other. -/
theorem not_compile_escaped_null :
    ¬∃ c, compile {} "enum E \x7b\n    #[error = \"\x7bx\\0\x7d\"]\n    V,\n\x7d\n" "<input>" =
      .ok c := by
  have hfault : (match compile {}
      "enum E \x7b\n    #[error = \"\x7bx\\0\x7d\"]\n    V,\n\x7d\n" "<input>" with
      | .error (.unreadable .nullCharacter) => true
      | _ => false) = true := by decide +kernel
  rintro ⟨c, hc⟩
  rw [hc] at hfault
  cases hfault

end Errata
