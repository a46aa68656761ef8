import Errata.Proofs.Descriptor.Findings
import Errata.Proofs.Safety

/-!
# How compiling ends

Compiling a file ends in one of three ways, unless the file is given up: its text cannot be parsed,
or what is described holds an error, or a module is generated. Nothing that is found is dropped on
the way to the report, and an error keeps back the module wherever it was found. So the diagnostics,
the exit code, the stages and the module all tell the same story.

* `Diagnostic.IsSyntaxErrorOf`: the diagnostic of a text that cannot be parsed.
* `Description.IsOf`: what describing the items of a text makes and finds.
* **`Compilation.Ending`**: the three ways in which compiling ends; `ending_of_compile`: there is
  no other.
* **`compile_tells_its_ending`**: how each of them shows in the diagnostics, in the exit code and in
  the stages.
-/

set_option linter.unusedSectionVars false

namespace Errata

/-- Whether a diagnostic is the one for the syntax error in a text. -/
def Diagnostic.IsSyntaxErrorOf (source filename : String) (d : Diagnostic) : Prop :=
  ∃ e detail message, Syntax.parse source.toList = .error (.syntaxError e) ∧
    e.what.describe? = some detail ∧
    Code.syntaxError.message [("detail", detail)] = .ok message ∧
    d = ⟨.error, "CE0100", message, if e.line > 0 then some e.span else none, filename⟩

section

variable [Expression.Capacity]

/-- Whether a description is that of the items of a text with the given parse tree. -/
def Description.IsOf (options : CompileOptions) (source : String) (tree : Syntax.Tree)
    (description : Description) : Prop :=
  Syntax.parse source.toList = .ok tree ∧
    ∃ items, Syntax.fileItems source.toList tree = .ok items ∧
      describe options.strictPlaceholders items = .ok description

/-- A text has at most one description. -/
theorem Description.IsOf.unique {options : CompileOptions} {source : String}
    {tree tree' : Syntax.Tree} {description description' : Description}
    (h : description.IsOf options source tree) (h' : description'.IsOf options source tree') :
    description = description' := by
  obtain ⟨htree, items, hitems, hdescribe⟩ := h
  obtain ⟨htree', items', hitems', hdescribe'⟩ := h'
  obtain rfl : tree = tree' := Except.ok.inj (htree.symm.trans htree')
  obtain rfl : items = items' := Except.ok.inj (hitems.symm.trans hitems')
  exact Except.ok.inj (hdescribe.symm.trans hdescribe')

namespace Compilation

/-- **The three ways in which compiling ends**, with all that is known in each of them. -/
inductive Ending (options : CompileOptions) (source filename : String) : Compilation → Prop where
  /-- The text cannot be parsed, which is all that is reported. -/
  | unparsed {d : Diagnostic} (hunparsed : d.IsSyntaxErrorOf source filename) :
    Ending options source filename
      { report := { source := some source, filename, diagnostics := [d] }
        stages := [(.parse, false)] }
  /-- There is an error among what was found, and the module is withheld. -/
  | withheld {tree : Syntax.Tree} {description : Description}
      (hdescribed : description.IsOf options source tree)
      (herror : ∃ f ∈ description.findings, f.problem.severity = .error) :
    Ending options source filename
      { report :=
          { source := some source
            filename
            diagnostics := description.findings.map (Finding.diagnostic filename) }
        stages := [(.parse, true), (.build, true)]
        tree := some tree
        descriptor := some description.descriptor }
  /-- There are warnings at most, and a module is generated. -/
  | generated {tree : Syntax.Tree} {description : Description} {code : String}
      (hdescribed : description.IsOf options source tree)
      (hwarnings : ∀ f ∈ description.findings, f.problem.severity = .warning)
      (hcode : Emission.generate
        { runtimeModule := options.runtimeModule, sourceName := (Path.ofString filename).name }
        description.descriptor = .ok code) :
    Ending options source filename
      { report :=
          { source := some source
            filename
            diagnostics := description.findings.map (Finding.diagnostic filename) }
        stages := [(.parse, true), (.build, true), (.generate, true)]
        tree := some tree
        descriptor := some description.descriptor
        code := some code }

end Compilation

/-- A report of findings has errors exactly if one of the findings is an error. -/
theorem Report.hasErrors_map_diagnostic (source : Option String) (filename : String)
    (found : List Finding) :
    (Report.mk source filename (found.map (Finding.diagnostic filename))).hasErrors = true ↔
      ∃ f ∈ found, f.problem.severity = .error := by
  rw [hasErrors, List.any_map, List.any_eq_true]
  exact exists_congr fun f => and_congr_right' decide_eq_true_iff

/-! ### Stages -/

/-- A text with a syntax error is compiled to a report of it. -/
theorem compile_of_syntaxError (options : CompileOptions) {source : String} (filename : String)
    {e : Syntax.SyntaxError} (hparse : Syntax.parse source.toList = .error (.syntaxError e)) :
    ∃ d : Diagnostic, d.IsSyntaxErrorOf source filename ∧
      compile options source filename = .ok
        { report := { source := some source, filename, diagnostics := [d] }
          stages := [(.parse, false)] } := by
  obtain ⟨detail, hdetail⟩ := Syntax.exists_describe?_of_parse hparse
  obtain ⟨message, hmessage⟩ : ∃ message,
      Code.syntaxError.message [("detail", detail)] = .ok message := ⟨_, rfl⟩
  have hrecord : Report.recordSyntaxError { source := some source, filename } e =
      some { source := some source, filename, diagnostics :=
        [⟨.error, "CE0100", message, if e.line > 0 then some e.span else none, filename⟩] } := by
    simp only [Report.recordSyntaxError, hdetail, Option.bind_eq_bind, Option.bind_some, hmessage,
      Except.toOption]
    rfl
  refine ⟨_, ⟨e, detail, message, hparse, hdetail, hmessage, rfl⟩, ?_⟩
  simp [compile, Compilation.ofSource, hparse, hrecord, Compilation.build, Compilation.generate,
    bind, Except.bind, pure, Except.pure]

namespace Compilation

variable {options : CompileOptions} {source : String} {c : Compilation} {tree : Syntax.Tree}
  {items : List Syntax.Item}

/-- The second stage gives up a file if one of its trees is no item. -/
theorem build_of_misfit {m : Syntax.Misfit} (htree : c.tree = some tree)
    (hitems : Syntax.fileItems source.toList tree = .error m) :
    c.build options source = .error (.misfit m) := by
  simp [build, htree, hitems, bind, Except.bind]

/-- The second stage gives up a file if it comes to an argument that cannot be read. -/
theorem build_of_unreadable {u : Descriptor.Unreadable} (htree : c.tree = some tree)
    (hitems : Syntax.fileItems source.toList tree = .ok items)
    (hdescribe : describe options.strictPlaceholders items = .error u) :
    c.build options source = .error (.unreadable u) := by
  simp [build, htree, hitems, hdescribe, bind, Except.bind]

/-- The second stage leaves a descriptor, and puts what it finds at the end of the report. -/
theorem build_of_described {description : Description} (htree : c.tree = some tree)
    (hitems : Syntax.fileItems source.toList tree = .ok items)
    (hdescribe : describe options.strictPlaceholders items = .ok description) :
    c.build options source = .ok
      { c with
        report :=
          { c.report with
            diagnostics := c.report.diagnostics ++
              description.findings.map (Finding.diagnostic c.report.filename) }
        stages := c.stages ++ [(.build, true)]
        descriptor := some description.descriptor } := by
  simp [build, htree, hitems, hdescribe, Report.foldl_record, bind, Except.bind, pure, Except.pure]

end Compilation

/-- A text that can be parsed is compiled by the other two stages. -/
theorem compile_of_parse (options : CompileOptions) {source : String} (filename : String)
    {tree : Syntax.Tree} (hparse : Syntax.parse source.toList = .ok tree) :
    compile options source filename =
      (Compilation.build options source
        { report := { source := some source, filename }
          stages := [(.parse, true)]
          tree := some tree }).bind fun built => built.generate options filename := by
  rw [compile, Compilation.ofSource, hparse]
  rfl

/-- A text with an argument that cannot be read is given up. -/
theorem compile_of_unreadable {options : CompileOptions} {source : String} (filename : String)
    {tree : Syntax.Tree} {items : List Syntax.Item} {u : Descriptor.Unreadable}
    (hparse : Syntax.parse source.toList = .ok tree)
    (hitems : Syntax.fileItems source.toList tree = .ok items)
    (hdescribe : describe options.strictPlaceholders items = .error u) :
    compile options source filename = .error (.unreadable u) := by
  rw [compile_of_parse options filename hparse,
    Compilation.build_of_unreadable rfl hitems hdescribe]
  rfl

/-- What describing a text finds is what its compilation reports, and that has a module unless there
is an error in it. -/
theorem compile_of_isOf {options : CompileOptions} {source : String} (filename : String)
    {tree : Syntax.Tree} {description : Description} (h : description.IsOf options source tree) :
    compile options source filename = Compilation.generate options filename
      { report :=
          { source := some source
            filename
            diagnostics := description.findings.map (Finding.diagnostic filename) }
        stages := [(.parse, true), (.build, true)]
        tree := some tree
        descriptor := some description.descriptor } := by
  obtain ⟨hparse, items, hitems, hdescribe⟩ := h
  rw [compile_of_parse options filename hparse,
    Compilation.build_of_described rfl hitems hdescribe]
  rfl

/-- **Compiling ends in one of the three ways.** -/
theorem Compilation.ending_of_compile {options : CompileOptions} {source filename : String}
    {c : Compilation} (h : compile options source filename = .ok c) :
    Ending options source filename c := by
  cases hparse : Syntax.parse source.toList with
  | error failure =>
    cases failure with
    | stuck => exact absurd hparse (Syntax.parse_ne_stuck _)
    | syntaxError e =>
      obtain ⟨d, hd, hcompile⟩ := compile_of_syntaxError options filename hparse
      obtain rfl := Except.ok.inj (hcompile.symm.trans h)
      exact .unparsed hd
  | ok tree =>
    obtain ⟨items, hitems⟩ := Syntax.exists_fileItems_of_parse hparse
    cases hdescribe : describe options.strictPlaceholders items with
    | error u => exact nomatch (compile_of_unreadable filename hparse hitems hdescribe).symm.trans h
    | ok description =>
      have hdescribed : description.IsOf options source tree := ⟨hparse, items, hitems, hdescribe⟩
      have herrors := Report.hasErrors_map_diagnostic (some source) filename description.findings
      rw [compile_of_isOf filename hdescribed] at h
      unfold generate at h
      dsimp only at h
      split at h
      · next hreported =>
        cases h
        exact .withheld hdescribed (herrors.mp hreported)
      · next hclean =>
        have hwarnings : ∀ f ∈ description.findings, f.problem.severity = .warning := by
          intro f hf
          cases hs : f.problem.severity with
          | warning => rfl
          | error => exact absurd (herrors.mpr ⟨f, hf, hs⟩) hclean
        obtain ⟨code, hcode, h⟩ := Outcome.bind_eq_ok_iff.mp h
        cases h
        exact .generated hdescribed hwarnings (Outcome.mapError_eq_ok_iff.mp hcode)

/-! ### What tells the ending -/

namespace Compilation

/-- The exit code is two exactly if there are errors. -/
theorem exitCode_eq_two_iff (c : Compilation) : c.exitCode = 2 ↔ c.report.hasErrors = true := by
  unfold exitCode
  split_ifs <;> simp_all

/-- The exit code is one exactly if there are warnings and no errors. -/
theorem exitCode_eq_one_iff (c : Compilation) :
    c.exitCode = 1 ↔ ¬c.report.hasErrors = true ∧ c.report.hasWarnings = true := by
  unfold exitCode
  split_ifs <;> simp_all

/-- The exit code is zero exactly if nothing is reported. -/
theorem exitCode_eq_zero_iff (c : Compilation) : c.exitCode = 0 ↔ c.report.diagnostics = [] := by
  have hall : c.report.hasErrors = false ∧ c.report.hasWarnings = false ↔
      c.report.diagnostics = [] := by
    constructor
    · rintro ⟨herrors, hwarnings⟩
      rw [Report.hasErrors, List.any_eq_false] at herrors
      rw [Report.hasWarnings, List.any_eq_false] at hwarnings
      apply List.eq_nil_iff_forall_not_mem.mpr
      intro d hd
      cases hs : d.severity with
      | error => exact herrors d hd (decide_eq_true hs)
      | warning => exact hwarnings d hd (decide_eq_true hs)
    · intro hnil
      simp [Report.hasErrors, Report.hasWarnings, hnil]
  rw [← hall]
  unfold exitCode
  split_ifs <;> simp_all

variable {options : CompileOptions} {source filename : String} {c : Compilation}

/-- A text that is described has no syntax error. -/
theorem not_isSyntaxErrorOf_of_isOf {tree : Syntax.Tree} {description : Description}
    (h : description.IsOf options source tree) (d : Diagnostic) :
    ¬d.IsSyntaxErrorOf source filename := by
  rintro ⟨e, -, -, hparse, -⟩
  cases h.1.symm.trans hparse

/-- There are errors exactly if there is no module. -/
theorem Ending.hasErrors_iff (h : Ending options source filename c) :
    c.report.hasErrors = true ↔ c.code = none := by
  cases h with
  | unparsed hunparsed =>
    obtain ⟨e, detail, message, -, -, -, rfl⟩ := hunparsed
    exact iff_of_true rfl rfl
  | withheld hdescribed herror =>
    exact iff_of_true ((Report.hasErrors_map_diagnostic _ _ _).mpr herror) rfl
  | generated hdescribed hwarnings hcode =>
    refine iff_of_false ?_ nofun
    rw [Report.hasErrors_map_diagnostic]
    rintro ⟨f, hf, herror⟩
    cases (hwarnings f hf).symm.trans herror

/-- Parsing is the last stage exactly if the syntax error is all that is reported. -/
theorem Ending.stages_eq_parse_iff (h : Ending options source filename c) :
    c.stages = [(.parse, false)] ↔
      ∃ d, c.report.diagnostics = [d] ∧ d.IsSyntaxErrorOf source filename := by
  cases h with
  | unparsed hunparsed => exact iff_of_true rfl ⟨_, rfl, hunparsed⟩
  | withheld hdescribed herror =>
    exact iff_of_false (by simp) fun ⟨d, _, hd⟩ => not_isSyntaxErrorOf_of_isOf hdescribed d hd
  | generated hdescribed hwarnings hcode =>
    exact iff_of_false (by simp) fun ⟨d, _, hd⟩ => not_isSyntaxErrorOf_of_isOf hdescribed d hd

/-- Describing is the last stage exactly if it finds an error; all that it finds is reported. -/
theorem Ending.stages_eq_build_iff (h : Ending options source filename c) :
    c.stages = [(.parse, true), (.build, true)] ↔
      ∃ tree description, Description.IsOf options source tree description ∧
        c.report.diagnostics = description.findings.map (Finding.diagnostic filename) ∧
        ∃ f ∈ description.findings, f.problem.severity = .error := by
  cases h with
  | unparsed hunparsed =>
    refine iff_of_false (by simp) ?_
    rintro ⟨tree, description, hdescribed, -⟩
    exact not_isSyntaxErrorOf_of_isOf hdescribed _ hunparsed
  | withheld hdescribed herror => exact iff_of_true rfl ⟨_, _, hdescribed, rfl, herror⟩
  | generated hdescribed hwarnings hcode =>
    refine iff_of_false (by simp) ?_
    rintro ⟨tree, description, hdescribed', -, f, hf, herror⟩
    obtain rfl := hdescribed.unique hdescribed'
    cases (hwarnings f hf).symm.trans herror

/-- Generating is the last stage exactly if there is a module. -/
theorem Ending.stages_eq_generate_iff (h : Ending options source filename c) :
    c.stages = [(.parse, true), (.build, true), (.generate, true)] ↔ c.code.isSome = true := by
  cases h <;> simp

/-- A module is what is generated from the descriptor of the text. -/
theorem Ending.exists_of_code (h : Ending options source filename c) {code : String}
    (hcode : c.code = some code) :
    ∃ tree description, Description.IsOf options source tree description ∧
      c.descriptor = some description.descriptor ∧
      Emission.generate
        { runtimeModule := options.runtimeModule, sourceName := (Path.ofString filename).name }
        description.descriptor = .ok code := by
  cases h with
  | unparsed hunparsed => cases hcode
  | withheld hdescribed herror => cases hcode
  | generated hdescribed hwarnings hmade =>
    cases hcode
    exact ⟨_, _, hdescribed, rfl, hmade⟩

end Compilation

/-- **How the ending of a compilation shows.** There is a module exactly if no error is reported,
whatever warnings are. The exit code is two without a module, one with a module and a warning, and
zero if nothing is reported. The stages end with parsing exactly if the syntax error is all that is
reported, with describing exactly if that finds an error, and with generating exactly if there is a
module, which is what is generated from the descriptor of the text. -/
theorem compile_tells_its_ending {options : CompileOptions} {source filename : String}
    {c : Compilation} (h : compile options source filename = .ok c) :
    (c.code.isSome = true ↔ ∀ d ∈ c.report.diagnostics, d.severity ≠ .error) ∧
    ((c.exitCode = 2 ↔ c.code = none) ∧
      (c.exitCode = 1 ↔
        c.code.isSome = true ∧ ∃ d ∈ c.report.diagnostics, d.severity = .warning) ∧
      (c.exitCode = 0 ↔ c.report.diagnostics = [])) ∧
    ((c.stages = [(.parse, false)] ↔
        ∃ d, c.report.diagnostics = [d] ∧ d.IsSyntaxErrorOf source filename) ∧
      (c.stages = [(.parse, true), (.build, true)] ↔
        ∃ tree description, Description.IsOf options source tree description ∧
          c.report.diagnostics = description.findings.map (Finding.diagnostic filename) ∧
          ∃ f ∈ description.findings, f.problem.severity = .error) ∧
      (c.stages = [(.parse, true), (.build, true), (.generate, true)] ↔ c.code.isSome = true)) ∧
    ∀ code, c.code = some code →
      ∃ tree description, Description.IsOf options source tree description ∧
        c.descriptor = some description.descriptor ∧
        Emission.generate
          { runtimeModule := options.runtimeModule, sourceName := (Path.ofString filename).name }
          description.descriptor = .ok code := by
  have hending := Compilation.ending_of_compile h
  have hcode : c.code.isSome = true ↔ ¬c.report.hasErrors = true := by
    rw [hending.hasErrors_iff, Option.isSome_iff_ne_none]
  have herrors : ¬c.report.hasErrors = true ↔ ∀ d ∈ c.report.diagnostics, d.severity ≠ .error := by
    simp [Report.hasErrors]
  have hwarnings : c.report.hasWarnings = true ↔
      ∃ d ∈ c.report.diagnostics, d.severity = .warning := by
    simp [Report.hasWarnings]
  refine ⟨hcode.trans herrors, ⟨?_, ?_, c.exitCode_eq_zero_iff⟩,
    ⟨hending.stages_eq_parse_iff, hending.stages_eq_build_iff, hending.stages_eq_generate_iff⟩,
    fun code => hending.exists_of_code⟩
  · rw [c.exitCode_eq_two_iff, hending.hasErrors_iff]
  · rw [c.exitCode_eq_one_iff, hcode, hwarnings]

end

/-- A field without a type is reported under the label of syntax errors, and yet it is the second
stage that finds it. -/
theorem compile_tells_its_ending_untyped :
    ∃ c, compile {} "enum E \x7b #[error = \"x\"] V \x7b f \x7d \x7d" "<input>" = .ok c ∧
      (∃ d, c.report.diagnostics = [d] ∧ d.label = "CE0100") ∧
      c.exitCode = 2 ∧ c.code = none ∧
      ¬∃ d, c.report.diagnostics = [d] ∧
        d.IsSyntaxErrorOf "enum E \x7b #[error = \"x\"] V \x7b f \x7d \x7d" "<input>" := by
  have hrun : ((compile {} "enum E \x7b #[error = \"x\"] V \x7b f \x7d \x7d"
      "<input>").toOption.any fun c =>
        c.stages = [(.parse, true), (.build, true)] &&
          c.report.diagnostics.map Diagnostic.label = ["CE0100"] && c.exitCode = 2) = true := by
    decide +kernel
  obtain ⟨c, hc, hrun⟩ := (Option.any_eq_true _ _).mp hrun
  rw [Outcome.toOption_eq_some_iff] at hc
  simp only [Bool.and_eq_true, decide_eq_true_iff] at hrun
  obtain ⟨⟨hstages, hlabels⟩, hexit⟩ := hrun
  obtain ⟨-, ⟨htwo, -⟩, ⟨hparse, -⟩, -⟩ := compile_tells_its_ending hc
  obtain ⟨d, hreport, hlabel⟩ := List.map_eq_singleton_iff.mp hlabels
  refine ⟨c, hc, ⟨d, hreport, hlabel⟩, hexit, htwo.mp hexit, fun hunparsed => ?_⟩
  rw [← hparse, hstages] at hunparsed
  simp at hunparsed

end Errata
