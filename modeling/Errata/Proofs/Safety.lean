import Errata.Proofs.Compile
import Errata.Proofs.Descriptor.Import

/-!
# Compiling does not fail inside

Whatever the text, parsing ends with a tree or with one diagnostic, and what the later stages look
up in the tree, in statements and in literals is there. Nothing is reported but what the catalogue
has a message for. What can give up a file is an argument that cannot be handed to the reader of
expressions, and nothing else.

* `Escape.length_index`: the index of a decoded literal has a place for each position in it.
* `Diagnostic.IsCatalogued`: diagnostics with a message of the catalogue.
* `Compilation.ofSource_cases`: **parsing gives a tree or one syntax error**.
* `compile_cases`: what compiling a parsed text comes to.
* **`compile_isSafe`**: all of it, for every text and all options.
-/

namespace Errata

/-! ### Positions in literals -/

/-- The index of a decoded literal has a place for each code point, and one for the end. -/
theorem Escape.length_index {raw : List Char} {decoded : Decoded} (h : decode raw = .ok decoded) :
    decoded.index.length = decoded.text.length + 1 := by
  obtain ⟨ps, -, rfl⟩ := Outcome.map_eq_ok_iff.mp h
  have hboundaries : ∀ (widths : List Nat) (start : Nat),
      (boundaries start widths).length = widths.length + 1 := by
    intro widths
    induction widths with
    | nil => exact fun _ => rfl
    | cons width widths ih => exact fun start => congrArg (· + 1) (ih (start + width))
  simp [Decoded.ofPieces, hboundaries]

/-! ### Diagnostics -/

/-- Whether a diagnostic has an entry in the catalogue that is not about the generator itself, and
its message is that of the entry for values of all parameters. -/
def Diagnostic.IsCatalogued (d : Diagnostic) : Prop :=
  ∃ code : Code, code.entry.category ≠ .internal ∧ d.label = code.entry.label ∧
    d.severity = code.entry.severity ∧ ∃ values, code.message values = .ok d.message

/-- The message of a problem is that of the catalogue. -/
theorem Problem.code_message (p : Problem) : p.code.message p.values = .ok p.message := by
  unfold message
  split
  · next h => exact h
  · next h => exact absurd p.message_isOk (by simp [h, Except.isOk, Except.toBool])

/-- No problem is one of the generator itself. -/
theorem Problem.category_ne_internal (p : Problem) : p.code.entry.category ≠ .internal := by
  cases p <;> simp [code, Code.entry]

/-- Recording findings reports nothing that is not in the catalogue. -/
theorem Report.isCatalogued_of_record {r : Report} {findings : List Finding}
    (h : ∀ d ∈ r.diagnostics, d.IsCatalogued) :
    ∀ d ∈ (findings.foldl record r).diagnostics, d.IsCatalogued := by
  induction findings generalizing r with
  | nil => exact h
  | cons f findings ih =>
    refine ih fun d hd => ?_
    rcases List.mem_append.mp hd with hd | hd
    · exact h d hd
    · obtain rfl := List.mem_singleton.mp hd
      exact ⟨f.problem.code, f.problem.category_ne_internal, rfl, rfl, f.problem.values,
        f.problem.code_message⟩

/-- A syntax error that is described is recorded. -/
theorem Report.recordSyntaxError_eq (r : Report) {e : Syntax.SyntaxError} {detail : String}
    (h : e.what.describe? = some detail) :
    ∃ message span, Code.syntaxError.message [("detail", detail)] = .ok message ∧
      r.recordSyntaxError e =
        some (r.add Code.syntaxError.entry.severity Code.syntaxError.entry.label message span) := by
  refine ⟨_, if e.line > 0 then some e.span else none, rfl, ?_⟩
  rw [recordSyntaxError, h]
  rfl

/-! ### Stages -/

namespace Compilation

/-- **Parsing gives a tree or one syntax error.** The tree is well-formed, save for that of an empty
file. -/
theorem ofSource_cases (source filename : String) :
    ∃ c, ofSource source filename = .ok c ∧ c.descriptor = none ∧
      ((∃ tree, c.tree = some tree ∧ Syntax.parse source.toList = .ok tree ∧
          c.report.diagnostics = []) ∨
        (c.tree = none ∧ ∃ d, c.report.diagnostics = [d] ∧
          d.label = Code.syntaxError.entry.label ∧ d.IsCatalogued)) := by
  unfold ofSource
  dsimp only
  cases hparse : Syntax.parse source.toList with
  | ok tree => exact ⟨_, rfl, rfl, Or.inl ⟨tree, rfl, rfl, rfl⟩⟩
  | error e =>
    cases e with
    | stuck => exact absurd hparse (Syntax.parse_ne_stuck _)
    | syntaxError e =>
      obtain ⟨detail, hdetail⟩ := Syntax.exists_describe?_of_parse hparse
      obtain ⟨message, span, hmessage, hrecord⟩ :=
        Report.recordSyntaxError_eq { source := some source, filename } hdetail
      dsimp only
      rw [hrecord]
      exact ⟨_, rfl, rfl, Or.inr ⟨rfl, _, rfl, rfl, .syntaxError, by decide, rfl, rfl, _, hmessage⟩⟩

/-- What describing the items of a tree leaves behind. -/
theorem build_cases [Expression.Capacity]
    (options : CompileOptions) {source : String} {c : Compilation}
    {tree : Syntax.Tree} (hparse : Syntax.parse source.toList = .ok tree)
    (htree : c.tree = some tree) :
    (∃ u, c.build options source = .error (.unreadable u)) ∨
      ∃ items description, Syntax.fileItems source.toList tree = .ok items ∧
        describe options.strictPlaceholders items = .ok description ∧
        c.build options source = .ok { c with
          report := description.findings.foldl Report.record c.report
          stages := c.stages ++ [(.build, true)]
          descriptor := some description.descriptor } := by
  obtain ⟨items, hitems⟩ := Syntax.exists_fileItems_of_parse hparse
  cases hdescribe : describe options.strictPlaceholders items with
  | error u =>
    refine Or.inl ⟨u, ?_⟩
    simp [build, htree, hitems, hdescribe, bind, Except.bind]
  | ok description =>
    refine Or.inr ⟨items, description, hitems, hdescribe, ?_⟩
    simp [build, htree, hitems, hdescribe, bind, Except.bind, pure, Except.pure]

/-- Generating a module neither reports anything nor changes the descriptor. -/
theorem eq_of_generate {options : CompileOptions} {filename : String} {c c' : Compilation}
    (h : c.generate options filename = .ok c') :
    c'.report = c.report ∧ c'.descriptor = c.descriptor := by
  unfold generate at h
  split at h
  · split at h
    · cases h
      exact ⟨rfl, rfl⟩
    · obtain ⟨code, -, h⟩ := Outcome.bind_eq_ok_iff.mp h
      cases h
      exact ⟨rfl, rfl⟩
  · cases h
    exact ⟨rfl, rfl⟩

end Compilation

/-- A text that is not parsed is compiled to what parsing found. -/
theorem compile_of_tree_eq_none [Expression.Capacity]
    (options : CompileOptions) {source filename : String}
    {c : Compilation} (h : Compilation.ofSource source filename = .ok c) (htree : c.tree = none)
    (hdescriptor : c.descriptor = none) : compile options source filename = .ok c := by
  simp [compile, h, Compilation.build, htree, Compilation.generate, hdescriptor, bind, Except.bind,
    pure, Except.pure]

/-- **What compiling a parsed text comes to**: an argument that cannot be read, or a report of
catalogued diagnostics and statements off which names can be read. -/
theorem compile_cases [Expression.Capacity]
    (options : CompileOptions) {source filename : String} {c : Compilation}
    {tree : Syntax.Tree} (h : Compilation.ofSource source filename = .ok c)
    (hparse : Syntax.parse source.toList = .ok tree) (htree : c.tree = some tree)
    (hreport : c.report.diagnostics = []) :
    (∃ u, compile options source filename = .error (.unreadable u)) ∨
      ∃ c', compile options source filename = .ok c' ∧
        (∀ d ∈ c'.report.diagnostics, d.IsCatalogued) ∧
        ∀ d, c'.descriptor = some d → ∀ i ∈ d.imports, i.IsReadable := by
  rcases Compilation.build_cases options hparse htree with
    ⟨u, hbuild⟩ | ⟨items, description, hitems, hdescribe, hbuild⟩
  · exact Or.inl ⟨u, by simp [compile, h, hbuild, bind, Except.bind]⟩
  · right
    obtain ⟨c', hgenerate⟩ := Compilation.exists_generate options filename
      (c := { c with
        report := description.findings.foldl Report.record c.report
        stages := c.stages ++ [(.build, true)]
        descriptor := some description.descriptor }) (by
      rintro d ⟨⟩
      exact describe_isSound hdescribe)
    obtain ⟨hsame, hdescriptor⟩ := Compilation.eq_of_generate hgenerate
    refine ⟨c', by simp [compile, h, hbuild, hgenerate, bind, Except.bind], ?_, ?_⟩
    · rw [hsame]
      exact Report.isCatalogued_of_record (by simp [hreport])
    · rw [hdescriptor]
      rintro d ⟨⟩ i hi
      rw [(describe_origin hdescribe).1] at hi
      obtain ⟨item, hitem, himport⟩ := List.mem_filterMap.mp hi
      exact Descriptor.isReadable_of_importOf?
        (Syntax.isSpelled_of_fileItems hparse hitems item hitem) himport

/-- **Compiling does not fail inside.** Parsing gives a tree that holds what later stages look up in
it, or exactly one diagnostic, which is all that compiling then comes to. Nothing gives up a file
but an argument that cannot be handed to the reader of expressions. Every diagnostic is an entry of
the catalogue whose parameters all have values, the names can be read off the statements of all
imports, and every position in a decoded literal leads back into the literal. -/
theorem compile_isSafe [Expression.Capacity] (options : CompileOptions) (source filename : String) :
    (∃ c, Compilation.ofSource source filename = .ok c ∧
      ((∃ tree, c.tree = some tree ∧ c.report.diagnostics = [] ∧
          (tree = .node .file none [] ∨ tree.IsWellFormed ∧ tree.IsNode [.file])) ∨
        (c.tree = none ∧ compile options source filename = .ok c ∧
          ∃ d, c.report.diagnostics = [d] ∧ d.label = "CE0100"))) ∧
    (∀ fault, compile options source filename = .error fault → ∃ u, fault = .unreadable u) ∧
    (∀ c, compile options source filename = .ok c →
      (∀ d ∈ c.report.diagnostics, d.IsCatalogued) ∧
        ∀ d, c.descriptor = some d → ∀ i ∈ d.imports, i.IsReadable) ∧
    ∀ raw decoded, Escape.decode raw = .ok decoded →
      ∀ position, min position decoded.text.length < decoded.index.length := by
  have hindex : ∀ raw decoded, Escape.decode raw = .ok decoded →
      ∀ position, min position decoded.text.length < decoded.index.length := by
    intro raw decoded h position
    rw [Escape.length_index h]
    omega
  obtain ⟨c, hsource, hdescriptor, htree | hnone⟩ := Compilation.ofSource_cases source filename
  · obtain ⟨tree, htree, hparse, hreport⟩ := htree
    refine ⟨⟨c, hsource, Or.inl ⟨tree, htree, hreport, Syntax.isWellFormed_of_parse hparse⟩⟩, ?_⟩
    rcases compile_cases options hsource hparse htree hreport with
      ⟨u, hu⟩ | ⟨c', hc', hall⟩
    · rw [hu]
      exact ⟨fun fault hfault => ⟨u, (Except.error.inj hfault).symm⟩, nofun, hindex⟩
    · rw [hc']
      refine ⟨nofun, ?_, hindex⟩
      rintro _ ⟨⟩
      exact hall
  · obtain ⟨htree, d, hreport, hlabel, hcatalogued⟩ := hnone
    have hcompile := compile_of_tree_eq_none options hsource htree hdescriptor
    refine ⟨⟨c, hsource, Or.inr ⟨htree, hcompile, d, hreport, hlabel⟩⟩, ?_⟩
    rw [hcompile]
    refine ⟨nofun, ?_, hindex⟩
    rintro _ ⟨⟩
    rw [hreport, hdescriptor]
    exact ⟨by simpa using hcatalogued, nofun⟩

/-- An import and a warning: the names can be read off the one, and the other is catalogued. -/
theorem compile_isSafe_warning :
    ∃ c d, compile {} "import a.b\n#[x] enum E;\n" "<input>" = .ok c ∧
      (∃ w ∈ c.report.diagnostics, w.label = "CW1002" ∧ w.IsCatalogued) ∧
      c.descriptor = some d ∧ ∃ i ∈ d.imports, i.IsReadable := by
  have hrun : ((compile {} "import a.b\n#[x] enum E;\n" "<input>").toOption.any fun c =>
      c.report.diagnostics.any (fun w => w.label = "CW1002") &&
        c.descriptor.any fun d => !d.imports.isEmpty) = true := by decide +kernel
  obtain ⟨c, hc, hrun⟩ := (Option.any_eq_true _ _).mp hrun
  rw [Outcome.toOption_eq_some_iff] at hc
  obtain ⟨hreported, hdescribed⟩ := Bool.and_eq_true_iff.mp hrun
  obtain ⟨w, hw, hlabel⟩ := List.any_eq_true.mp hreported
  obtain ⟨d, hd, himports⟩ := (Option.any_eq_true _ _).mp hdescribed
  obtain ⟨i, hi⟩ := List.exists_mem_of_ne_nil d.imports (by simpa using himports)
  obtain ⟨hcatalogued, hreadable⟩ := (compile_isSafe {} _ _).2.2.1 c hc
  exact ⟨c, d, hc, ⟨w, hw, of_decide_eq_true hlabel, hcatalogued w hw⟩, hd, i, hi,
    hreadable d hd i hi⟩

end Errata
