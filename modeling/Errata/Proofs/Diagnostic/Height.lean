import Errata.Proofs.Descriptor.Unbroken
import Errata.Proofs.Diagnostic.SourceLine
import Errata.Proofs.Shadowing

/-!
# How many lines a report has

Without line-drawing characters a diagnostic is shown by its heading, a line of the source and the
marks under it. The heading tells the message as it is. So three lines are what a diagnostic takes,
unless its message quotes an argument that an escape has brought a line feed into: then the heading
goes on for as many lines more.

* `Diagnostic.QuotesLines`: diagnostics that quote an argument with line feeds.
* `Report.Shows`, `Report.shows_layoutOne`: the lines that show a diagnostic.
* `Report.sourceLines_render`: the lines of a report.
* `Compilation.Ending.isReported`: what is reported of a file.
* **`compile_report_height`**: how many lines its report has.
* `not_compile_report_height`: a diagnostic that takes more than three.
-/

namespace Errata

/-! ### Diagnostics -/

/-- Whether the message of a diagnostic quotes an argument that holds line feeds, and has no others.
Under the span of the diagnostic the source spells the argument in one line. -/
structure Diagnostic.QuotesLines (source : List Char) (d : Diagnostic)
    (expression reason : String) :
    Prop where
  /-- It says that the argument is no expression. -/
  label : d.label = Code.badExpression.entry.label
  /-- It quotes the argument and gives a reason. -/
  message : d.message = "cannot parse `" ++ expression ++ "` as an expression: " ++ reason
  /-- There are line feeds in the argument. -/
  broken : ¬IsUnbroken expression
  /-- There is none in the reason. -/
  reason : IsUnbroken reason
  /-- The source spells the argument without them. -/
  spelled : ∃ s raw decoded, d.span = some s ∧ s.textIn? source = some raw ∧ '\n' ∉ raw ∧
    Escape.decode raw = .ok decoded ∧ decoded.text = Text.ofString expression

/-- The text under a span within a line has no line feed. -/
theorem notMem_of_textIn? {source text : List Char} {s : Span} (h : s.textIn? source = some text) :
    '\n' ∉ text := by
  obtain ⟨-, h⟩ := Option.ite_none_right_eq_some.mp h
  obtain ⟨line, hline, rfl⟩ := Option.map_eq_some_iff.mp h
  obtain ⟨before, after, hof⟩ := exists_isLineOf hline
  exact fun hmem => hof.whole (List.mem_of_mem_drop (List.mem_of_mem_take hmem))

/-- The label of every diagnostic stands in one line. -/
theorem Code.isUnbroken_label (code : Code) : IsUnbroken code.entry.label := by
  cases code <;> decide

/-- The diagnostic of a finding is told in one line, unless it quotes an argument that holds line
feeds. -/
theorem Finding.IsToldFrom.isUnbroken_or_quotesLines {source : List Char} {f : Finding}
    (h : f.IsToldFrom source) (filename : String) :
    IsUnbroken (f.diagnostic filename).message ∨
      ∃ expression reason, (f.diagnostic filename).QuotesLines source expression reason := by
  rcases h.inLine.isUnbroken_message_or with
    hmessage | ⟨expression, reason, hproblem, hbroken, hreason⟩
  · exact .inl hmessage
  · obtain ⟨s, raw, decoded, hspan, hraw, hdecoded⟩ := h.spelled expression reason hproblem
    refine .inr ⟨expression, reason, ?_, ?_, hbroken, hreason, s, raw, decoded, hspan, hraw,
      notMem_of_textIn? hraw, hdecoded⟩
    · rw [Finding.diagnostic, hproblem]
      rfl
    · rw [Finding.diagnostic, hproblem, Problem.message_badExpression]

namespace Report

/-! ### Lines -/

/-- The text of a line without colour. -/
theorem toList_render_line (line : List Piece) :
    (String.join (line.map (Piece.render false))).toList = lineText line := by
  induction line with
  | nil => rfl
  | cons p line ih =>
    rw [List.map_cons, String.join_cons, String.toList_append, ih]
    rfl

/-- **The text of a report without colour**: its lines, with line feeds between them. -/
theorem toList_render (r : Report) (cwd : Path) (unicode : Bool) :
    (r.render cwd ⟨false, unicode⟩).toList =
      ['\n'].intercalate ((r.layout cwd unicode).map lineText) := by
  have hnewline : "\n".toList = ['\n'] := rfl
  rw [render, String.toList_intercalate, List.map_map, hnewline]
  exact congrArg (['\n'].intercalate ·) (List.map_congr_left fun line _ => toList_render_line line)

/-- The line feeds in the heading of a diagnostic are those of its message. -/
theorem count_heading {place : String} {d : Diagnostic} (hplace : IsUnbroken place)
    (hlabel : IsUnbroken d.label) :
    (lineText (heading place d)).count '\n' = d.message.toList.count '\n' := by
  have hsentence : (sentence d.message).toList.count '\n' = d.message.toList.count '\n' := by
    unfold sentence
    split
    · rfl
    · rw [String.toList_append, List.count_append]
      rfl
  have hword : d.severity.word.toList.count '\n' = 0 := by
    cases d.severity <;> decide
  simp [lineText, heading, List.count_eq_zero.mpr hplace, List.count_eq_zero.mpr hlabel, hsentence,
    hword]

/-- The lines that show a diagnostic without line-drawing characters: those of its heading, a line
of the source and a line that marks columns of it. -/
structure Shows (place : String) (d : Diagnostic) (block : List (List Char)) : Prop where
  /-- What they are. -/
  lines : ∃ shown columns width, '\n' ∉ shown ∧
    block = sourceLines (lineText (heading place d)) ++ ["  | ".toList ++ shown,
      "  ` ".toList ++ List.replicate columns ' ' ++ List.replicate width '^']
  /-- There are three of them, and one more for every line feed in the message. -/
  length : block.length = 3 + d.message.toList.count '\n'
  /-- The heading of a message in one line is the first of them. -/
  first : IsUnbroken d.message → block.head? = some (lineText (heading place d))

/-- **The lines that show a diagnostic.** -/
theorem shows_layoutOne {filename : String} (hfilename : IsUnbroken filename)
    (source : Option String) {d : Diagnostic} (hlabel : IsUnbroken d.label) {s : Span}
    (hspan : d.span = some s) :
    Shows (filename ++ ":" ++ toString s) d
      ((layoutOne false filename (source.map fun text => displayLines text.toList) d).flatMap
        fun line => sourceLines (lineText line)) := by
  have hplace : IsUnbroken (filename ++ ":" ++ toString s) :=
    (hfilename.append (by decide)).append (notMem_toString_span (by decide) s)
  generalize hlines : (source.map fun text => displayLines text.toList) = lines
  have hshown : '\n' ∉ sourceLine lines s := fun hmem =>
    absurd (mem_sourceLine (hlines ▸ hmem)).2 (by decide)
  have hblock : (layoutOne false filename lines d).map lineText =
      [lineText (heading (filename ++ ":" ++ toString s) d), "  | ".toList ++ sourceLine lines s,
        "  ` ".toList ++ List.replicate (firstColumn s - 1) ' ' ++
          List.replicate (markWidth s (sourceLine lines s)) '^'] := by
    simp [layoutOne, hspan, lineText, repeated]
  have hsource : sourceLines ("  | ".toList ++ sourceLine lines s) =
      ["  | ".toList ++ sourceLine lines s] := by
    refine sourceLines_of_notMem fun hmem => ?_
    exact (List.mem_append.mp hmem).elim (by decide) hshown
  have hmarks : ∀ columns width, sourceLines ("  ` ".toList ++ List.replicate columns ' ' ++
      List.replicate width '^') =
        ["  ` ".toList ++ List.replicate columns ' ' ++ List.replicate width '^'] := by
    intro columns width
    refine sourceLines_of_notMem fun hmem => ?_
    rcases List.mem_append.mp hmem with hmem | hmem
    · exact (List.mem_append.mp hmem).elim (by decide) fun h =>
        absurd (List.eq_of_mem_replicate h) (by decide)
    · exact absurd (List.eq_of_mem_replicate hmem) (by decide)
  rw [← List.flatMap_map, hblock, List.flatMap_cons, List.flatMap_cons, List.flatMap_singleton,
    hsource, hmarks]
  have hcount := count_heading hplace hlabel
  refine ⟨⟨_, _, _, hshown, rfl⟩, ?_, fun hmessage => ?_⟩
  · simp only [List.length_append, length_sourceLines, hcount, List.length_cons, List.length_nil]
    omega
  · rw [List.count_eq_zero.mpr hmessage, List.count_eq_zero] at hcount
    rw [sourceLines_of_notMem hcount]
    rfl

/-- A diagnostic is shown. -/
theorem layoutOne_ne_nil (unicode : Bool) (filename : String) (lines : Option (List (List Char)))
    (d : Diagnostic) : layoutOne unicode filename lines d ≠ [] := by
  unfold layoutOne
  split
  · exact List.cons_ne_nil _ _
  · dsimp only
    split <;> exact List.cons_ne_nil _ _

/-- **The lines of a report** without colour are those that show its diagnostics, if it has any. -/
theorem sourceLines_render {r : Report} (h : r.diagnostics ≠ []) (cwd : Path) (unicode : Bool) :
    sourceLines (r.render cwd ⟨false, unicode⟩).toList =
      (r.diagnostics.map fun d =>
        (layoutOne unicode
          (displayName cwd (if d.filename = "" then r.filename else d.filename))
          (r.source.map fun text => displayLines text.toList) d).flatMap
            fun line => sourceLines (lineText line)).flatten := by
  have hlines : (r.layout cwd unicode).map lineText ≠ [] := by
    obtain ⟨d, ds, hds⟩ := List.exists_cons_of_ne_nil h
    rw [layout, hds, ne_eq, List.map_eq_nil_iff, List.flatMap_cons]
    exact List.append_ne_nil_of_left_ne_nil (layoutOne_ne_nil _ _ _ d) _
  rw [toList_render, sourceLines_intercalate hlines, List.map_map, ← List.flatMap_def, layout,
    List.flatMap_assoc, ← List.flatMap_def]
  rfl

end Report

/-! ### Files -/

/-- A plain name stands in one line. -/
theorem Emission.IsPlainName.isUnbroken {name : String} (h : Emission.IsPlainName name) :
    IsUnbroken name :=
  fun hmem => absurd (h _ hmem) (by decide)

/-- The names that a plainly named enumeration takes stand in one line. -/
theorem Emission.IsPlainlyNamed.isUnbroken_generatedNames {e : Descriptor.Enumeration}
    (he : Emission.IsPlainlyNamed e) : ∀ n ∈ e.generatedNames, IsUnbroken n.1 := by
  refine List.forall_mem_cons.mpr ⟨he.name.isUnbroken, fun n hn => ?_⟩
  obtain ⟨v, hv, hn⟩ := List.mem_flatMap.mp hn
  obtain ⟨name, hname, rfl⟩ := List.mem_map.mp hn
  rcases List.mem_append.mp hname with hname | hname
  · rcases List.mem_cons.mp hname with rfl | hname
    · exact (he.variants v hv).isUnbroken
    · obtain rfl := List.mem_singleton.mp hname
      exact (he.className hv).isUnbroken
  · obtain ⟨-, hsnake⟩ := Option.ite_none_left_eq_some.mp (Option.mem_toList.mp hname)
    cases hsnake
    exact Emission.IsPlainName.isUnbroken (isNameChar_snakeCase (he.variants v hv))

/-- What is reported of a file: it bears the name of the file and a label in one line, and is told
in one line unless it quotes an argument that holds line feeds. -/
structure Diagnostic.IsReported (source : List Char) (filename : String) (d : Diagnostic) :
    Prop where
  /-- It bears the name of the file. -/
  filename : d.filename = filename
  /-- Its label stands in one line. -/
  label : IsUnbroken d.label
  /-- Its message does, or quotes an argument. -/
  message : IsUnbroken d.message ∨ ∃ expression reason, d.QuotesLines source expression reason

namespace Compilation

variable {options : CompileOptions} {source filename : String} {c : Compilation}

/-- A syntax error is told in one line. -/
theorem isReported_of_isSyntaxErrorOf {d : Diagnostic} (h : d.IsSyntaxErrorOf source filename) :
    d.IsReported source.toList filename := by
  obtain ⟨e, detail, message, hparse, hdetail, hmessage, rfl⟩ := h
  refine ⟨rfl, Code.isUnbroken_label .syntaxError, .inl (Code.isUnbroken_message ?_ hmessage)⟩
  exact List.forall_mem_singleton.mpr (Syntax.SyntaxError.isUnbroken_of_parse hparse hdetail)

/-- What is found in a file is told in one line, unless it quotes an argument. -/
theorem isReported_of_isOf [Expression.Capacity] {tree : Syntax.Tree} {description : Description}
    (h : description.IsOf options source tree) :
    ∀ d ∈ description.findings.map (Finding.diagnostic filename),
      d.IsReported source.toList filename := by
  obtain ⟨hparse, items, hitems, hdescribe⟩ := h
  rw [List.forall_mem_map]
  intro f hf
  have htold := Descriptor.isToldFrom_of_describe
    (fun declaration hd => Syntax.isInLine_of_fileItems hparse hitems hd) hdescribe
    (fun e he =>
      (isPlainlyNamed_of_describe hparse hitems hdescribe e he).1.isUnbroken_generatedNames)
    f hf
  exact ⟨rfl, Code.isUnbroken_label _, htold.isUnbroken_or_quotesLines filename⟩

/-- **However compiling ends**, this is what is reported. -/
theorem Ending.isReported [Expression.Capacity] (h : Ending options source filename c) :
    ∀ d ∈ c.report.diagnostics, d.IsReported source.toList filename := by
  cases h with
  | unparsed hunparsed =>
    exact List.forall_mem_singleton.mpr (isReported_of_isSyntaxErrorOf hunparsed)
  | withheld h => exact isReported_of_isOf h
  | generated h => exact isReported_of_isOf h

/-- A compilation reports on the file of the given name. -/
theorem Ending.filename_eq [Expression.Capacity]
    (h : Ending options source filename c) : c.report.filename = filename := by
  cases h <;> rfl

end Compilation

/-- Lists of given lengths have a length together. -/
theorem length_flatten_of_forall₂ {α β : Type} {n : α → Nat} {as : List α} {blocks : List (List β)}
    (h : List.Forall₂ (fun a block => block.length = 3 + n a) as blocks) :
    blocks.flatten.length = 3 * as.length + (as.map n).sum := by
  induction h with
  | nil => rfl
  | cons hfirst _ ih =>
    rw [List.flatten_cons, List.length_append, hfirst, ih, List.length_cons, List.map_cons,
      List.sum_cons]
    omega

/-- **How many lines a report has**: every diagnostic takes three, the heading, the line of the
source and the marks, and one more for each line feed in its message. There is none, unless the
message quotes an argument that is no expression, in which an escape stands for it. -/
theorem compile_report_height [Expression.Capacity]
    {options : CompileOptions} {source filename : String}
    (hfilename : IsUnbroken filename) {c : Compilation}
    (h : compile options source filename = .ok c) (cwd : Path) :
    (c.report.diagnostics = [] → c.report.render cwd ⟨false, false⟩ = "") ∧
      (c.report.diagnostics ≠ [] →
        (sourceLines (c.report.render cwd ⟨false, false⟩).toList).length =
            3 * c.report.diagnostics.length +
              (c.report.diagnostics.map fun d => d.message.toList.count '\n').sum ∧
          ∃ blocks, sourceLines (c.report.render cwd ⟨false, false⟩).toList = blocks.flatten ∧
            List.Forall₂ (fun d block => ∃ s, d.span = some s ∧
              Report.Shows (Report.displayName cwd filename ++ ":" ++ toString s) d block)
              c.report.diagnostics blocks) ∧
      ∀ d ∈ c.report.diagnostics, IsUnbroken d.message ∨
        ∃ expression reason, d.QuotesLines source.toList expression reason := by
  have hending := Compilation.ending_of_compile h
  have hreported := hending.isReported
  refine ⟨fun hnone => ?_, fun hsome => ?_, fun d hd => (hreported d hd).message⟩
  · rw [Report.render, Report.layout, hnone]
    rfl
  · obtain ⟨blocks, hlines, hblocks⟩ : ∃ blocks,
        sourceLines (c.report.render cwd ⟨false, false⟩).toList = blocks.flatten ∧
          List.Forall₂ (fun d block => ∃ s, d.span = some s ∧
            Report.Shows (Report.displayName cwd filename ++ ":" ++ toString s) d block)
            c.report.diagnostics blocks := by
      refine ⟨_, Report.sourceLines_render hsome cwd false, ?_⟩
      rw [List.forall₂_map_right_iff, List.forall₂_same]
      intro d hd
      obtain ⟨s, hspan, -⟩ := hending.isIn d hd
      have hname : (if d.filename = "" then c.report.filename else d.filename) = filename := by
        rw [(hreported d hd).filename, hending.filename_eq, ite_self]
      rw [hname]
      exact ⟨s, hspan, Report.shows_layoutOne (Report.notMem_displayName (by decide) hfilename cwd)
        c.report.source (hreported d hd).label hspan⟩
    refine ⟨?_, blocks, hlines, hblocks⟩
    rw [hlines]
    exact length_flatten_of_forall₂ (hblocks.imp fun d block ⟨s, _, hshows⟩ => hshows.length)

/-- A file with an argument in which an escape stands for a line feed. -/
def lineFeedFile : String :=
  "enum E \x7b\n    #[error = \"\x7ba\\nb\x7d\"]\n    V,\n\x7d\n"

/-- What is reported of such a file. -/
theorem exists_compile_lineFeedFile :
    ∃ c d, compile {} lineFeedFile "<input>" = .ok c ∧ c.report.diagnostics = [d] ∧
      d.message = "cannot parse `a\nb` as an expression: invalid syntax" ∧
        (sourceLines (c.report.render ⟨.slash, ["work"]⟩ ⟨false, false⟩).toList).length = 4 := by
  have hrun : ((compile {} lineFeedFile "<input>").toOption.any fun c =>
      c.report.diagnostics.map Diagnostic.message =
          ["cannot parse `a\nb` as an expression: invalid syntax"] ∧
        (sourceLines (c.report.render ⟨.slash, ["work"]⟩ ⟨false, false⟩).toList).length = 4) =
      true := by
    decide +kernel
  obtain ⟨c, hc, hrun⟩ := (Option.any_eq_true _ _).mp hrun
  rw [Outcome.toOption_eq_some_iff] at hc
  obtain ⟨hmessages, hlength⟩ := of_decide_eq_true hrun
  obtain ⟨d, hd, hmessage⟩ := List.map_eq_singleton_iff.mp hmessages
  exact ⟨c, d, hc, hd, hmessage, hlength⟩

/-- The lines of its report, and the argument that is spelled in one line and quoted in two. -/
theorem compile_report_height_lineFeedFile :
    ∃ c d, IsUnbroken "<input>" ∧ compile {} lineFeedFile "<input>" = .ok c ∧
      c.report.diagnostics = [d] ∧
        (sourceLines (c.report.render ⟨.slash, ["work"]⟩ ⟨false, false⟩).toList).length =
          3 * 1 + 1 ∧
        ∃ expression reason, d.QuotesLines lineFeedFile.toList expression reason := by
  obtain ⟨c, d, hc, hd, hmessage, -⟩ := exists_compile_lineFeedFile
  obtain ⟨-, hlines, hquotes⟩ :=
    compile_report_height (show IsUnbroken "<input>" by decide) hc ⟨.slash, ["work"]⟩
  obtain ⟨hlength, -⟩ := hlines (by simp [hd])
  refine ⟨c, d, by decide, hc, hd, ?_, ?_⟩
  · rw [hlength, hd, List.map_singleton, hmessage, List.length_singleton]
    decide
  · refine (hquotes d (by simp [hd])).resolve_left fun hunbroken => ?_
    rw [hmessage] at hunbroken
    exact absurd hunbroken (by decide)

/-- **Not every diagnostic takes three lines**, although the name of the file stands in one. -/
theorem not_compile_report_height :
    ¬∀ (options : CompileOptions) (source filename : String) (c : Compilation),
      IsUnbroken filename → compile options source filename = .ok c → ∀ cwd : Path,
        c.report.diagnostics ≠ [] →
          (sourceLines (c.report.render cwd ⟨false, false⟩).toList).length =
            3 * c.report.diagnostics.length := by
  intro hall
  obtain ⟨c, d, hc, hd, -, hlength⟩ := exists_compile_lineFeedFile
  have hthree := hall {} lineFeedFile "<input>" c (by decide) hc ⟨.slash, ["work"]⟩ (by simp [hd])
  rw [hlength, hd, List.length_singleton] at hthree
  exact absurd hthree (by decide)

end Errata
