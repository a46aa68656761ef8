import Errata.Proofs.Ending
import Errata.Proofs.Message.Segment

/-!
# Strict and lenient placeholders

In strict mode a placeholder without an argument is an error, otherwise it is shown as it is. That
is all there is to the mode: wherever no such error is reported, a file is compiled in the same way
in both modes.

* `Outcome.EqUnless`: two computations come to the same unless the first fails in a certain way.
* `Placeholder.segments_eqUnless`, `Descriptor.compileLiteral_eqUnless`: literals in both modes.
* `Descriptor.Reports`: a step reports a problem; `Descriptor.EqUnless`: two steps are the same
  unless the first reports it, and `EqUnless.bind` puts such steps together.
* **`Descriptor.eqUnless_describing`**: describing items in both modes.
* `compile_eq_of_not_reports`, **`compile_lenient_of_strict`**: compiling files in both modes.
-/

set_option linter.unusedSectionVars false

namespace Errata

namespace Outcome

variable {α β ε : Type}

/-- Two computations come to the same, unless the first fails in a certain way. -/
def EqUnless (failure : ε → Prop) (x y : Except ε α) : Prop :=
  x = y ∨ ∃ e, x = .error e ∧ failure e

/-- A computation comes to the same as itself. -/
theorem EqUnless.refl (failure : ε → Prop) (x : Except ε α) : EqUnless failure x x :=
  Or.inl rfl

/-- Two steps that come to the same, one after the other. -/
theorem EqUnless.bind {failure : ε → Prop} {x y : Except ε α} {f g : α → Except ε β}
    (hx : EqUnless failure x y) (hf : ∀ a, EqUnless failure (f a) (g a)) :
    EqUnless failure (x >>= f) (y >>= g) := by
  rcases hx with rfl | ⟨e, rfl, he⟩
  · cases x with
    | error e => exact Or.inl rfl
    | ok a => exact hf a
  · exact Or.inr ⟨e, rfl, he⟩

end Outcome

/-! ### Literals -/

namespace Placeholder

open Outcome (EqUnless)

/-- Whether a placeholder has no argument. -/
def Fault.IsEmptyArgument : Fault → Prop
  | emptyArgument _ _ => True
  | _ => False

/-- **A literal is cut in the same way in both modes** up to a placeholder without an argument. -/
theorem segments_eqUnless (strict : Bool) (offset : Nat) (literal : Text) :
    EqUnless Fault.IsEmptyArgument (segments strict offset literal)
      (segments false offset literal) := by
  have hcons : ∀ (s : Segment) {x y : Except Fault (List Segment)},
      EqUnless Fault.IsEmptyArgument x y →
      EqUnless Fault.IsEmptyArgument (x >>= fun segs => pure (s :: segs))
        (y >>= fun segs => pure (s :: segs)) :=
    fun s _ _ h => h.bind fun _ => .refl _ _
  fun_induction segments strict offset literal with
  | case1 =>
    rw [segments]
    exact .refl _ _
  | case2 offset rest ih =>
    rw [segments]
    exact hcons _ ih
  | case3 offset rest ho h =>
    rw [segments]
    · split
      · exact .refl _ _
      · next h' => cases h.symm.trans h'
    · exact ho
  | case4 offset rest ho inner after h _ next ha ih =>
    rw [segments_open ho h, if_pos ha]
    exact hcons _ ih
  | case5 => exact Or.inr ⟨_, rfl, trivial⟩
  | case6 offset rest ho inner after h _ next ha format hp hstrict ih =>
    rw [segments_open ho h, if_neg ha, hp]
    exact hcons _ ih
  | case7 offset rest ho inner after h _ next ha argument format hargument hp ih =>
    rw [segments_open ho h, if_neg ha, hp]
    cases argument with
    | nil => exact absurd rfl hargument
    | cons c argument => exact hcons _ ih
  | case8 offset c rest ho hc ih =>
    rw [segments]
    · exact hcons _ ih
    · exact ho
    · exact hc

/-- **A literal is made into a message in the same way in both modes**, unless it has a placeholder
without an argument. -/
theorem compile_eqUnless (strict : Bool) (literal : Text) :
    EqUnless Fault.IsEmptyArgument (compile strict literal) (compile false literal) :=
  (segments_eqUnless strict 0 literal).bind fun _ => .refl _ _

end Placeholder

namespace Descriptor

variable [Expression.Capacity]

/-- A literal is compiled in the same way in both modes, unless it has a placeholder without an
argument. -/
theorem compileLiteral_eqUnless (strict : Bool) (literal : Syntax.Token) :
    Outcome.EqUnless (fun e => ∃ span, e = violation .emptyPlaceholder span)
      (compileLiteral strict literal) (compileLiteral false literal) := by
  unfold compileLiteral
  dsimp only
  split
  · exact .refl _ _
  · next decoded _ =>
    rcases Placeholder.compile_eqUnless strict decoded.text with heq | ⟨fault, hfault, hempty⟩
    · rw [heq]
      exact .refl _ _
    · rw [hfault]
      cases fault with
      | emptyArgument offset length => exact Or.inr ⟨_, rfl, _, rfl⟩
      | unterminated offset length => cases hempty
      | malformed length cause => cases hempty

/-! ### Steps in both modes -/

variable {α β : Type}

/-- A step reports a problem if it finds it or meets it. -/
def Reports (problem : Problem) (x : Describing α) : Prop :=
  ∃ f : Finding, f.problem = problem ∧ (f ∈ findings x ∨ outcome x = .error (.violation f))

/-- Two steps are the same, unless the first reports a problem. -/
structure EqUnless (problem : Problem) (x y : Describing α) : Prop where
  /-- The first is steady. -/
  steady : IsSteady x
  /-- They are the same, or the first reports the problem. -/
  eq_or_reports : x = y ∨ Reports problem x

variable {problem : Problem}

/-- A step is the same as itself. -/
theorem EqUnless.refl {x : Describing α} (hx : IsSteady x) : EqUnless problem x x :=
  ⟨hx, Or.inl rfl⟩

/-- Two steps report what the first reports. -/
theorem Reports.bind {x : Describing α} {f : α → Describing β} (h : Reports problem x)
    (hx : IsSteady x) (hf : ∀ a, IsSteady (f a)) : Reports problem (x >>= f) := by
  obtain ⟨g, hg, hfound | hmet⟩ := h
  · exact ⟨g, hg, Or.inl (findings_subset_bind hx hf hfound)⟩
  · exact ⟨g, hg, Or.inr (outcome_bind_of_error hx hmet)⟩

/-- Two steps report what the second reports on what the first makes. -/
theorem Reports.bind_of_ok {x : Describing α} {f : α → Describing β} {a : α}
    (h : Reports problem (f a)) (hx : IsSteady x) (ha : outcome x = .ok a)
    (hf : ∀ a, IsSteady (f a)) : Reports problem (x >>= f) := by
  obtain ⟨g, hg, hfound | hmet⟩ := h
  · refine ⟨g, hg, Or.inl ?_⟩
    rw [findings_bind_of_ok hx ha (hf a)]
    exact List.mem_append_right _ hfound
  · refine ⟨g, hg, Or.inr ?_⟩
    rw [outcome_bind hx fun a _ => hf a, ha]
    exact hmet

/-- Two steps that are the same, one after the other. -/
theorem EqUnless.bind {x y : Describing α} {f g : α → Describing β} (hx : EqUnless problem x y)
    (hf : ∀ a, EqUnless problem (f a) (g a)) : EqUnless problem (x >>= f) (y >>= g) := by
  have hsteady : ∀ a, IsSteady (f a) := fun a => (hf a).steady
  refine ⟨hx.steady.bind fun a _ => hsteady a, ?_⟩
  rcases hx.eq_or_reports with rfl | hreports
  · cases hmade : outcome x with
    | error e => exact Or.inl (bind_eq_bind_of_error hx.steady hmade)
    | ok a =>
      rcases (hf a).eq_or_reports with heq | hreports
      · refine Or.inl (bind_congr_of_ok hx.steady fun a' ha' => ?_)
        cases hmade.symm.trans ha'
        exact heq
      · exact Or.inr (hreports.bind_of_ok hx.steady hmade hsteady)
  · exact Or.inr (hreports.bind hx.steady hsteady)

/-! ### Declarations in both modes -/

variable (strict : Bool)

/-- The message of an attribute in both modes. -/
theorem eqUnless_message (a : Syntax.Attribute) :
    EqUnless .emptyPlaceholder (message strict a) (message false a) := by
  refine ⟨isSteady_message strict a, ?_⟩
  unfold message
  split
  · exact Or.inl rfl
  · next token _ =>
    rcases compileLiteral_eqUnless strict token with heq | ⟨e, he, span, rfl⟩
    · exact Or.inl (by rw [heq])
    · rw [he]
      exact Or.inr ⟨⟨.emptyPlaceholder, span⟩, rfl, Or.inr rfl⟩

/-- The messages of a variant in both modes. -/
theorem eqUnless_messages (as : List Syntax.Attribute) :
    EqUnless .emptyPlaceholder (messages strict as) (messages false as) := by
  induction as with
  | nil => exact .refl (isSteady_pure _)
  | cons a rest ih =>
    unfold messages
    split
    · exact (eqUnless_message strict a).bind fun _ => ih.bind fun _ => .refl (isSteady_pure _)
    · split
      · exact (eqUnless_message strict a).bind fun _ => ih.bind fun _ => .refl (isSteady_pure _)
      · exact (EqUnless.refl (yields_noteUnknown a).steady).bind fun _ => ih

/-- A variant in both modes. -/
theorem eqUnless_variant (enumeration : String) (v : Syntax.Variant) :
    EqUnless .emptyPlaceholder (variant strict enumeration v) (variant false enumeration v) := by
  obtain ⟨rest, heq, hrest⟩ := variant_eq enumeration v
  rw [heq, heq]
  exact (EqUnless.refl (yields_checkName _ _ _).steady).bind fun _ =>
    (eqUnless_messages strict _).bind fun ms => .refl (hrest ms).steady

/-- Variants in both modes. -/
theorem eqUnless_variants (enumeration : String) (earlier : List Variant)
    (vs : List Syntax.Variant) :
    EqUnless .emptyPlaceholder (variants strict enumeration earlier vs)
      (variants false enumeration earlier vs) := by
  induction vs generalizing earlier with
  | nil => exact .refl (isSteady_pure _)
  | cons v rest ih =>
    refine (eqUnless_variant strict enumeration v).bind fun w => ?_
    split
    · exact .refl (isSteady_refuse _ _)
    · exact ih _

/-- The variants of a body in both modes. -/
theorem eqUnless_declared (d : Syntax.Declaration) :
    EqUnless .emptyPlaceholder (declared strict d) (declared false d) := by
  unfold declared
  split
  · exact .refl (isSteady_refuse _ _)
  · exact .refl (isSteady_pure _)
  · exact eqUnless_variants strict _ _ _

/-- **A declaration in both modes.** -/
theorem eqUnless_enumeration (d : Syntax.Declaration) :
    EqUnless .emptyPlaceholder (enumeration strict d) (enumeration false d) := by
  by_cases h : d.kind.terminal = .enumWord ∧ d.innerAttributes = []
  · rw [enumeration_eq h.1 h.2, enumeration_eq h.1 h.2]
    exact (EqUnless.refl (yields_checkName _ _ _).steady).bind fun _ =>
      (EqUnless.refl (yields_topLevel _ _).steady).bind fun _ =>
        (eqUnless_declared strict d).bind fun _ => .refl (isSteady_pure _)
  · obtain ⟨problem, span, -, hrefuse⟩ := enumeration_eq_refuse h
    rw [hrefuse, hrefuse]
    exact .refl (isSteady_refuse _ _)

/-! ### Files in both modes -/

/-- What describing a declaration reports is found when it is added to a file. -/
theorem Reports.addItem {strict : Bool} {declaration : Syntax.Declaration}
    (h : Reports problem (enumeration strict declaration)) (d : Descriptor) :
    Reports problem (addItem strict d (.declaration declaration)) := by
  obtain ⟨f, hf, hfound | hmet⟩ := h
  · refine ⟨f, hf, Or.inl ?_⟩
    rw [findings_addItem_declaration]
    exact List.mem_append_left _ hfound
  · refine ⟨f, hf, Or.inl ?_⟩
    rw [(addItem_of_violation hmet d).2]
    exact List.mem_append_right _ List.mem_cons_self

/-- Adding an item in both modes. -/
theorem eqUnless_addItem (d : Descriptor) (item : Syntax.Item) :
    EqUnless .emptyPlaceholder (addItem strict d item) (addItem false d item) := by
  refine ⟨isSteady_addItem strict d item, ?_⟩
  cases item with
  | importModule path newName span => exact Or.inl rfl
  | importNames dots path names span => exact Or.inl rfl
  | declaration declaration =>
    rcases (eqUnless_enumeration strict declaration).eq_or_reports with heq | hreports
    · refine Or.inl ?_
      show tryCatch (enumeration strict declaration >>= addEnumeration d) (noted d) = _
      rw [heq]
      rfl
    · exact Or.inr (hreports.addItem d)

/-- Adding items in both modes. -/
theorem eqUnless_addItems (items : List Syntax.Item) (d : Descriptor) :
    EqUnless .emptyPlaceholder (items.foldlM (addItem strict) d)
      (items.foldlM (addItem false) d) := by
  induction items generalizing d with
  | nil =>
    rw [List.foldlM_nil, List.foldlM_nil]
    exact EqUnless.refl (isSteady_pure d)
  | cons item rest ih =>
    rw [List.foldlM_cons, List.foldlM_cons]
    exact EqUnless.bind (eqUnless_addItem strict d item) ih

/-- **Items are described in the same way in both modes**, unless a placeholder without an argument
is reported. -/
theorem eqUnless_describing (items : List Syntax.Item) :
    EqUnless .emptyPlaceholder (describing strict items) (describing false items) := by
  have hnotes (d : Descriptor) : IsSteady (d.collisions.forM fun f => note f.problem f.span) :=
    (yields_forM (fun f => yields_note _ _) _).steady
  rw [describing, describing]
  exact (eqUnless_addItems strict items ⟨[], []⟩).bind fun d =>
    .refl ((hnotes d).bind fun _ _ => isSteady_pure d)

end Descriptor

section

variable [Expression.Capacity]

/-- What describing items reports is among the findings. -/
theorem Descriptor.Reports.exists_mem_findings {strict : Bool} {items : List Syntax.Item}
    {problem : Problem} {description : Description} (h : Reports problem (describing strict items))
    (hdescribe : describe strict items = .ok description) :
    ∃ f ∈ description.findings, f.problem = problem := by
  obtain ⟨f, hf, hreported⟩ := h
  refine ⟨f, ?_, hf⟩
  have hsteady := (eqUnless_describing strict items).steady
  rw [describe, hsteady.run_eq, List.nil_append] at hdescribe
  cases hmade : outcome (describing strict items) with
  | ok d =>
    rw [hmade] at hdescribe
    cases hdescribe
    rcases hreported with hfound | hmet
    · exact hfound
    · cases hmade.symm.trans hmet
  | error e =>
    rw [hmade] at hdescribe
    cases e with
    | unreadable u => cases hdescribe
    | violation g =>
      cases hdescribe
      rcases hreported with hfound | hmet
      · exact List.mem_append_left _ hfound
      · cases hmade.symm.trans hmet
        exact List.mem_append_right _ List.mem_cons_self

/-! ### Compilations in both modes -/

/-- The mode only matters where items are described: if that comes to the same, so does compiling
them. -/
theorem compile_congr {strict strict' : Bool} {source : String} (runtimeModule filename : String)
    (h : ∀ tree items, Syntax.parse source.toList = .ok tree →
      Syntax.fileItems source.toList tree = .ok items →
      describe strict items = describe strict' items) :
    compile ⟨strict, runtimeModule⟩ source filename =
      compile ⟨strict', runtimeModule⟩ source filename := by
  have hgenerate : ∀ c : Compilation, c.generate ⟨strict, runtimeModule⟩ filename =
      c.generate ⟨strict', runtimeModule⟩ filename := by
    intro c
    unfold Compilation.generate
    rfl
  cases hparse : Syntax.parse source.toList with
  | error failure =>
    cases failure with
    | stuck => exact absurd hparse (Syntax.parse_ne_stuck _)
    | syntaxError e =>
      simp [compile, Compilation.ofSource, hparse, Compilation.build, Compilation.generate, bind,
        Except.bind, pure, Except.pure]
  | ok tree =>
    obtain ⟨items, hitems⟩ := Syntax.exists_fileItems_of_parse hparse
    have hsame := h tree items hparse hitems
    cases hdescribe : describe strict items with
    | error u =>
      have hgiven : ∀ mode, describe mode items = .error u →
          compile ⟨mode, runtimeModule⟩ source filename = .error (.unreadable u) := by
        intro mode hmode
        exact @compile_of_unreadable _ ⟨mode, runtimeModule⟩ source filename tree items u hparse
          hitems hmode
      rw [hgiven strict hdescribe, hgiven strict' (hsame.symm.trans hdescribe)]
    | ok description =>
      have hdescribed : ∀ mode, describe mode items = .ok description →
          description.IsOf ⟨mode, runtimeModule⟩ source tree := by
        intro mode hmode
        exact ⟨hparse, items, hitems, hmode⟩
      have hstrict := compile_of_isOf filename (hdescribed strict hdescribe)
      have hstrict' := compile_of_isOf filename (hdescribed strict' (hsame.symm.trans hdescribe))
      exact hstrict.trans ((hgenerate _).trans hstrict'.symm)

/-- If describing the items of a text reports a placeholder without an argument, so does the report
of its compilation. -/
theorem exists_diagnostic_of_reports {options : CompileOptions} {source filename : String}
    {c : Compilation} (hcompile : compile options source filename = .ok c) {tree : Syntax.Tree}
    {items : List Syntax.Item} (hparse : Syntax.parse source.toList = .ok tree)
    (hitems : Syntax.fileItems source.toList tree = .ok items)
    (h : Descriptor.Reports .emptyPlaceholder
      (Descriptor.describing options.strictPlaceholders items)) :
    ∃ d ∈ c.report.diagnostics, d.label = "CE2002" ∧ d.severity = .error := by
  have hmem : ∀ {description : Description}, description.IsOf options source tree →
      ∃ d ∈ description.findings.map (Finding.diagnostic filename),
        d.label = "CE2002" ∧ d.severity = .error := by
    rintro description ⟨-, items', hitems', hdescribe⟩
    cases hitems.symm.trans hitems'
    obtain ⟨f, hf, hproblem⟩ := h.exists_mem_findings hdescribe
    refine ⟨f.diagnostic filename, List.mem_map_of_mem hf, ?_⟩
    rw [Finding.diagnostic, hproblem]
    exact ⟨rfl, rfl⟩
  cases Compilation.ending_of_compile hcompile with
  | unparsed hunparsed =>
    obtain ⟨e, -, -, hfailed, -⟩ := hunparsed
    cases hparse.symm.trans hfailed
  | withheld hdescribed herror =>
    cases hparse.symm.trans hdescribed.1
    exact hmem hdescribed
  | generated hdescribed hwarnings hcode =>
    cases hparse.symm.trans hdescribed.1
    exact hmem hdescribed

/-- **If no placeholder without an argument is reported, a file is compiled in the same way in both
modes**, and given up in the same way if it is. -/
theorem compile_eq_of_not_reports {strict : Bool} {source : String}
    (runtimeModule filename : String)
    (h : ∀ tree items, Syntax.parse source.toList = .ok tree →
      Syntax.fileItems source.toList tree = .ok items →
      ¬Descriptor.Reports .emptyPlaceholder (Descriptor.describing strict items)) :
    compile ⟨strict, runtimeModule⟩ source filename =
      compile ⟨false, runtimeModule⟩ source filename := by
  refine compile_congr runtimeModule filename fun tree items hparse hitems => ?_
  rcases (Descriptor.eqUnless_describing strict items).eq_or_reports with heq | hreports
  · rw [describe, describe, heq]
  · exact absurd hreports (h tree items hparse hitems)

/-- **The mode only matters for placeholders without an argument.** If a text is compiled in strict
mode and none is reported, then compiling it in lenient mode comes to the same: the diagnostics, the
descriptor, the stages and the module. So it does whenever strict mode has a module. -/
theorem compile_lenient_of_strict {source filename runtimeModule : String} {c : Compilation}
    (h : compile { strictPlaceholders := true, runtimeModule } source filename = .ok c) :
    ((∀ d ∈ c.report.diagnostics, d.label ≠ "CE2002") →
      compile { strictPlaceholders := false, runtimeModule } source filename = .ok c) ∧
    (c.code.isSome = true →
      compile { strictPlaceholders := false, runtimeModule } source filename = .ok c) := by
  have hsame : (¬∃ d ∈ c.report.diagnostics, d.label = "CE2002" ∧ d.severity = .error) →
      compile { strictPlaceholders := false, runtimeModule } source filename = .ok c := by
    intro hnone
    rw [← h]
    refine (compile_eq_of_not_reports runtimeModule filename ?_).symm
    intro tree items hparse hitems hreports
    exact hnone (exists_diagnostic_of_reports h hparse hitems hreports)
  constructor
  · intro hlabels
    apply hsame
    rintro ⟨d, hd, hlabel, -⟩
    exact hlabels d hd hlabel
  · intro hcode
    apply hsame
    rintro ⟨d, hd, -, hsevere⟩
    have herrors : c.report.hasErrors = true :=
      List.any_eq_true.mpr ⟨d, hd, decide_eq_true hsevere⟩
    rw [(Compilation.ending_of_compile h).hasErrors_iff.mp herrors] at hcode
    cases hcode

end

/-- What else is wrong with a file is reported in lenient mode too, and braces that are doubled stay
text. -/
theorem compile_lenient_of_strict_braces :
    (∃ c, compile { strictPlaceholders := true } "enum E \x7b #[error = \"\x7bx\"] V \x7d"
          "<input>" = .ok c ∧
        c.report.diagnostics.map Diagnostic.label = ["CE2001"] ∧
        compile { strictPlaceholders := false } "enum E \x7b #[error = \"\x7bx\"] V \x7d"
          "<input>" = .ok c) ∧
      ∃ c, compile { strictPlaceholders := true }
          "enum E \x7b #[error = \"\x7b\x7b\x7d\x7d\"] V \x7d" "<input>" = .ok c ∧
        c.code.isSome = true ∧
        compile { strictPlaceholders := false }
          "enum E \x7b #[error = \"\x7b\x7b\x7d\x7d\"] V \x7d" "<input>" = .ok c := by
  have hopen : ((compile { strictPlaceholders := true } "enum E \x7b #[error = \"\x7bx\"] V \x7d"
      "<input>").toOption.any fun c =>
        c.report.diagnostics.map Diagnostic.label = ["CE2001"]) = true := by
    decide +kernel
  have hdoubled : ((compile { strictPlaceholders := true }
      "enum E \x7b #[error = \"\x7b\x7b\x7d\x7d\"] V \x7d" "<input>").toOption.any fun c =>
        c.code.isSome) = true := by
    decide +kernel
  obtain ⟨c, hc, hlabels⟩ := (Option.any_eq_true _ _).mp hopen
  obtain ⟨c', hc', hcode⟩ := (Option.any_eq_true _ _).mp hdoubled
  rw [Outcome.toOption_eq_some_iff] at hc hc'
  have hlabels := of_decide_eq_true hlabels
  refine ⟨⟨c, hc, hlabels, (compile_lenient_of_strict hc).1 ?_⟩, c', hc', hcode,
    (compile_lenient_of_strict hc').2 hcode⟩
  intro d hd
  have hlabel : d.label ∈ c.report.diagnostics.map Diagnostic.label := List.mem_map_of_mem hd
  rw [hlabels, List.mem_singleton] at hlabel
  rw [hlabel]
  decide

end Errata
