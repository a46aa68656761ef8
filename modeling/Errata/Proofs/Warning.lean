import Errata.Proofs.Descriptor.Outsiders
import Errata.Proofs.Ending
import Errata.Proofs.Shadowing

/-!
# Warnings about names in messages

A message that shows a bare name which is no field shows a name of the module, and the name is
warned about. Whether it is a bare name is decided on the text between the braces, and the module
gets that text without the white space around it. So a name with white space around it is shown in
the same way, but nothing is said about it.

* **`compile_warns_of_outsiders`**: which names are warned about, and in which order.
* `not_compile_warns_of_every_name`: a name that is not.
-/

namespace Errata

/-- The label of a finding tells whether it is about a name in a message. -/
theorem Finding.label_eq_iff (filename : String) (f : Finding) :
    (f.diagnostic filename).label = "CW1001" ↔ f.problem.code = .notAField := by
  have hlabels : ∀ code : Code, code.entry.label = "CW1001" ↔ code = .notAField := by
    intro code
    cases code <;> decide
  exact hlabels f.problem.code

/-- The diagnostics about names in messages are those of the warnings about them. -/
theorem filter_label_eq (filename : String) (found : List Finding) :
    ((found.map (Finding.diagnostic filename)).filter fun g => g.label = "CW1001") =
      (Descriptor.aboutNames found).map (Finding.diagnostic filename) := by
  rw [List.filter_map, Descriptor.aboutNames]
  congr 1
  exact List.filter_congr fun f _ => decide_eq_decide.mpr (f.label_eq_iff filename)

/-- **Which names in messages are warned about.** If a file is compiled without errors, the
diagnostics `CW1001` are those about its outsiders, one for each of them: about every argument that
shows a name of the module and is written without white space around it. They come in the order of
the declarations, those of messages before those of help texts. The expression of an argument is
its text without such white space. So in a file without warnings, an argument that shows a name of
the module is written with white space around it. -/
theorem compile_warns_of_outsiders [Expression.Capacity]
    {options : CompileOptions} {source filename : String}
    {c : Compilation} (h : compile options source filename = .ok c)
    (hclean : c.report.hasErrors = false) :
    ∃ items d blocks, c.IsModuleOf options source filename items d blocks ∧
      (c.report.diagnostics.filter fun g => g.label = "CW1001") =
        d.outsiders.map (Finding.diagnostic filename) ∧
      ∀ e ∈ d.enumerations, ∀ v ∈ e.variants, ∀ a ∈ v.arguments,
        a.expression.toList = stripBy Unicode.isBlank a.text.toList ∧
        (c.report.hasWarnings = false → a.ReadsModule v → a.text ≠ a.expression) := by
  obtain ⟨items, d, blocks, hmodule⟩ := exists_isModuleOf h hclean
  have hending := Compilation.ending_of_compile h
  have hmade : c.code ≠ none := by
    rw [← hending.hasErrors_iff.ne, hclean]
    exact Bool.false_ne_true
  cases hending with
  | unparsed hunparsed => exact absurd rfl hmade
  | withheld hdescribed herror => exact absurd rfl hmade
  | @generated tree description code hdescribed hwarnings hcode =>
    obtain ⟨-, items', -, hdescribe⟩ := hdescribed
    obtain rfl : description.descriptor = d := Option.some.inj hmodule.held
    obtain ⟨hsame, hread⟩ := outsiders_of_describe hdescribe hwarnings
    have htold := filter_label_eq filename description.findings
    rw [hsame] at htold
    refine ⟨items, description.descriptor, blocks, hmodule, htold, fun e he v hv a ha =>
      ⟨(hread e he v hv a ha).trimmed, fun hquiet hreads htext => ?_⟩⟩
    have houtsider : v.warning a ∈ description.descriptor.outsiders :=
      List.mem_flatMap.mpr ⟨e, he, List.mem_flatMap.mpr ⟨v, hv, List.mem_map_of_mem
        (List.mem_filter.mpr ⟨ha, decide_eq_true ⟨hreads, htext⟩⟩)⟩⟩
    have hreported : (v.warning a).diagnostic filename ∈
        description.descriptor.outsiders.map (Finding.diagnostic filename) :=
      List.mem_map_of_mem houtsider
    rw [← htold, List.mem_filter] at hreported
    exact absurd (List.any_eq_true.mpr ⟨_, hreported.1, rfl⟩) (ne_true_of_eq_false hquiet)

/-- A name in a message and one in a help text are warned about, in this order; the field before
them is not. -/
theorem compile_warns_of_outsiders_twice :
    ∃ c, compile {} ("enum E \x7b #[help = \"\x7bhint\x7d\"] " ++
        "#[error = \"\x7bx\x7d of \x7blimit\x7d\"] V \x7b x: int \x7d \x7d") "<input>" = .ok c ∧
      (c.report.diagnostics.filter fun g => g.label = "CW1001") =
        [Finding.diagnostic "<input>" ⟨.notAField "limit" "V", some ⟨1, 48, 1, 53⟩⟩,
          Finding.diagnostic "<input>" ⟨.notAField "hint" "V", some ⟨1, 21, 1, 25⟩⟩] := by
  have hrun : ((compile {} ("enum E \x7b #[help = \"\x7bhint\x7d\"] " ++
      "#[error = \"\x7bx\x7d of \x7blimit\x7d\"] V \x7b x: int \x7d \x7d")
      "<input>").toOption.any fun c => !c.report.hasErrors && c.descriptor.any fun d =>
        decide (d.outsiders = [⟨.notAField "limit" "V", some ⟨1, 48, 1, 53⟩⟩,
          ⟨.notAField "hint" "V", some ⟨1, 21, 1, 25⟩⟩])) = true := by
    decide +kernel
  obtain ⟨c, d, hc, hclean, hd, houtsiders⟩ := exists_descriptor_of_any hrun
  obtain ⟨items, d', blocks, hmodule, hwarned, -⟩ := compile_warns_of_outsiders hc hclean
  obtain rfl : d = d' := Option.some.inj (hd.symm.trans hmodule.held)
  rw [of_decide_eq_true houtsiders] at hwarned
  exact ⟨c, hc, hwarned⟩

/-- **Not every name is warned about**: the module shows `nope`, and nothing is said about it, since
it is written with white space around it. -/
theorem not_compile_warns_of_every_name :
    ¬∀ options source filename c items d blocks, compile options source filename = .ok c →
      c.report.hasErrors = false → c.IsModuleOf options source filename items d blocks →
        ∀ e ∈ d.enumerations, ∀ v ∈ e.variants, ∀ a ∈ v.arguments, a.ReadsModule v →
          ∃ g ∈ c.report.diagnostics, g.label = "CW1001" ∧ g.span = a.span := by
  have hrun : ((compile {} "enum E \x7b #[error = \"\x7b nope \x7d\"] V, \x7d"
      "<input>").toOption.any fun c => decide (c.report.diagnostics = []) &&
        c.descriptor.any fun d => d.enumerations.any fun e => e.variants.any fun v =>
          v.arguments.any fun a => a.ReadsModule v) = true := by
    decide +kernel
  obtain ⟨c, hc, hrun⟩ := (Option.any_eq_true _ _).mp hrun
  rw [Outcome.toOption_eq_some_iff] at hc
  obtain ⟨hquiet, hdescribed⟩ := Bool.and_eq_true_iff.mp hrun
  have hquiet := of_decide_eq_true hquiet
  have hclean : c.report.hasErrors = false := by simp [Report.hasErrors, hquiet]
  obtain ⟨items, d, blocks, hmodule⟩ := exists_isModuleOf hc hclean
  rw [hmodule.held, Option.any_some] at hdescribed
  obtain ⟨e, he, hdescribed⟩ := List.any_eq_true.mp hdescribed
  obtain ⟨v, hv, hdescribed⟩ := List.any_eq_true.mp hdescribed
  obtain ⟨a, ha, hreads⟩ := List.any_eq_true.mp hdescribed
  intro hall
  obtain ⟨g, hg, -⟩ := hall _ _ _ c items d blocks hc hclean hmodule e he v hv a ha
    (of_decide_eq_true hreads)
  rw [hquiet] at hg
  exact absurd hg List.not_mem_nil

end Errata
