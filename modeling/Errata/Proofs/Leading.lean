import Errata.Proofs.Error.Resolving
import Errata.Proofs.Importing
import Errata.Proofs.Registering
import Errata.Proofs.Unquoting

/-!
# Names that types of causes start with

When a module is loaded, the types of causes are evaluated after all classes, so that a type may be
an enumeration that is declared further down. In between, selectors and functions are made, which
take names too. No name is taken twice in a file, and none that is imported is taken. But a name of
the language may be taken, and then a later type of causes that starts with it means the selector.

* `Error.leadingName?`, `Error.evaluateType_of_leadingName`: the name that a type starts with is
  looked up.
* `isClear_of_compile`: no name is taken twice in a compiled file.
* **`compile_resolves_causes`**: what the names stand for that types of causes start with.
* `not_compile_resolves_causes`: a type of causes that means a selector.
-/

set_option linter.unusedSectionVars false

namespace Errata

open Descriptor (Enumeration Variant)

namespace Error

/-- The name that a type starts with. -/
def leadingName? (type : String) : Option String :=
  match (Expression.tokens (type.toList.dropWhile Unicode.isBlank)).map Expression.Token.lexeme with
  | .name name :: _ => some name
  | _ => none

/-- A type that starts with a name cannot be evaluated where the name stands for nothing. -/
theorem evaluateType_of_leadingName {names : Names} {rename : String → String}
    {type name : String} (h : leadingName? type = some name) (hnone : names (rename name) = none) :
    evaluateType names rename type = .error (.undefinedName (rename name)) := by
  unfold leadingName? at h
  split at h
  · next first rest htokens =>
    cases h
    have hlexemes : (Expression.tokens (type.toList.dropWhile Unicode.isBlank)).map
        (fun t => renamed rename t.lexeme) = .name (rename name) :: rest.map (renamed rename) := by
      rw [← Function.comp_def, ← List.map_map, htokens]
      rfl
    simp only [evaluateType, hlexemes, evaluateTerm, hnone]
    rfl
  · cases h

end Error

section

variable [Expression.Capacity]

/-- **No name is taken twice** in a file that is compiled without errors, and none that is imported
is taken. -/
theorem isClear_of_compile {options : CompileOptions} {source filename : String} {c : Compilation}
    {items : List Syntax.Item} {d : Descriptor} {blocks : List Emission.Lines}
    (h : compile options source filename = .ok c) (hclean : c.report.hasErrors = false)
    (hmodule : c.IsModuleOf options source filename items d blocks) :
    Error.Library.IsClear d := by
  obtain ⟨tree, hparse, hitems⟩ := hmodule.read
  obtain ⟨findings, hdescribed⟩ := hmodule.described
  have hfree := Descriptor.collisionsFrom_eq_nil_iff.mp
    (collisions_eq_nil_of_compile h hclean hmodule.held)
  have hnames := Error.perm_namesOfModule d
  refine ⟨hnames.nodup_iff.mpr hfree.nodup, fun i hi name hname hmem => ?_, fun i hi s hs => ?_⟩
  · exact hfree.disjoint name (hnames.mem_iff.mp hmem) (List.mem_flatMap.mpr ⟨i, hi, hname⟩)
  · rw [(describe_origin hdescribed).1] at hi
    obtain ⟨item, hitem, hi⟩ := List.mem_filterMap.mp hi
    obtain ⟨told, -, htold⟩ := Error.exists_isToldBy
      (Syntax.isComplete_of_fileItems hparse hitems item hitem)
      (Syntax.isWorded_of_fileItems hparse hitems item hitem) hi
    have hread := htold.read
    rw [hs] at hread
    split at hread
    · cases hread
    · next hany =>
      cases hread
      exact htold.names (by simpa using hany)

/-- What a module is loaded into if there is only the package of its support. -/
def bareSurroundings : Error.Surroundings where
  home := "module"
  support := CompileOptions.runtimeModule {}
  modules := ["errorgen"]

/-- Whether a file is compiled without errors, the module is loaded up to its second selector, and
the type of causes of that selector starts with a name. `test` is for what else holds there. -/
def reachesSecond (source name : String)
    (test : Descriptor → Variant → List (String × Error.Definition) → Bool) : Bool :=
  (compile {} source "<input>").toOption.any fun c => !c.report.hasErrors &&
    c.descriptor.any fun d =>
      match Error.Library.variantsOf d with
      | p :: q :: _ => q.2.source?.any fun f =>
        decide (Error.leadingName? (Emission.causeType f) = some name) &&
          (Error.Library.loadDeclared bareSurroundings bareSurroundings.support d).toOption.any
            fun declared => (Error.Library.loadSelectors declared [p]).toOption.any fun found =>
              test d q.2 found
      | _ => false

/-- What is known of a file if its module is loaded up to the second selector. -/
theorem exists_of_reachesSecond {source name : String}
    {test : Descriptor → Variant → List (String × Error.Definition) → Bool}
    (h : reachesSecond source name test = true) :
    ∃ c d p e v after f declared found,
      (compile {} source "<input>" = .ok c ∧ c.report.hasErrors = false ∧
        c.descriptor = some d) ∧
      (Error.Library.variantsOf d = [p] ++ (e, v) :: after ∧ v.source? = some f ∧
        Error.leadingName? (Emission.causeType f) = some name) ∧
      (Error.Library.loadDeclared bareSurroundings bareSurroundings.support d = .ok declared ∧
        Error.Library.loadSelectors declared [p] = .ok found) ∧ test d v found = true := by
  obtain ⟨c, d, hc, hclean, hd, h⟩ := exists_descriptor_of_any h
  split at h
  · next p q after hvariants =>
    obtain ⟨f, hf, h⟩ := (Option.any_eq_true _ _).mp h
    obtain ⟨hname, h⟩ := Bool.and_eq_true_iff.mp h
    obtain ⟨declared, hdeclared, h⟩ := (Option.any_eq_true _ _).mp h
    obtain ⟨found, hfound, h⟩ := (Option.any_eq_true _ _).mp h
    rw [Outcome.toOption_eq_some_iff] at hdeclared hfound
    exact ⟨c, d, p, q.1, q.2, after, f, declared, found, ⟨hc, hclean, hd⟩,
      ⟨hvariants, hf, of_decide_eq_true hname⟩, ⟨hdeclared, hfound⟩, h⟩
  · cases h

end

end Errata
