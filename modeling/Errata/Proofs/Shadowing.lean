import Errata.Proofs.Emission.Defined
import Errata.Proofs.Safety

/-!
# Names of the support of a module

The header of a generated module imports its support under names that start with `_eg_`, and no
declaration may use such a name. But a module takes more names than those that are declared: those
of imports are never checked, the class of a variant is called by two names, and the function that
makes an error has the snake case of one.

* `Support`: the modules that a generated module gets its support from.
* `disguises`: the names that may be declared and have the name of a support for their snake case.
* `Support.name_taken_iff`: when an enumeration takes the name of a support.
* `Compilation.IsModuleOf`, `exists_isModuleOf`: **what a compilation without errors comes to**.
* **`compile_takes_support_iff`**: when a module takes the name of its own support.
* `not_compile_keeps_support`: a module that does.
-/

set_option linter.unusedSectionVars false

namespace Errata

open Emission (IsPlainName IsPlainlyNamed definedNames)

/-! ### Support -/

/-- The modules that a generated module gets its support from. -/
inductive Support where
  /-- The classes of errors and what goes with them. -/
  | runtime
  /-- Data classes, for the selectors. -/
  | dataclasses
deriving DecidableEq, Repr

namespace Support

/-- What the name of a support consists of behind the prefix of generated code. -/
def word : Support → String
  | runtime => "rt"
  | dataclasses => "dataclasses"

/-- The name that the header of a module imports a support under. -/
def name (s : Support) : String :=
  generatedPrefix ++ s.word

/-- The names that may be declared and have the name of a support for their snake case. Capitals
keep them apart from it. -/
def disguises (s : Support) : List String :=
  let small := s.word
  let capitalized := s.word.capitalize
  let capitals := s.word.toUpper
  ["_eg" ++ capitalized, "_eg" ++ capitals, "_Eg" ++ capitalized, "_Eg" ++ capitals,
    "_EG" ++ capitalized, "_Eg_" ++ small, "_Eg_" ++ capitalized, "_Eg_" ++ capitals,
    "_EG_" ++ small, "_EG_" ++ capitalized, "_EG_" ++ capitals]

/-- A name that may be declared has that of a support for its snake case exactly if it is one of its
disguises. -/
theorem snakeCase_eq_name_iff (s : Support) {n : String} (hplain : IsPlainName n)
    (hfree : n.startsWith generatedPrefix = false) :
    snakeCase n = s.name ↔ n ∈ s.disguises := by
  have hspelled : (∀ t ∈ spellings s.name.toList,
      generatedPrefix.toList <+: t ∨ t ∈ s.disguises.map String.toList) ∧
      ∀ t ∈ s.disguises.map String.toList, t ∈ spellings s.name.toList := by
    cases s <;> decide +kernel
  have hfree : ¬generatedPrefix.toList <+: n.toList := by
    rw [← String.startsWith_string_iff, hfree]
    exact Bool.false_ne_true
  have hmem : n.toList ∈ s.disguises.map String.toList ↔ n ∈ s.disguises :=
    List.mem_map_of_injective fun _ _ => String.toList_injective
  rw [snakeCase_eq_iff hplain (by cases s <;> decide) (by cases s <;> decide),
    ← hmem]
  exact ⟨fun h => (hspelled.1 _ h).resolve_left hfree, hspelled.2 _⟩

/-- Two names are joined to that of a support in one way only. -/
theorem append_eq_name_iff (s : Support) {first second : String} (hfirst : first ≠ "") :
    first ++ "_" ++ second = s.name ↔ first = "_eg" ∧ second = s.word := by
  obtain ⟨c, rest, hchars⟩ := List.exists_cons_of_ne_nil (mt String.toList_eq_nil_iff.mp hfirst)
  have hcut : "eg".toList ++ '_' :: s.word.toList = rest ++ '_' :: second.toList ↔
      "eg".toList = rest ∧ '_' = '_' ∧ s.word.toList = second.toList :=
    List.append_cons_inj_of_notMem (by decide) (by cases s <;> decide)
  have hname : s.name.toList = '_' :: ("eg".toList ++ '_' :: s.word.toList) :=
    String.toList_append
  have hjoined : (first ++ "_" ++ second).toList = c :: (rest ++ '_' :: second.toList) := by
    simp [hchars]
  have hsplit : first = "_eg" ↔ '_' = c ∧ "eg".toList = rest := by
    rw [← String.toList_inj, hchars, eq_comm]
    exact List.cons_eq_cons
  rw [eq_comm, ← String.toList_inj, hname, hjoined, List.cons_eq_cons, hcut, hsplit,
    String.toList_inj, eq_comm (a := second)]
  simp [and_assoc]

/-- A name that may be declared is not that of a support. -/
theorem name_ne_of_isDeclarable (s : Support) {reserved : List String} {n : String}
    (h : Descriptor.IsDeclarable reserved n) : s.name ≠ n := by
  have hprefix : s.name.startsWith generatedPrefix = true := by cases s <;> decide +kernel
  rintro rfl
  exact Bool.false_ne_true (h.notGenerated.symm.trans hprefix)

/-- Which variants take the name of a support: not for a selector, but maybe for a class, or for a
function that makes an error. -/
theorem name_mem_generatedNames_iff (s : Support) {v : Descriptor.Variant}
    (hplain : IsPlainName v.name) (hwell : v.IsWellFormed) (hne : v.enumeration ≠ "") :
    s.name ∈ v.generatedNames ↔
      (v.enumeration = "_eg" ∧ v.name = s.word) ∨ (v.source? = none ∧ v.name ∈ s.disguises) := by
  have hclass : s.name = v.className ↔ v.enumeration = "_eg" ∧ v.name = s.word := by
    rw [Descriptor.Variant.className, eq_comm]
    exact s.append_eq_name_iff hne
  have hconstructor : v.constructor? = some s.name ↔ v.source? = none ∧ v.name ∈ s.disguises := by
    rw [← s.snakeCase_eq_name_iff hplain hwell.name.notGenerated, Descriptor.Variant.constructor?]
    cases v.source? <;> simp
  simp only [Descriptor.Variant.generatedNames, List.mem_append, List.mem_cons, List.not_mem_nil,
    or_false, Option.mem_toList, s.name_ne_of_isDeclarable hwell.name, false_or, hclass,
    hconstructor]

/-- Which enumerations take the name of a support: one called `_eg` with a variant for the rest of
it, and one with a variant in disguise that wraps no error. -/
theorem name_taken_iff (s : Support) {e : Descriptor.Enumeration} (hplain : IsPlainlyNamed e)
    (hwell : e.IsWellFormed) (hne : e.name ≠ "") :
    (s.name = e.name ∨ ∃ v ∈ e.variants, s.name ∈ v.generatedNames) ↔
      (e.name = "_eg" ∧ ∃ v ∈ e.variants, v.name = s.word) ∨
        ∃ v ∈ e.variants, v.source? = none ∧ v.name ∈ s.disguises := by
  have hvariant : ∀ v ∈ e.variants, s.name ∈ v.generatedNames ↔
      (e.name = "_eg" ∧ v.name = s.word) ∨ (v.source? = none ∧ v.name ∈ s.disguises) := by
    intro v hv
    rw [← hwell.owner v hv]
    exact s.name_mem_generatedNames_iff (hplain.variants v hv) (hwell.variants v hv)
      (by rwa [hwell.owner v hv])
  rw [or_iff_right (s.name_ne_of_isDeclarable hwell.name)]
  constructor
  · rintro ⟨v, hv, hmem⟩
    rcases (hvariant v hv).mp hmem with ⟨he, hname⟩ | h
    · exact Or.inl ⟨he, v, hv, hname⟩
    · exact Or.inr ⟨v, hv, h⟩
  · rintro (⟨he, v, hv, hname⟩ | ⟨v, hv, h⟩)
    · exact ⟨v, hv, (hvariant v hv).mpr (Or.inl ⟨he, hname⟩)⟩
    · exact ⟨v, hv, (hvariant v hv).mpr (Or.inr h)⟩

end Support

/-! ### Modules -/

/-- The names that an item imports: the first component of a module, or imported names, or the names
that are given to them instead. -/
def Syntax.Item.importedNames : Item → List String
  | importModule path none _ => path.head?.toList
  | importModule _ (some newName) _ => [newName]
  | importNames _ _ names _ => names.map fun (name, newName) => newName.getD name
  | declaration _ => []

/-- The names that a module takes behind the import of its support: those that its items import, and
those that its blocks define. -/
def takenNames (items : List Syntax.Item) (blocks : List Emission.Lines) : List String :=
  items.flatMap Syntax.Item.importedNames ++ blocks.flatMap definedNames

section

variable [Expression.Capacity]

/-- Whether a compilation has come to a module: of which items, with which descriptor and with which
blocks. -/
structure Compilation.IsModuleOf (options : CompileOptions) (source filename : String)
    (c : Compilation) (items : List Syntax.Item) (d : Descriptor) (blocks : List Emission.Lines) :
    Prop where
  /-- The items are those of the source. -/
  read : ∃ tree, Syntax.parse source.toList = .ok tree ∧
    Syntax.fileItems source.toList tree = .ok items
  /-- The descriptor is what they describe. -/
  described : ∃ findings, describe options.strictPlaceholders items = .ok ⟨d, findings⟩
  /-- The compilation holds the descriptor. -/
  held : c.descriptor = some d
  /-- The blocks are those that the descriptor is written in. -/
  written : Emission.blocks [] d = .ok blocks
  /-- The module consists of the header, where the imports are, and the blocks. -/
  code : c.code = some ("\n".intercalate
    (Emission.titleLine (Path.ofString filename).name ::
      Emission.spaced (Emission.header options.runtimeModule d :: blocks)) ++ "\n")

/-- The module that a compilation has come to is what is generated of its descriptor. -/
theorem generate_of_isModuleOf {options : CompileOptions} {source filename : String}
    {c : Compilation} {items : List Syntax.Item} {d : Descriptor} {blocks : List Emission.Lines}
    (h : c.IsModuleOf options source filename items d blocks) {code : String}
    (hcode : c.code = some code) :
    Emission.generate ⟨options.runtimeModule, (Path.ofString filename).name, []⟩ d = .ok code := by
  rw [← Option.some.inj (h.code.symm.trans hcode)]
  simp only [Emission.generate, h.written, bind, Except.bind, pure, Except.pure]

/-- A syntax error is an error. -/
theorem Diagnostic.IsCatalogued.severity_eq {d : Diagnostic} (h : d.IsCatalogued)
    (hlabel : d.label = Code.syntaxError.entry.label) : d.severity = .error := by
  obtain ⟨code, -, hcode, hseverity, -⟩ := h
  rw [hseverity]
  rw [hlabel] at hcode
  cases code <;> first | rfl | exact absurd hcode (by decide)

/-- What generating a module makes of a descriptor if there are no errors. -/
theorem Compilation.code_of_generate {options : CompileOptions} {filename : String}
    {c c' : Compilation} {d : Descriptor} (h : c.generate options filename = .ok c')
    (hd : c.descriptor = some d) (hclean : c.report.hasErrors = false) :
    ∃ blocks, Emission.blocks [] d = .ok blocks ∧
      c'.code = some ("\n".intercalate
        (Emission.titleLine (Path.ofString filename).name ::
          Emission.spaced (Emission.header options.runtimeModule d :: blocks)) ++ "\n") := by
  unfold generate at h
  rw [hd] at h
  dsimp only at h
  rw [hclean, if_neg Bool.false_ne_true] at h
  obtain ⟨code, hcode, h⟩ := Outcome.bind_eq_ok_iff.mp h
  cases h
  cases hblocks : Emission.blocks [] d with
  | error defect => simp [Emission.generate, hblocks, bind, Except.bind] at hcode
  | ok blocks =>
    refine ⟨blocks, rfl, congrArg some ?_⟩
    simpa [Emission.generate, hblocks, bind, Except.bind, pure, Except.pure] using hcode.symm

/-- **A compilation without errors comes to a module.** -/
theorem exists_isModuleOf {options : CompileOptions} {source filename : String} {c : Compilation}
    (h : compile options source filename = .ok c) (hclean : c.report.hasErrors = false) :
    ∃ items d blocks, c.IsModuleOf options source filename items d blocks := by
  obtain ⟨parsed, hparsed, hdescriptor, htree | hnone⟩ := Compilation.ofSource_cases source filename
  · obtain ⟨tree, htree, hparse, -⟩ := htree
    rcases Compilation.build_cases options hparse htree with
      ⟨u, hbuild⟩ | ⟨items, ⟨d, findings⟩, hitems, hdescribe, hbuild⟩
    · simp [compile, hparsed, hbuild, bind, Except.bind] at h
    · simp only [compile, hparsed, hbuild, bind, Except.bind] at h
      obtain ⟨hreport, hheld⟩ := Compilation.eq_of_generate h
      rw [hreport] at hclean
      obtain ⟨blocks, hblocks, hcode⟩ := Compilation.code_of_generate h rfl hclean
      exact ⟨items, d, blocks, ⟨tree, hparse, hitems⟩, ⟨findings, hdescribe⟩, hheld, hblocks, hcode⟩
  · obtain ⟨htree, d, hreport, hlabel, hcatalogued⟩ := hnone
    rw [compile_of_tree_eq_none options hparsed htree hdescriptor] at h
    cases h
    simp [Report.hasErrors, hreport, hcatalogued.severity_eq hlabel] at hclean

/-- A file whose descriptor passes a test is compiled without errors. -/
theorem exists_descriptor_of_any {options : CompileOptions} {source filename : String}
    {test : Descriptor → Bool}
    (h : ((compile options source filename).toOption.any fun c =>
      !c.report.hasErrors && c.descriptor.any test) = true) :
    ∃ c d, compile options source filename = .ok c ∧ c.report.hasErrors = false ∧
      c.descriptor = some d ∧ test d = true := by
  obtain ⟨c, hc, h⟩ := (Option.any_eq_true _ _).mp h
  obtain ⟨hclean, h⟩ := Bool.and_eq_true_iff.mp h
  obtain ⟨d, hd, htest⟩ := (Option.any_eq_true _ _).mp h
  exact ⟨c, d, Outcome.toOption_eq_some_iff.mp hc, by simpa using hclean, hd, htest⟩

/-- The names of the enumerations and variants of a parsed file are spelled like names. -/
theorem isName_of_describe {source : List Char} {tree : Syntax.Tree}
    {items : List Syntax.Item} {strict : Bool} {description : Description}
    (hparse : Syntax.parse source = .ok tree) (hitems : Syntax.fileItems source tree = .ok items)
    (h : describe strict items = .ok description) :
    ∀ e ∈ description.descriptor.enumerations, Syntax.IsName e.name.toList ∧
      ∀ v ∈ e.variants, Syntax.IsName v.name.toList := by
  intro e he
  obtain ⟨declaration, hm, hmade⟩ := (describe_origin h).2 e he
  obtain ⟨hname, hvariants⟩ := Descriptor.names_of_enumeration hmade
  have hspelled : declaration.IsSpelled := Syntax.isSpelled_of_fileItems hparse hitems _ hm
  refine ⟨?_, fun v hv => ?_⟩
  · rw [hname, String.toList_ofList]
    exact hspelled.name
  · obtain ⟨vs, hbody, w, hw, hvname⟩ := hvariants v hv
    rw [hvname, String.toList_ofList]
    exact hspelled.variants vs hbody w hw

/-- The enumerations of a parsed file are plainly named. -/
theorem isPlainlyNamed_of_describe {source : List Char} {tree : Syntax.Tree}
    {items : List Syntax.Item} {strict : Bool} {description : Description}
    (hparse : Syntax.parse source = .ok tree) (hitems : Syntax.fileItems source tree = .ok items)
    (h : describe strict items = .ok description) :
    ∀ e ∈ description.descriptor.enumerations, IsPlainlyNamed e ∧ e.name ≠ "" := by
  intro e he
  obtain ⟨hname, hvariants⟩ := isName_of_describe hparse hitems h e he
  refine ⟨⟨hname.isNameChar, fun v hv => (hvariants v hv).isNameChar,
    ((describe_isWellFormed h).enumerations e he).owner⟩, ?_⟩
  obtain ⟨first, rest, hsplit, -⟩ := hname
  simp [← String.toList_eq_nil_iff, hsplit]

/-- **When a module takes the name of its own support**: if an import does so, if a variant `rt` or
`dataclasses` of an enumeration `_eg` has a class called by both names, or if the snake case of a
variant that wraps no error is that name. Nothing else does. -/
theorem compile_takes_support_iff {options : CompileOptions} {source filename : String}
    {c : Compilation} (h : compile options source filename = .ok c)
    (hclean : c.report.hasErrors = false) :
    ∃ items d blocks, c.IsModuleOf options source filename items d blocks ∧
      ∀ s : Support, s.name ∈ takenNames items blocks ↔
        (∃ item ∈ items, s.name ∈ item.importedNames) ∨
          (∃ e ∈ d.enumerations, e.name = "_eg" ∧ ∃ v ∈ e.variants, v.name = s.word) ∨
            ∃ e ∈ d.enumerations, ∃ v ∈ e.variants, v.source? = none ∧ v.name ∈ s.disguises := by
  obtain ⟨items, d, blocks, hmodule⟩ := exists_isModuleOf h hclean
  refine ⟨items, d, blocks, hmodule, fun s => ?_⟩
  obtain ⟨tree, hparse, hitems⟩ := hmodule.read
  obtain ⟨findings, hdescribed⟩ := hmodule.described
  have hwell := describe_isWellFormed hdescribed
  have hplain := isPlainlyNamed_of_describe hparse hitems hdescribed
  have htaken : ∀ e ∈ d.enumerations, _ := fun e he =>
    s.name_taken_iff (hplain e he).1 (hwell.enumerations e he) (hplain e he).2
  rw [takenNames, List.mem_append, List.mem_flatMap,
    Emission.mem_definedNames_blocks_iff (fun e he => (hplain e he).1) hmodule.written]
  refine or_congr_right ⟨?_, ?_⟩
  · rintro ⟨e, he, hname⟩
    exact ((htaken e he).mp hname).imp (fun hclass => ⟨e, he, hclass⟩) fun hmade => ⟨e, he, hmade⟩
  · rintro (⟨e, he, hclass⟩ | ⟨e, he, hmade⟩)
    · exact ⟨e, he, (htaken e he).mpr (Or.inl hclass)⟩
    · exact ⟨e, he, (htaken e he).mpr (Or.inr hmade)⟩

end

/-- A class that takes the name of the support: nothing was declared by that name. -/
theorem compile_takes_support_class :
    ∃ c items d blocks,
      compile {} "enum _eg \x7b #[error = \"x\"] rt \x7b #[source] source: T \x7d \x7d" "<input>" =
          .ok c ∧
        c.report.hasErrors = false ∧
        c.IsModuleOf {} "enum _eg \x7b #[error = \"x\"] rt \x7b #[source] source: T \x7d \x7d"
          "<input>" items d blocks ∧
        "_eg_rt" ∈ takenNames items blocks := by
  have hrun : ((compile {}
      "enum _eg \x7b #[error = \"x\"] rt \x7b #[source] source: T \x7d \x7d"
        "<input>").toOption.any fun c =>
      !c.report.hasErrors && c.descriptor.any fun d => d.enumerations.any fun e =>
        e.name = "_eg" ∧ ∃ v ∈ e.variants, v.name = Support.runtime.word) = true := by
    decide +kernel
  obtain ⟨c, hc, hrun⟩ := (Option.any_eq_true _ _).mp hrun
  rw [Outcome.toOption_eq_some_iff] at hc
  obtain ⟨hclean, hdescribed⟩ := Bool.and_eq_true_iff.mp hrun
  have hclean : c.report.hasErrors = false := by simpa using hclean
  obtain ⟨items, d, blocks, hmodule, htakes⟩ := compile_takes_support_iff hc hclean
  rw [hmodule.held, Option.any_some] at hdescribed
  obtain ⟨e, he, hclass⟩ := List.any_eq_true.mp hdescribed
  exact ⟨c, items, d, blocks, hc, hclean, hmodule,
    (htakes .runtime).mpr (Or.inr (Or.inl ⟨e, he, of_decide_eq_true hclass⟩))⟩

/-- A function that takes the name of the support: the snake case of `_EgRt` is that name, and
nothing about the variant is an error. -/
theorem not_compile_keeps_support :
    ¬∀ options source filename c items d blocks, compile options source filename = .ok c →
      c.report.hasErrors = false → c.IsModuleOf options source filename items d blocks →
        "_eg_rt" ∉ takenNames items blocks := by
  have hrun : ((compile {} "enum E \x7b\n    #[error = \"x\"]\n    _EgRt,\n\x7d\n"
        "<input>").toOption.any fun c =>
      !c.report.hasErrors && c.descriptor.any fun d => (Emission.blocks [] d).toOption.any
        fun blocks => (blocks.flatMap definedNames).contains "_eg_rt") = true := by
    decide +kernel
  obtain ⟨c, hc, hrun⟩ := (Option.any_eq_true _ _).mp hrun
  rw [Outcome.toOption_eq_some_iff] at hc
  obtain ⟨hclean, hdefined⟩ := Bool.and_eq_true_iff.mp hrun
  have hclean : c.report.hasErrors = false := by simpa using hclean
  obtain ⟨items, d, blocks, hmodule⟩ := exists_isModuleOf hc hclean
  rw [hmodule.held, Option.any_some, hmodule.written] at hdefined
  intro hkeeps
  exact hkeeps _ _ _ c items d blocks hc hclean hmodule
    (List.mem_append_right _ (List.contains_iff_mem.mp hdefined))

end Errata
