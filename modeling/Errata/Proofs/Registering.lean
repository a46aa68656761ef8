import Errata.Proofs.Descriptor.Names
import Errata.Proofs.Ending
import Errata.Proofs.Error.Registration
import Errata.Proofs.Shadowing
import Mathlib.Data.List.Permutation

/-!
# Registered variants of compiled files

After the statements of a generated module have run, the class of each enumeration knows its
variants, by a table and as attributes. Names of variants are checked against what the class
inherits, except for the mark of top-level enumerations: the variant `top_level` takes its place.

* `Statement.mapM_lines`: the statements of a module are what its blocks say.
* `Scene.ShowsVariants`: what the class of an enumeration tells of its variants.
* **`compile_registers_variants`**: so does that of every enumeration of a compiled file.
* `not_compile_keeps_flag`: a variant that takes the place of the mark.
-/

namespace Errata

open Descriptor (Enumeration Variant)

namespace Error

/-! ### Statements -/

namespace Statement

/-- Lines that are gathered from the statements for the entries of a list. -/
theorem mapM_lines_flatMap {α : Type} {g : α → List Statement}
    {f : α → Except Emission.Defect (List Emission.Lines)}
    (h : ∀ a bs, f a = .ok bs → ∃ ls, (g a).mapM lines = .ok ls ∧ ls.flatten = bs.flatten)
    {as : List α} {bss : List (List Emission.Lines)} (hbss : as.mapM f = .ok bss) :
    ∃ ls, (as.flatMap g).mapM lines = .ok ls ∧ ls.flatten = bss.flatten.flatten := by
  rw [Outcome.mapM_eq_ok_iff] at hbss
  induction hbss with
  | nil => exact ⟨[], rfl, rfl⟩
  | cons hfirst _ ih =>
    obtain ⟨ls, hls, heq⟩ := h _ _ hfirst
    obtain ⟨rest, hrest, heq'⟩ := ih
    refine ⟨ls ++ rest, ?_, ?_⟩
    · rw [List.flatMap_cons, List.mapM_append, hls, hrest]
      rfl
    · rw [List.flatten_append, heq, heq', List.flatten_cons, List.flatten_append]

/-- The lines of the statements that register the variants of an enumeration. -/
theorem mapM_lines_registering (e : Enumeration) :
    ∃ ls, (registering e).mapM lines = .ok ls ∧ ls.flatten = Emission.registration e := by
  have hvariants : ∀ vs : List Variant, ∃ ls,
      (vs.flatMap fun v => [qualify e v, attach e v]).mapM lines = .ok ls ∧
        ls.flatten = vs.flatMap fun v =>
          [v.className ++ ".__qualname__ = \"" ++ e.name ++ "." ++ v.name ++ "\"",
            e.name ++ "." ++ v.name ++ " = " ++ v.className] := by
    intro vs
    induction vs with
    | nil => exact ⟨[], rfl, rfl⟩
    | cons v vs ih =>
      obtain ⟨ls, hls, heq⟩ := ih
      refine ⟨[_] :: [_] :: ls, ?_, by rw [List.flatten_cons, List.flatten_cons, heq]; rfl⟩
      rw [List.flatMap_cons, List.mapM_append, hls]
      rfl
  obtain ⟨ls, hls, heq⟩ := hvariants e.variants
  refine ⟨ls ++ [[_]], ?_, by rw [List.flatten_append, heq]; rfl⟩
  rw [registering, List.mapM_append, hls]
  rfl

/-- The lines of the statements for the classes of an enumeration. -/
theorem mapM_lines_classes {e : Enumeration} {bs : List Emission.Lines}
    (h : Emission.classBlocks e = .ok bs) :
    ∃ ls, (classes e).mapM lines = .ok ls ∧ ls.flatten = bs.flatten := by
  obtain ⟨made, hmade, h⟩ := Outcome.bind_eq_ok_iff.mp h
  cases h
  obtain ⟨ls, hls, heq⟩ := mapM_lines_registering e
  have hvariants : (e.variants.map variant).mapM lines = .ok made := by
    rw [List.mapM_map]
    exact hmade
  refine ⟨Emission.enumerationClass e :: made ++ ls, ?_, ?_⟩
  · rw [classes, List.mapM_append, hls, List.mapM_cons, hvariants]
    rfl
  · rw [List.flatten_append, List.flatten_append, heq]
    simp

/-- The lines of the statements for the use of a variant. -/
theorem mapM_lines_binding {v : Variant} {bs : List Emission.Lines}
    (h : Emission.bindingBlocks [] v = .ok bs) :
    ∃ ls, (binding v).mapM lines = .ok ls ∧ ls.flatten = bs.flatten := by
  obtain ⟨made, hmade, h⟩ := Outcome.bind_eq_ok_iff.mp h
  cases h
  have hselector : lines (.selector v) = .ok made := hmade
  refine ⟨_, ?_, rfl⟩
  rw [binding, List.mapM_cons, hselector]
  cases v.constructor? <;> rfl

/-- **The statements of a module** are what its blocks say, line by line. -/
theorem mapM_lines {d : Descriptor} {bs : List Emission.Lines}
    (h : Emission.blocks [] d = .ok bs) :
    ∃ ls, (ofDescriptor d).mapM lines = .ok ls ∧ ls.flatten = bs.flatten := by
  obtain ⟨made, hmade, h⟩ := Outcome.bind_eq_ok_iff.mp h
  obtain ⟨bound, hbound, h⟩ := Outcome.bind_eq_ok_iff.mp h
  cases h
  obtain ⟨ls, hls, heq⟩ := mapM_lines_flatMap (fun _ _ => mapM_lines_classes) hmade
  obtain ⟨rest, hrest, heq'⟩ := mapM_lines_flatMap (fun _ _ => mapM_lines_binding) hbound
  refine ⟨ls ++ rest, ?_, by rw [List.flatten_append, heq, heq', List.flatten_append]⟩
  rw [ofDescriptor, List.mapM_append, hls, hrest]
  rfl

end Statement

/-! ### Attributes -/

/-- The table of the variants of a registered enumeration. -/
theorem attributeIn_registeredAttributes_variants (e : Enumeration) (first : Nat) :
    attributeIn (registeredAttributes e first) "variants" =
      some (.table ((e.variants.zipIdx first).map fun p => (p.1.name, p.2))) := by
  rw [attributeIn, registeredAttributes, lookup_setEntry_self, Option.some_or]

/-- The class of a variant of a registered enumeration. -/
theorem attributeIn_registeredAttributes_variant {e : Enumeration} {first : Nat}
    (hnodup : (e.variants.map Variant.name).Nodup) {v : Variant} {q : Nat}
    (h : (v, q) ∈ e.variants.zipIdx first) (hne : v.name ≠ "variants") :
    attributeIn (registeredAttributes e first) v.name = some (.variant q) := by
  have hnames : ((e.variants.zipIdx first).map fun p => p.1.name).Nodup := by
    have hmap : (e.variants.zipIdx first).map (fun p => p.1.name) =
        ((e.variants.zipIdx first).map Prod.fst).map Variant.name := by rw [List.map_map]; rfl
    rw [hmap, List.zipIdx_map_fst]
    exact hnodup
  rw [attributeIn, registeredAttributes, lookup_setEntry_of_ne _ _ hne, lookup_attached hnames h,
    Option.some_or]

/-- Other attributes of a registered enumeration are those that its class was made with. -/
theorem attributeIn_registeredAttributes_of_ne {e : Enumeration} (first : Nat) {name : String}
    (hne : name ≠ "variants") (h : ∀ v ∈ e.variants, v.name ≠ name) :
    attributeIn (registeredAttributes e first) name = attributeIn (ownAttributes e) name := by
  have hother : ∀ p ∈ e.variants.zipIdx first, p.1.name ≠ name := fun p hp =>
    h p.1 (List.fst_mem_of_mem_zipIdx hp)
  rw [attributeIn, registeredAttributes, lookup_setEntry_of_ne _ _ hne,
    lookup_attached_of_ne hother, attributeIn]

/-- The class of an enumeration is made with no class of a variant as an attribute. -/
theorem attributeIn_ownAttributes_ne (e : Enumeration) (name : String) (q : Nat) :
    attributeIn (ownAttributes e) name ≠ some (.variant q) := by
  have hown : ∀ p ∈ ownAttributes e, p.2 ≠ .variant q := by
    unfold ownAttributes
    split <;> simp
  have hbase : baseAttribute name ≠ some (.variant q) := by
    unfold baseAttribute
    split_ifs <;> simp
  rw [attributeIn]
  cases hlookup : (ownAttributes e).lookup name with
  | none => simpa using hbase
  | some found =>
    rw [Option.some_or]
    rintro ⟨rfl⟩
    obtain ⟨front, back, hsplit, -⟩ := List.lookup_eq_some_iff.mp hlookup
    exact hown (name, .variant q) (by simp [hsplit]) rfl

/-- The mark that the class of an enumeration is made with. -/
theorem attributeIn_ownAttributes_flag (e : Enumeration) :
    attributeIn (ownAttributes e) "top_level" = some (.flag e.isTopLevel) := by
  unfold ownAttributes
  cases e.isTopLevel <;> decide

/-! ### Names -/

/-- The names that an enumeration takes: its own, and those of its variants. -/
theorem map_fst_generatedNames (e : Enumeration) :
    e.generatedNames.map Prod.fst = e.name :: e.variants.flatMap Variant.generatedNames := by
  simp [Enumeration.generatedNames, List.map_flatMap, Function.comp_def]

/-- The names that a module takes are those that its enumerations take. -/
theorem perm_namesOfModule (d : Descriptor) :
    (Scene.namesOfModule d).Perm ((Descriptor.namesOf d.enumerations).map Prod.fst) := by
  have hvariant : ∀ v : Variant,
      ([v.className] ++ Scene.namesOfBinding v).Perm v.generatedNames := by
    intro v
    exact List.Perm.swap _ _ _
  have henumeration : ∀ e : Enumeration,
      (Scene.namesOfClasses e ++ e.variants.flatMap Scene.namesOfBinding).Perm
        (e.generatedNames.map Prod.fst) := by
    intro e
    rw [map_fst_generatedNames, Scene.namesOfClasses, List.cons_append, List.map_eq_flatMap]
    refine List.Perm.cons _ ((List.flatMap_append_perm _ _ _).trans ?_)
    exact List.Perm.flatMap_left _ fun v _ => hvariant v
  rw [Scene.namesOfModule, List.flatMap_assoc, Descriptor.namesOf, List.map_flatMap]
  refine (List.flatMap_append_perm _ _ _).trans ?_
  exact List.Perm.flatMap_left _ fun e _ => henumeration e

end Error

/-- A file that is compiled without errors has no collisions of names. -/
theorem collisions_eq_nil_of_compile [Expression.Capacity]
    {options : CompileOptions} {source filename : String}
    {c : Compilation} {d : Descriptor} (h : compile options source filename = .ok c)
    (hclean : c.report.hasErrors = false) (hd : c.descriptor = some d) : d.collisions = [] := by
  have hending := Compilation.ending_of_compile h
  have hmade : c.code ≠ none := by
    rw [← hending.hasErrors_iff.ne, hclean]
    exact Bool.false_ne_true
  cases hending with
  | unparsed hunparsed => exact absurd rfl hmade
  | withheld hdescribed herror => exact absurd rfl hmade
  | @generated tree description code hdescribed hwarnings hcode =>
    cases hd
    obtain ⟨-, items, -, hdescribe⟩ := hdescribed
    have hfindings := (describe_eq_ok_iff.mp hdescribe).2
    exact Descriptor.collisions_eq_nil_of_warnings fun f hf =>
      hwarnings f (hfindings ▸ List.mem_append_right _ hf)

namespace Error

/-- The names of an enumeration can be told apart if those of its module can. -/
theorem isDistinct_of_nodup {d : Descriptor} (hnames : (Scene.namesOfModule d).Nodup)
    {e : Enumeration} (he : e ∈ d.enumerations) (hwell : e.IsWellFormed) : IsDistinct e where
  owner := hwell.owner
  classes := by
    obtain ⟨hclasses, -⟩ := List.nodup_append.mp hnames
    exact (List.nodup_flatMap.mp hclasses).1 e he
  variants := hwell.variantNames

/-- The names of a variant can be told apart if those of its module can. -/
theorem nodup_generatedNames {d : Descriptor} (hnames : (Scene.namesOfModule d).Nodup)
    {e : Enumeration} (he : e ∈ d.enumerations) {v : Variant} (hv : v ∈ e.variants) :
    v.generatedNames.Nodup := by
  rw [(perm_namesOfModule d).nodup_iff, Descriptor.namesOf, List.map_flatMap] at hnames
  have howner := (List.nodup_flatMap.mp hnames).1 e he
  rw [map_fst_generatedNames, List.nodup_cons] at howner
  exact (List.nodup_flatMap.mp howner.2).1 v hv

/-- A variant whose name may be declared takes the place of an inherited attribute only if it is
called `top_level`, and wraps an error. -/
theorem eq_top_level_of_isSome_baseAttribute {v : Variant} (hwell : v.IsWellFormed)
    (hnames : v.generatedNames.Nodup) (h : (baseAttribute v.name).isSome = true) :
    v.name = "top_level" ∧ v.source?.isSome = true := by
  have hlisted : v.name = "top_level" ∨ v.name ∈ inheritedMembers ∨
      (isReserved v.name || v.name.startsWith generatedPrefix) = true := by
    have hall : ∀ name ∈ "top_level" :: "variants" :: (baseMethods ++ languageAttributes),
        name = "top_level" ∨ name ∈ inheritedMembers ∨
          (isReserved name || name.startsWith generatedPrefix) = true := by decide +kernel
    apply hall
    revert h
    unfold baseAttribute
    split_ifs with hflag htable hlisted
    · simp [hflag]
    · simp [htable]
    · intro _
      simpa using Or.inr (Or.inr hlisted)
    · simp
  have hfree : (isReserved v.name || v.name.startsWith generatedPrefix) = false := by
    have hbetween := hwell.name.notBetween
    rw [← Bool.and_eq_true, Bool.not_eq_true] at hbetween
    simp [isReserved, hwell.name.notKeyword, hwell.name.notThrowaway, hbetween,
      hwell.name.notGenerated]
  rw [hfree, or_iff_left Bool.false_ne_true, or_iff_left hwell.name.notReserved] at hlisted
  refine ⟨hlisted, ?_⟩
  by_contra hsource
  have hconstructor : v.constructor? = some "top_level" := by
    rw [Variant.constructor?, if_neg hsource, hlisted]
    decide
  simp [Variant.generatedNames, hconstructor, hlisted] at hnames

/-- What the class of an enumeration tells of its variants in a scene, with a number for the class,
and numbers for those of the variants from `first` on. -/
structure Scene.ShowsVariants (s : Scene) (e : Enumeration) (number first : Nat) : Prop where
  /-- The name of the enumeration stands for the class. -/
  named : s.names.lookup e.name = some (.enumeration number)
  /-- The table holds the names of the variants, in order, and their classes. -/
  table : s.attributeOf number "variants" =
    some (.table ((e.variants.zipIdx first).map fun p => (p.1.name, p.2)))
  /-- Each variant is an attribute, which is the class of its errors. -/
  variants : ∀ p ∈ e.variants.zipIdx first,
    s.attributeOf number p.1.name = some (.variant p.2) ∧
      s.names.lookup p.1.className = some (.variant p.2) ∧
      s.variants[p.2]? = some ⟨p.1.className, e.name ++ "." ++ p.1.name, number⟩
  /-- Every other attribute is what it was when the class was made, unless a variant takes its
  place. -/
  kept_iff : ∀ name, name ≠ "variants" →
    (s.attributeOf number name = attributeIn (ownAttributes e) name ↔
      ∀ v ∈ e.variants, v.name ≠ name)
  /-- So the class tells whether the enumeration is top-level, unless a variant is called
  `top_level`. -/
  flag_iff : s.attributeOf number "top_level" = some (.flag e.isTopLevel) ↔
    ∀ v ∈ e.variants, v.name ≠ "top_level"
  /-- A variant that takes the place of an inherited attribute is called `top_level`, and wraps an
  error. -/
  taken : ∀ v ∈ e.variants, (baseAttribute v.name).isSome = true →
    v.name = "top_level" ∧ v.source?.isSome = true

/-- A registered enumeration tells of its variants. -/
theorem Scene.IsRegistered.showsVariants {s : Scene} {e : Enumeration} {number first : Nat}
    (h : s.IsRegistered e number first) (hwell : e.IsWellFormed)
    (hnames : ∀ v ∈ e.variants, v.generatedNames.Nodup) : s.ShowsVariants e number first := by
  have hread : ∀ name, s.attributeOf number name =
      attributeIn (registeredAttributes e first) name := by
    intro name
    rw [attributeOf, h.attributes, Option.bind_some]
  have hother : ∀ v ∈ e.variants, v.name ≠ "variants" := by
    intro v hv heq
    exact (hwell.variants v hv).name.notReserved (heq ▸ by decide)
  have hvariant : ∀ p ∈ e.variants.zipIdx first,
      s.attributeOf number p.1.name = some (.variant p.2) := by
    intro p hp
    rw [hread]
    exact attributeIn_registeredAttributes_variant hwell.variantNames hp
      (hother p.1 (List.fst_mem_of_mem_zipIdx hp))
  have htaken : ∀ v ∈ e.variants, (baseAttribute v.name).isSome = true →
      v.name = "top_level" ∧ v.source?.isSome = true := fun v hv =>
    eq_top_level_of_isSome_baseAttribute (hwell.variants v hv) (hnames v hv)
  have hkept : ∀ name, name ≠ "variants" →
      (s.attributeOf number name = attributeIn (ownAttributes e) name ↔
        ∀ v ∈ e.variants, v.name ≠ name) := by
    intro name hname
    constructor
    · rintro hsame v hv rfl
      rw [← List.zipIdx_map_fst first e.variants] at hv
      obtain ⟨p, hp, rfl⟩ := List.mem_map.mp hv
      exact attributeIn_ownAttributes_ne e _ _ (hsame.symm.trans (hvariant p hp))
    · intro hnone
      rw [hread, attributeIn_registeredAttributes_of_ne first hname hnone]
  refine ⟨h.named, ?_, fun p hp => ⟨hvariant p hp, h.classes p hp⟩, hkept, ?_, htaken⟩
  · rw [hread]
    exact attributeIn_registeredAttributes_variants e first
  · rw [← attributeIn_ownAttributes_flag e]
    exact hkept "top_level" (by decide)

end Error

/-- **The classes of a compiled file know its variants** when the statements of its module have run.
The statements are what the blocks of the module say, and can be run if the types of causes can be
evaluated and the module keeps the names of its support. The table of each enumeration holds its
variants in order, and each of them is an attribute. Every enumeration tells whether it is marked as
top-level, unless a variant that wraps an error is called `top_level`, which is the only way to take
the place of an inherited attribute. -/
theorem compile_registers_variants [Expression.Capacity]
    {options : CompileOptions} {source filename : String}
    {c : Compilation} (h : compile options source filename = .ok c)
    (hclean : c.report.hasErrors = false) :
    ∃ items d blocks, c.IsModuleOf options source filename items d blocks ∧
      (∃ ls, (Error.Statement.ofDescriptor d).mapM Error.Statement.lines = .ok ls ∧
        ls.flatten = blocks.flatten) ∧
      (∀ evaluate, (∀ names v, evaluate names v = .ok ()) →
        (∀ s : Support, s.name ∉ takenNames items blocks) →
          ∃ s, Error.Scene.run evaluate (items.flatMap Syntax.Item.importedNames) d = .ok s) ∧
      ∀ e ∈ d.enumerations,
        (∃ declaration, .declaration declaration ∈ items ∧
          Descriptor.outcome (Descriptor.enumeration options.strictPlaceholders declaration) =
            .ok e ∧
          e.isTopLevel = declaration.attributes.any fun a => a.name = "top_level") ∧
        ∀ evaluate s,
          Error.Scene.run evaluate (items.flatMap Syntax.Item.importedNames) d = .ok s →
            ∃ number first, s.ShowsVariants e number first := by
  obtain ⟨items, d, blocks, hmodule⟩ := exists_isModuleOf h hclean
  obtain ⟨tree, hparse, hitems⟩ := hmodule.read
  obtain ⟨findings, hdescribed⟩ := hmodule.described
  have hwell := describe_isWellFormed hdescribed
  have hfree := Descriptor.collisionsFrom_eq_nil_iff.mp
    (collisions_eq_nil_of_compile h hclean hmodule.held)
  have hnames := (Error.perm_namesOfModule d).nodup_iff.mpr hfree.nodup
  have hdistinct : ∀ e ∈ d.enumerations, Error.IsDistinct e := fun e he =>
    Error.isDistinct_of_nodup hnames he (hwell.enumerations e he)
  refine ⟨items, d, blocks, hmodule, Error.Statement.mapM_lines hmodule.written, ?_,
    fun e he => ⟨?_, fun evaluate s hs => ?_⟩⟩
  · intro evaluate hevaluate hkeeps
    have htaken : takenNames items blocks =
        items.flatMap Syntax.Item.importedNames ++ Error.Scene.namesOfModule d :=
      congrArg _ (Emission.definedNames_blocks
        (fun e he => (isPlainlyNamed_of_describe hparse hitems hdescribed e he).1) hmodule.written)
    refine Error.Scene.exists_run hevaluate hdistinct ?_
    rw [← htaken]
    exact List.forall_mem_cons.mpr ⟨hkeeps .runtime,
      List.forall_mem_singleton.mpr (hkeeps .dataclasses)⟩
  · obtain ⟨declaration, hm, hmade⟩ := (describe_origin hdescribed).2 e he
    refine ⟨declaration, hm, hmade, ?_⟩
    obtain ⟨-, isTopLevel, vs, htop, -, rfl⟩ := Descriptor.enumeration_eq_ok_iff.mp hmade
    rw [Descriptor.outcome_topLevel] at htop
    exact (Except.ok.inj htop).symm
  · obtain ⟨number, first, hregistered⟩ :=
      Error.Scene.isRegistered_of_run hdistinct hnames hs e he
    exact ⟨number, first, hregistered.showsVariants (hwell.enumerations e he) fun v hv =>
      Error.nodup_generatedNames hnames he hv⟩

/-- A file without imports imports no names. -/
theorem Compilation.IsModuleOf.importedNames_eq_nil [Expression.Capacity] {options : CompileOptions}
    {source filename : String} {c : Compilation} {items : List Syntax.Item} {d : Descriptor}
    {blocks : List Emission.Lines} (h : c.IsModuleOf options source filename items d blocks)
    (himports : d.imports = []) : items.flatMap Syntax.Item.importedNames = [] := by
  obtain ⟨findings, hdescribed⟩ := h.described
  have hnone := (describe_origin hdescribed).1.symm.trans himports
  rw [List.filterMap_eq_nil_iff] at hnone
  rw [List.flatMap_eq_nil_iff]
  intro item hitem
  cases item with
  | declaration d => rfl
  | _ => exact absurd (hnone _ hitem) (by simp [Descriptor.importOf?])

/-- The class of a top-level enumeration knows its two variants. -/
theorem compile_registers_variants_two :
    ∃ c items d blocks s, ∃ e ∈ d.enumerations, ∃ number first,
      compile {} "#[top_level] enum E \x7b #[error = \"a\"] A, #[error = \"b\"] B \x7d" "<input>" =
          .ok c ∧
        c.report.hasErrors = false ∧
        c.IsModuleOf {} "#[top_level] enum E \x7b #[error = \"a\"] A, #[error = \"b\"] B \x7d"
          "<input>" items d blocks ∧
        Error.Scene.run (fun _ _ => .ok ()) (items.flatMap Syntax.Item.importedNames) d = .ok s ∧
        e.isTopLevel = true ∧ e.variants.map Variant.name = ["A", "B"] ∧
        s.ShowsVariants e number first := by
  have hrun : ((compile {} "#[top_level] enum E \x7b #[error = \"a\"] A, #[error = \"b\"] B \x7d"
      "<input>").toOption.any fun c =>
    !c.report.hasErrors && c.descriptor.any fun d => decide (d.imports = []) &&
      ((Error.Scene.run (fun _ _ => .ok ()) [] d).toOption.isSome &&
        d.enumerations.any fun e => e.isTopLevel &&
          decide (e.variants.map Variant.name = ["A", "B"]))) = true := by
    decide +kernel
  obtain ⟨c, hc, hrun⟩ := (Option.any_eq_true _ _).mp hrun
  rw [Outcome.toOption_eq_some_iff] at hc
  obtain ⟨hclean, hdescribed⟩ := Bool.and_eq_true_iff.mp hrun
  have hclean : c.report.hasErrors = false := by simpa using hclean
  obtain ⟨items, d, blocks, hmodule, -, -, hregistered⟩ := compile_registers_variants hc hclean
  rw [hmodule.held, Option.any_some] at hdescribed
  obtain ⟨himports, hscene⟩ := Bool.and_eq_true_iff.mp hdescribed
  obtain ⟨hscene, hdeclared⟩ := Bool.and_eq_true_iff.mp hscene
  obtain ⟨s, hs⟩ := Option.isSome_iff_exists.mp hscene
  rw [Outcome.toOption_eq_some_iff,
    ← hmodule.importedNames_eq_nil (of_decide_eq_true himports)] at hs
  obtain ⟨e, he, hdeclared⟩ := List.any_eq_true.mp hdeclared
  obtain ⟨htop, hnames⟩ := Bool.and_eq_true_iff.mp hdeclared
  obtain ⟨number, first, hshows⟩ := (hregistered e he).2 _ s hs
  exact ⟨c, items, d, blocks, s, e, he, number, first, hc, hclean, hmodule, hs, htop,
    of_decide_eq_true hnames, hshows⟩

/-- A variant takes the place of the mark that tells whether its enumeration is top-level. -/
theorem not_compile_keeps_flag :
    ¬∀ options source filename c items d blocks evaluate s,
      compile options source filename = .ok c → c.report.hasErrors = false →
        c.IsModuleOf options source filename items d blocks →
          Error.Scene.run evaluate (items.flatMap Syntax.Item.importedNames) d = .ok s →
            ∀ e ∈ d.enumerations, ∀ number,
              s.names.lookup e.name = some (.enumeration number) →
                s.attributeOf number "top_level" = some (.flag e.isTopLevel) := by
  have hrun : ((compile {} ("enum E \x7b #[error = \"m\"] top_level \x7b " ++
      "#[source] source: OSError \x7d \x7d") "<input>").toOption.any fun c =>
    !c.report.hasErrors && c.descriptor.any fun d => decide (d.imports = []) &&
      (Error.Scene.run (fun _ _ => .ok ()) [] d).toOption.any fun s =>
        d.enumerations.any fun e => decide (s.names.lookup e.name = some (.enumeration 0)) &&
          decide (s.attributeOf 0 "top_level" ≠ some (.flag e.isTopLevel))) = true := by
    decide +kernel
  obtain ⟨c, hc, hrun⟩ := (Option.any_eq_true _ _).mp hrun
  rw [Outcome.toOption_eq_some_iff] at hc
  obtain ⟨hclean, hdescribed⟩ := Bool.and_eq_true_iff.mp hrun
  have hclean : c.report.hasErrors = false := by simpa using hclean
  obtain ⟨items, d, blocks, hmodule⟩ := exists_isModuleOf hc hclean
  rw [hmodule.held, Option.any_some] at hdescribed
  obtain ⟨himports, hscene⟩ := Bool.and_eq_true_iff.mp hdescribed
  obtain ⟨s, hs, hscene⟩ := (Option.any_eq_true _ _).mp hscene
  rw [Outcome.toOption_eq_some_iff,
    ← hmodule.importedNames_eq_nil (of_decide_eq_true himports)] at hs
  obtain ⟨e, he, hscene⟩ := List.any_eq_true.mp hscene
  obtain ⟨hname, hflag⟩ := Bool.and_eq_true_iff.mp hscene
  intro hall
  exact of_decide_eq_true hflag (hall _ _ _ c items d blocks _ s hc hclean hmodule hs e he 0
    (of_decide_eq_true hname))

end Errata
