import Errata.Proofs.Descriptor.Wording
import Errata.Proofs.Emission.Assembly
import Errata.Proofs.Emission.Naming
import Errata.Proofs.Error.Binding
import Errata.Proofs.Shadowing

/-!
# Names that stand for other names

Inside a class, a name that starts with two low lines and does not end with two stands for another
one that starts with the name of the class. Names that are declared may start like that, and the
class of a variant does if its enumeration does. So there are such names inside the classes of a
module, where a call by name and the parameter that it is for come apart.

* `IsDeclarable.exists_ne`, `looksPrivate_className_iff`: names that may be declared, and those made
  of them.
* `Emission.classesOf`, `Emission.isClass_of_mem_blocks`, `Emission.exists_isClass`: the classes of
  a module.
* **`compile_private_names_iff`**: which names stand for others inside the classes of a module.
* `not_compile_private_names`: a module with such names.
-/

namespace Errata

open Descriptor (Enumeration IsDeclarable Variant)
open Emission (Lines Spells looksPrivate)
open Error (IsPrivate variantParameters)
open Syntax (IsName)

/-! ### Declared names -/

/-- A name that may be declared is more than low lines. -/
theorem Descriptor.IsDeclarable.exists_ne {reserved : List String} {name : String}
    (h : IsDeclarable reserved name) (hname : IsName name.toList) : ∃ c ∈ name.toList, c ≠ '_' := by
  by_contra hall
  push Not at hall
  obtain ⟨first, rest, hsplit, -⟩ := hname
  rw [hsplit, List.forall_mem_cons] at hall
  obtain ⟨rfl, hrest⟩ := hall
  obtain ⟨n, rfl⟩ : ∃ n, rest = List.replicate n '_' := ⟨_, List.eq_replicate_of_mem hrest⟩
  have hsplit : name.toList = List.replicate (n + 1) '_' := hsplit
  cases n with
  | zero => exact h.notThrowaway (String.toList_inj.mp hsplit)
  | succ n =>
    refine h.notBetween ⟨String.startsWith_string_iff.mpr ?_, Emission.endsWith_iff.mpr ?_⟩
    · exact ⟨List.replicate n '_', by simp [hsplit, List.replicate_succ]⟩
    · exact ⟨List.replicate n '_', by simp [hsplit, List.replicate_succ']⟩

/-- A name that may be declared belongs to a class alone if it starts with two low lines. -/
theorem Descriptor.IsDeclarable.looksPrivate_iff {reserved : List String} {name : String}
    (h : IsDeclarable reserved name) :
    looksPrivate name = true ↔ name.startsWith "__" = true := by
  have hbetween := h.notBetween
  rw [looksPrivate, Bool.and_eq_true, Bool.not_eq_true']
  constructor
  · exact And.left
  · intro hstart
    exact ⟨hstart, by simpa [hstart] using hbetween⟩

/-- Two low lines at the start of a text are those of its first part, unless that is too short. -/
theorem lowLines_prefix_append_iff {chars : List Char} (hne : chars ≠ []) (hone : chars ≠ ['_'])
    (more : List Char) : ['_', '_'] <+: chars ++ more ↔ ['_', '_'] <+: chars := by
  match chars with
  | [] => exact absurd rfl hne
  | [c] =>
    have hc : c ≠ '_' := fun heq => hone (heq ▸ rfl)
    simp [List.cons_prefix_cons, hc.symm]
  | c :: c' :: rest => simp [List.cons_prefix_cons]

section

variable {reserved reserved' : List String} {v : Variant}

/-- The name of the class of a variant would belong to a class alone if that of the enumeration
starts with two low lines, and that of the variant does not end with two. -/
theorem looksPrivate_className_iff (he : IsDeclarable reserved v.enumeration)
    (hename : IsName v.enumeration.toList) (hv : IsDeclarable reserved' v.name)
    (hvname : IsName v.name.toList) :
    looksPrivate v.className = true ↔
      v.enumeration.startsWith "__" = true ∧ v.name.endsWith "__" = false := by
  have hchars : v.className.toList = v.enumeration.toList ++ '_' :: v.name.toList := by
    simp [Variant.className]
  have hlong : ∀ {names : List String} {name : String}, IsDeclarable names name →
      IsName name.toList → name.toList ≠ [] ∧ name.toList ≠ ['_'] := by
    intro names name hname hspelled
    obtain ⟨c, hc, hne⟩ := hname.exists_ne hspelled
    refine ⟨List.ne_nil_of_mem hc, fun heq => hne ?_⟩
    rw [heq] at hc
    exact List.mem_singleton.mp hc
  have hstart : v.className.startsWith "__" = true ↔ v.enumeration.startsWith "__" = true := by
    rw [String.startsWith_string_iff, String.startsWith_string_iff, hchars]
    exact lowLines_prefix_append_iff (hlong he hename).1 (hlong he hename).2 _
  have hend : v.className.endsWith "__" = true ↔ v.name.endsWith "__" = true := by
    rw [Emission.endsWith_iff, Emission.endsWith_iff, hchars, ← List.reverse_prefix,
      ← List.reverse_prefix, List.reverse_append, List.reverse_cons, List.append_assoc]
    obtain ⟨hne, hone⟩ := hlong hv hvname
    refine lowLines_prefix_append_iff (by simpa using hne) (fun heq => hone ?_) _
    simpa using congrArg List.reverse heq
  rw [looksPrivate, Bool.and_eq_true, hstart, Bool.not_eq_true', ← Bool.not_eq_true, hend,
    Bool.not_eq_true]

/-- The name of the class of a variant is spelled like one. -/
theorem isName_className (hename : IsName v.enumeration.toList) (hvname : IsName v.name.toList) :
    IsName v.className.toList := by
  obtain ⟨first, rest, hsplit, hfirst, hrest⟩ := hename
  refine ⟨first, rest ++ '_' :: v.name.toList, by simp [Variant.className, hsplit], hfirst, ?_⟩
  rw [List.forall_mem_append, List.forall_mem_cons]
  exact ⟨hrest, rfl, hvname.isNameChar⟩

/-- In a class whose name is more than low lines, the names that look like it stand for others. -/
theorem isPrivate_iff_looksPrivate {owner : String} (howner : ∃ c ∈ owner.toList, c ≠ '_')
    {name : String} : IsPrivate owner name ↔ looksPrivate name = true := by
  have hmore : owner.toList.dropWhile (· = '_') ≠ [] := by
    obtain ⟨c, hc, hne⟩ := howner
    rw [ne_eq, List.dropWhile_eq_nil_iff]
    intro hall
    exact hne (of_decide_eq_true (hall c hc))
  rw [Error.isPrivate_iff, looksPrivate, Bool.and_eq_true, Bool.not_eq_true']
  exact ⟨fun h => ⟨h.1, h.2.1⟩, fun h => ⟨h.1, h.2, hmore⟩⟩

end

/-! ### Classes -/

namespace Emission

/-- The classes for an enumeration: the lines before each body, and the body. -/
def classesOf (e : Enumeration) : List (Lines × List Line) :=
  (["class " ++ e.name ++ "(_eg_rt.ErrorEnum):"], enumerationBody e) ::
    e.variants.flatMap fun v =>
      [(["class " ++ v.className ++ "(" ++ v.enumeration ++ "):"], classBody v),
        (["@_eg_dataclasses.dataclass(frozen=True)", "class " ++ v.name ++ ":"], selectorBody v)]

/-- Whether a block is a class: some lines before a body, and the body. -/
def IsClass (parts : Lines × List Line) (block : Lines) : Prop :=
  ∃ body, block = parts.1 ++ body ∧ Spells parts.2 body

/-- The class of a variant is one of those for its enumeration. -/
theorem isClass_variantClass {v : Variant} {block : Lines} (h : variantClass v = .ok block) :
    IsClass (["class " ++ v.className ++ "(" ++ v.enumeration ++ "):"], classBody v) block := by
  obtain ⟨body, rfl, hspells⟩ := spells_variantClass h
  exact ⟨body, rfl, hspells⟩

/-- The selector of a variant is one of the classes for its enumeration. -/
theorem isClass_selector {v : Variant} {block : Lines} (h : selector [] v = .ok block) :
    IsClass (["@_eg_dataclasses.dataclass(frozen=True)", "class " ++ v.name ++ ":"],
      selectorBody v) block := by
  obtain ⟨body, hbody, hspells⟩ := spells_selector v
  rw [h] at hbody
  cases hbody
  exact ⟨body, rfl, hspells⟩

/-- **The blocks of a module** are the classes for its enumerations, the statements that register
variants, and the functions that make errors. -/
theorem isClass_of_mem_blocks {d : Descriptor} {bs : List Lines} (h : blocks [] d = .ok bs)
    {block : Lines} (hblock : block ∈ bs) :
    ∃ e ∈ d.enumerations, (∃ parts ∈ classesOf e, IsClass parts block) ∨
      block = registration e ∨
        ∃ v ∈ e.variants, ∃ name, v.constructor? = some name ∧ block = constructor v name := by
  obtain ⟨e, he, rfl | hregister | ⟨v, hv, hclass | hselector | hconstructor⟩⟩ :=
    (mem_blocks_iff h).mp hblock
  · obtain ⟨body, hbody, hspells⟩ := spells_enumerationClass e
    exact ⟨e, he, .inl ⟨_, List.mem_cons_self, body, hbody, hspells⟩⟩
  · exact ⟨e, he, .inr (.inl hregister)⟩
  · have hparts : _ ∈ classesOf e :=
      List.mem_cons_of_mem _ (List.mem_flatMap.mpr ⟨v, hv, List.mem_cons_self⟩)
    exact ⟨e, he, .inl ⟨_, hparts, isClass_variantClass hclass⟩⟩
  · have hparts : _ ∈ classesOf e := List.mem_cons_of_mem _
      (List.mem_flatMap.mpr ⟨v, hv, List.mem_cons_of_mem _ List.mem_cons_self⟩)
    exact ⟨e, he, .inl ⟨_, hparts, isClass_selector hselector⟩⟩
  · exact ⟨e, he, .inr (.inr ⟨v, hv, hconstructor⟩)⟩

/-- **The classes for the enumerations of a module** are among its blocks. -/
theorem exists_isClass {d : Descriptor} {bs : List Lines} (h : blocks [] d = .ok bs)
    {e : Enumeration} (he : e ∈ d.enumerations) :
    ∀ parts ∈ classesOf e, ∃ block ∈ bs, IsClass parts block := by
  rw [classesOf, List.forall_mem_cons, List.forall_mem_flatMap]
  constructor
  · obtain ⟨body, hbody, hspells⟩ := spells_enumerationClass e
    exact ⟨_, (mem_blocks_iff h).mpr ⟨e, he, .inl rfl⟩, body, hbody, hspells⟩
  · intro v hv
    rw [List.forall_mem_cons, List.forall_mem_singleton]
    constructor
    · obtain ⟨block, hblock, hclass⟩ := exists_mem_blocks_variantClass h he hv
      exact ⟨block, hblock, isClass_variantClass hclass⟩
    · obtain ⟨body, hselector, hspells⟩ := spells_selector v
      exact ⟨_, (mem_blocks_iff h).mpr ⟨e, he, .inr (.inr ⟨v, hv, .inr (.inl hselector)⟩)⟩, body,
        rfl, hspells⟩

end Emission

/-! ### Modules -/

/-- Which names inside the classes of a variant stand for others, and what that does to calls. -/
structure Descriptor.Variant.PrivateNames (v : Variant) : Prop where
  /-- Inside the class of its errors, the names that stand for others are those of fields. -/
  inClass : (∃ l ∈ Emission.classBody v, ∃ n ∈ l.identifiers, looksPrivate n = true) ↔
    ∃ f ∈ v.fields, f.name.startsWith "__" = true
  /-- Inside the class of its selectors there are those of the enumeration and of the class of the
  errors besides, which start alike. -/
  inSelector : (∃ l ∈ Emission.selectorBody v, ∃ n ∈ l.identifiers, looksPrivate n = true) ↔
    v.enumeration.startsWith "__" = true ∨ ∃ f ∈ v.fields, f.name.startsWith "__" = true
  /-- Each part calls the class and the function by the names of the fields. -/
  called : Emission.IsCalledByName v
  /-- These are the names of the parameters of the class if none of them stands for another. -/
  parameters : (variantParameters v).map Error.Parameter.name = v.fieldNames ↔
    ∀ f ∈ v.fields, f.name.startsWith "__" = false
  /-- The name of the class means the class where selectors call it, unless it stands for another.
  -/
  callee : Error.privateName v.name v.className = v.className ↔
    ¬(v.enumeration.startsWith "__" = true ∧ v.name.endsWith "__" = false)

/-- The names inside the classes of a variant with names that may be declared. -/
theorem Descriptor.Variant.IsWellFormed.privateNames {v : Variant} (h : v.IsWellFormed)
    (hnames : ∀ f ∈ v.fields, IsName f.name.toList) (hname : IsName v.name.toList)
    (howner : IsDeclarable [] v.enumeration) (hownerName : IsName v.enumeration.toList) :
    v.PrivateNames := by
  have hclassName : IsName v.className.toList := isName_className hownerName hname
  have hfieldNames : ∀ n ∈ v.fieldNames, IsName n.toList := List.forall_mem_map.mpr hnames
  have hfields : (∃ n ∈ v.fieldNames, looksPrivate n = true) ↔
      ∃ f ∈ v.fields, f.name.startsWith "__" = true := by
    simp only [Descriptor.Variant.fieldNames, List.mem_map, exists_exists_and_eq_and]
    exact exists_congr fun f => and_congr_right fun hf => (h.fields f hf).name.looksPrivate_iff
  have hmore : ∃ c ∈ v.className.toList, c ≠ '_' := by
    obtain ⟨c, hc, hne⟩ := h.name.exists_ne hname
    exact ⟨c, by simp [Variant.className, hc], hne⟩
  have hall : ∀ n ∈ v.enumeration :: v.className :: v.fieldNames, IsName n.toList :=
    List.forall_mem_cons.mpr ⟨hownerName, List.forall_mem_cons.mpr ⟨hclassName, hfieldNames⟩⟩
  constructor
  · rw [Emission.classBody_looksPrivate_iff hfieldNames, hfields]
  · rw [Emission.selectorBody_looksPrivate_iff hall,
      List.exists_mem_cons_iff, List.exists_mem_cons_iff, hfields, howner.looksPrivate_iff,
      looksPrivate_className_iff howner hownerName h.name hname, ← or_assoc,
      or_iff_left_of_imp And.left]
  · exact Emission.isCalledByName (fun f hf => (h.fields f hf).role) hnames
  · rw [variantParameters, Descriptor.Variant.fieldNames, List.map_map, List.map_inj_left]
    refine forall₂_congr fun f hf => ?_
    rw [← Bool.not_eq_true, ← (h.fields f hf).name.looksPrivate_iff,
      ← isPrivate_iff_looksPrivate hmore]
    exact not_not.symm
  · rw [← looksPrivate_className_iff howner hownerName h.name hname,
      ← isPrivate_iff_looksPrivate (h.name.exists_ne hname)]
    exact not_not.symm

/-- **Which names stand for others inside the classes of a module**: those of fields and of
enumerations that start with two low lines, and that of the class of a variant of such an
enumeration. Nothing else does that the generator writes there: not in the class of an enumeration,
and not in the wording. -/
theorem compile_private_names_iff [Expression.Capacity]
    {options : CompileOptions} {source filename : String}
    {c : Compilation} (h : compile options source filename = .ok c)
    (hclean : c.report.hasErrors = false) :
    ∃ items d blocks, c.IsModuleOf options source filename items d blocks ∧
      (∀ block ∈ blocks, ∃ e ∈ d.enumerations,
        (∃ parts ∈ Emission.classesOf e, Emission.IsClass parts block) ∨
          block = Emission.registration e ∨ ∃ v ∈ e.variants, ∃ name,
            v.constructor? = some name ∧ block = Emission.constructor v name) ∧
      ∀ e ∈ d.enumerations,
        (∀ parts ∈ Emission.classesOf e, ∃ block ∈ blocks, Emission.IsClass parts block) ∧
        (∀ l ∈ Emission.enumerationBody e, ∀ n ∈ l.identifiers, looksPrivate n = false) ∧
        ∀ v ∈ e.variants, v.PrivateNames := by
  obtain ⟨items, d, blocks, hmodule⟩ := exists_isModuleOf h hclean
  obtain ⟨tree, hparse, hitems⟩ := hmodule.read
  obtain ⟨findings, hdescribed⟩ := hmodule.described
  have hwell := describe_isWellFormed hdescribed
  have hworded := describe_isWorded (Syntax.isWorded_of_fileItems hparse hitems) hdescribed
  refine ⟨items, d, blocks, hmodule, fun block => Emission.isClass_of_mem_blocks hmodule.written,
    fun e he => ⟨Emission.exists_isClass hmodule.written he,
      fun l hl n => Emission.not_looksPrivate_of_mem_enumerationBody hl, fun v hv => ?_⟩⟩
  obtain ⟨hname, hvariants⟩ := isName_of_describe hparse hitems hdescribed e he
  have hwell := hwell.enumerations e he
  have howner := hwell.owner v hv
  exact (hwell.variants v hv).privateNames (fun f hf => (hworded.fields e he v hv f hf).name)
    (hvariants v hv) (howner ▸ hwell.name) (howner ▸ hname)

/-- A field that starts with two low lines stands for another name inside the class. -/
theorem compile_private_names_field :
    ∃ c items d blocks,
      compile {} "enum E \x7b #[error = \"m\"] V \x7b __x: int \x7d \x7d" "<input>" = .ok c ∧
        c.report.hasErrors = false ∧
        c.IsModuleOf {} "enum E \x7b #[error = \"m\"] V \x7b __x: int \x7d \x7d" "<input>" items d
          blocks ∧
        ∃ e ∈ d.enumerations, ∃ v ∈ e.variants,
          ∃ l ∈ Emission.classBody v, ∃ n ∈ l.identifiers, looksPrivate n = true := by
  have hrun : ((compile {} "enum E \x7b #[error = \"m\"] V \x7b __x: int \x7d \x7d"
      "<input>").toOption.any fun c =>
    !c.report.hasErrors && c.descriptor.any fun d => d.enumerations.any fun e =>
      e.variants.any fun v => v.fields.any fun f => f.name.startsWith "__") = true := by
    decide +kernel
  obtain ⟨c, hc, hrun⟩ := (Option.any_eq_true _ _).mp hrun
  rw [Outcome.toOption_eq_some_iff] at hc
  obtain ⟨hclean, hdescribed⟩ := Bool.and_eq_true_iff.mp hrun
  have hclean : c.report.hasErrors = false := by simpa using hclean
  obtain ⟨items, d, blocks, hmodule, -, hnames⟩ := compile_private_names_iff hc hclean
  rw [hmodule.held, Option.any_some] at hdescribed
  obtain ⟨e, he, hdescribed⟩ := List.any_eq_true.mp hdescribed
  obtain ⟨v, hv, hfield⟩ := List.any_eq_true.mp hdescribed
  exact ⟨c, items, d, blocks, hc, hclean, hmodule, e, he, v, hv,
    ((hnames e he).2.2 v hv).inClass.mpr (List.any_eq_true.mp hfield)⟩

/-- Names that stand for others are written into a class, where a call by name and the parameter
that it is for come apart. -/
theorem not_compile_private_names :
    (¬∀ options source filename c items d blocks, compile options source filename = .ok c →
      c.report.hasErrors = false → c.IsModuleOf options source filename items d blocks →
        ∀ e ∈ d.enumerations, ∀ v ∈ e.variants,
          ∀ l ∈ Emission.classBody v ++ Emission.selectorBody v, ∀ n ∈ l.identifiers,
            looksPrivate n = false) ∧
    ¬∀ options source filename c items d blocks, compile options source filename = .ok c →
      c.report.hasErrors = false → c.IsModuleOf options source filename items d blocks →
        ∀ e ∈ d.enumerations, ∀ v ∈ e.variants,
          (variantParameters v).map Error.Parameter.name = v.fieldNames := by
  have hrun : ((compile {} "enum E \x7b #[error = \"m\"] V \x7b __x: int \x7d \x7d"
      "<input>").toOption.any fun c =>
    !c.report.hasErrors && c.descriptor.any fun d => d.enumerations.any fun e =>
      e.variants.any fun v =>
        (Emission.classBody v).any (fun l => l.identifiers.any looksPrivate) &&
          decide ((variantParameters v).map Error.Parameter.name ≠ v.fieldNames)) = true := by
    decide +kernel
  obtain ⟨c, hc, hrun⟩ := (Option.any_eq_true _ _).mp hrun
  rw [Outcome.toOption_eq_some_iff] at hc
  obtain ⟨hclean, hdescribed⟩ := Bool.and_eq_true_iff.mp hrun
  have hclean : c.report.hasErrors = false := by simpa using hclean
  obtain ⟨items, d, blocks, hmodule⟩ := exists_isModuleOf hc hclean
  rw [hmodule.held, Option.any_some] at hdescribed
  obtain ⟨e, he, hdescribed⟩ := List.any_eq_true.mp hdescribed
  obtain ⟨v, hv, hnames⟩ := List.any_eq_true.mp hdescribed
  obtain ⟨hwritten, hparameters⟩ := Bool.and_eq_true_iff.mp hnames
  constructor
  · intro hall
    obtain ⟨l, hl, hn⟩ := List.any_eq_true.mp hwritten
    obtain ⟨n, hn, hprivate⟩ := List.any_eq_true.mp hn
    have hpublic := hall _ _ _ c items d blocks hc hclean hmodule e he v hv l
      (List.mem_append_left _ hl) n hn
    exact Bool.false_ne_true (hpublic.symm.trans hprivate)
  · intro hall
    exact of_decide_eq_true hparameters (hall _ _ _ c items d blocks hc hclean hmodule e he v hv)

end Errata
