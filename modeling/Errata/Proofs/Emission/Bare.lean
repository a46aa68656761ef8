import Errata.Emission.Module
import Errata.Proofs.Descriptor.Bare
import Errata.Proofs.Descriptor.Types
import Errata.Proofs.Emission.Module

/-!
# What generated code takes from a declaration file

A generated module does not depend on where the parts of a declaration file stand. The types of
fields are copied into it.

* `variantClass_bare`, `selector_bare`: the code for a variant, whatever its places are.
* **`generate_bare`**: the module of a descriptor, whatever its places are.
* `Show`: lines in one of which a text stands.
* `show_initMethod`, `show_variantClass`: the types in the class of a variant.
* **`type_infix_generate`**: the types of a descriptor stand in its module.
-/

/-! ## Places

Nothing in a generated module tells where the parts of a declaration file stand. So descriptors that
say the same have the same module.
-/

namespace Errata.Emission

open Descriptor (Enumeration Field Message Variant)

/-! ### Variants -/

/-- The constructor of a class. -/
theorem initMethod_bare (fields : List Field) :
    initMethod (fields.map (Field.bare id)) = initMethod fields := by
  rw [initMethod, initMethod, List.mapM_map]
  rfl

/-- The expression for a message. -/
theorem message_bare (m : Message) : message m.bare = message m := by
  have hexpressions : m.bare.arguments.map Descriptor.Argument.expression =
      m.arguments.map Descriptor.Argument.expression := by
    rw [Message.bare, List.map_map]
    rfl
  have hempty : m.bare.arguments.isEmpty = m.arguments.isEmpty := List.isEmpty_map
  rw [message, message, hexpressions, hempty]
  rfl

/-- The statements that give each field a local name. -/
theorem fieldBindings_bare (v : Variant) : fieldBindings (v.bare id) = fieldBindings v := by
  rw [fieldBindings, fieldBindings, Variant.fieldNames_bare]

/-- The method that renders the messages. -/
theorem renderMethod_bare (v : Variant) : renderMethod (v.bare id) = renderMethod v := by
  have hmessages : ((v.bare id).messages.map fun m => "_eg_out.append(" ++ message m ++ ")") =
      v.messages.map fun m => "_eg_out.append(" ++ message m ++ ")" := by
    simp only [Variant.bare, List.map_map, Function.comp_def, message_bare]
  rw [renderMethod, renderMethod, fieldBindings_bare, hmessages, Variant.location?_bare,
    Option.isSome_map]

/-- The method that renders the help text. -/
theorem helpMethod_bare (v : Variant) : helpMethod (v.bare id) = helpMethod v := by
  rw [helpMethod, helpMethod, fieldBindings_bare]
  simp only [Variant.bare, List.flatMap_map, message_bare]

/-- The methods that only some variants have. -/
theorem extraMethods_bare (v : Variant) : extraMethods (v.bare id) = extraMethods v := by
  have hempty : (v.bare id).helps.isEmpty = v.helps.isEmpty := List.isEmpty_map
  rw [extraMethods, extraMethods, helpMethod_bare, hempty, Variant.source?_bare,
    Option.isSome_map]

/-- **The class of a variant.** -/
theorem variantClass_bare (v : Variant) : variantClass (v.bare id) = variantClass v := by
  have hunit : (v.bare id).isUnit = v.isUnit := List.isEmpty_map
  have hinit : initMethod (v.bare id).fields = initMethod v.fields := initMethod_bare v.fields
  unfold variantClass
  rw [renderMethod_bare, extraMethods_bare, hunit, hinit]
  cases hmessages : v.messages with
  | nil => simp [Variant.bare, hmessages]
  | cons first rest =>
    simp only [Variant.bare, hmessages, List.map_cons]
    rfl

/-- The call that makes an error. -/
theorem assembly_bare (v : Variant) {valueOf : Field → String}
    (h : ∀ f, valueOf (f.bare id) = valueOf f) :
    assembly (v.bare id) valueOf = assembly v valueOf := by
  simp only [assembly, Variant.bare, List.map_map, Function.comp_def, h]
  rfl

/-- The statements that make an error from a failure. -/
theorem bindBody_bare (v : Variant) : bindBody (v.bare id) = bindBody v := by
  rw [bindBody, bindBody, assembly_bare v fun _ => rfl, assembly_bare v fun _ => rfl,
    Variant.source?_bare, Option.isSome_map]

/-- The tuple of the shapes that errors can be made from. -/
theorem shapeTuple_bare (nameless : List Shape) (v : Variant) :
    shapeTuple nameless (v.bare id) = shapeTuple nameless v := by
  have hshapes : acceptedShapes (v.bare id) = acceptedShapes v := by
    rw [acceptedShapes, acceptedShapes, Variant.source?_bare, Option.isSome_map]
  rw [shapeTuple, shapeTuple, hshapes]
  rfl

/-- What is written for each field that a selector holds. -/
theorem map_selectorFields_bare (v : Variant) :
    ((v.bare id).selectorFields.map fun f => f.name ++ ": " ++ f.type) =
      v.selectorFields.map fun f => f.name ++ ": " ++ f.type := by
  rw [Variant.selectorFields_bare, List.map_map]
  rfl

/-- **The selector of a variant.** -/
theorem selector_bare (nameless : List Shape) (v : Variant) :
    selector nameless (v.bare id) = selector nameless v := by
  have hcause : (v.bare id).source?.map causeType = v.source?.map causeType := by
    rw [Variant.source?_bare, Option.map_map]
    rfl
  rw [selector, selector, shapeTuple_bare, map_selectorFields_bare, hcause, bindBody_bare]
  rfl

/-- The function that makes an error. -/
theorem constructor_bare (v : Variant) (name : String) :
    constructor (v.bare id) name = constructor v name := by
  rw [constructor, constructor, map_selectorFields_bare, assembly_bare v fun _ => rfl]
  rfl

/-- The selector and the function that makes an error. -/
theorem bindingBlocks_bare (nameless : List Shape) (v : Variant) :
    bindingBlocks nameless (v.bare id) = bindingBlocks nameless v := by
  have hconstructor : constructor (v.bare id) = constructor v := funext (constructor_bare v)
  rw [bindingBlocks, bindingBlocks, selector_bare, hconstructor, Variant.constructor?_bare]

/-! ### Modules -/

/-- The statements that make the classes of the variants known. -/
theorem registration_bare (e : Enumeration) : registration (e.bare id) = registration e := by
  simp only [registration, Enumeration.bare, List.flatMap_map, List.map_map, Function.comp_def]
  rfl

/-- The classes of an enumeration and of its variants. -/
theorem classBlocks_bare (e : Enumeration) : classBlocks (e.bare id) = classBlocks e := by
  have hclass : variantClass ∘ Variant.bare id = variantClass := funext variantClass_bare
  rw [classBlocks, classBlocks, registration_bare, Enumeration.bare, List.mapM_map, hclass]
  rfl

/-- The names that a module offers. -/
theorem exportedNames_bare (d : Descriptor) : exportedNames (d.bare id) = exportedNames d := by
  simp only [exportedNames, Descriptor.bare, Enumeration.bare, List.flatMap_map,
    Variant.constructor?_bare]
  rfl

/-- The header of a module. -/
theorem header_bare (runtimeModule : String) (d : Descriptor) :
    header runtimeModule (d.bare id) = header runtimeModule d := by
  have himports : (d.bare id).imports.map Descriptor.Import.text =
      d.imports.map Descriptor.Import.text := by
    rw [Descriptor.bare, List.map_map]
    rfl
  rw [header, header, exportedNames_bare, himports]

/-- The blocks of a module. -/
theorem blocks_bare (nameless : List Shape) (d : Descriptor) :
    blocks nameless (d.bare id) = blocks nameless d := by
  have hclasses : (d.bare id).enumerations.mapM classBlocks = d.enumerations.mapM classBlocks := by
    rw [Descriptor.bare, List.mapM_map]
    exact congrArg (fun f => d.enumerations.mapM f) (funext classBlocks_bare)
  have hvariants : (d.bare id).enumerations.flatMap Enumeration.variants =
      (d.enumerations.flatMap Enumeration.variants).map (Variant.bare id) := by
    rw [Descriptor.bare, List.flatMap_map, List.map_flatMap]
    rfl
  have hbinding : bindingBlocks nameless ∘ Variant.bare id = bindingBlocks nameless :=
    funext (bindingBlocks_bare nameless)
  rw [blocks, blocks, hclasses, hvariants, List.mapM_map, hbinding]

/-- **The module of a descriptor** does not depend on the places in it. -/
theorem generate_bare (options : ModuleOptions) (d : Descriptor) :
    generate options (d.bare id) = generate options d := by
  rw [generate, generate, blocks_bare, header_bare]

end Errata.Emission

/-! ## Types

The type of a field is copied into the module as it is: it stands in the constructor of the class of
the variant, whatever the field is for.
-/

namespace Errata.Emission

open Descriptor (Enumeration Field Variant)

/-- Whether a text stands in one of the lines. -/
def Show (text : List Char) (lines : Lines) : Prop :=
  ∃ line ∈ lines, text <:+: line.toList

variable {text : List Char}

/-! ### Lines -/

/-- One of several texts stands in them when they are joined. -/
theorem infix_intercalate {separator : List Char} {parts : List (List Char)} {part : List Char}
    (h : part ∈ parts) : part <:+: separator.intercalate parts := by
  induction parts with
  | nil => cases h
  | cons first parts ih =>
    cases parts with
    | nil =>
      obtain rfl := List.mem_singleton.mp h
      rw [List.intercalate_singleton]
    | cons second parts =>
      rw [List.intercalate_cons_cons]
      rcases List.mem_cons.mp h with rfl | h
      · rw [List.append_assoc]
        exact (List.prefix_append _ _).isInfix
      · exact (ih h).trans (List.suffix_append _ _).isInfix

/-- What stands in a line stands in the lines when they are joined. -/
theorem Show.infix_intercalate {lines : Lines} (h : Show text lines) (separator : String) :
    text <:+: (separator.intercalate lines).toList := by
  obtain ⟨line, hline, htext⟩ := h
  rw [String.toList_intercalate]
  exact htext.trans (Emission.infix_intercalate (List.mem_map_of_mem hline))

/-- Lines that are part of others. -/
theorem Show.mono {lines lines' : Lines} (h : Show text lines) (hsub : lines ⊆ lines') :
    Show text lines' := by
  obtain ⟨line, hline, htext⟩ := h
  exact ⟨line, hsub hline, htext⟩

/-- Lines that are indented. -/
theorem Show.indent {lines : Lines} (h : Show text lines) : Show text (indent lines) := by
  obtain ⟨line, hline, htext⟩ := h
  refine ⟨_, List.mem_map_of_mem hline, ?_⟩
  split
  · next hempty => exact hempty ▸ htext
  · rw [String.toList_append]
    exact htext.trans (List.suffix_append _ _).isInfix

/-- Lines of one of several blocks. -/
theorem Show.spaced {blocks : List Lines} {block : Lines} (hblock : block ∈ blocks)
    (h : Show text block) : Show text (spaced blocks) := by
  induction blocks with
  | nil => cases hblock
  | cons first rest ih =>
    cases rest with
    | nil => exact List.mem_singleton.mp hblock ▸ h
    | cons second rest =>
      show Show text (first ++ ["", ""] ++ Emission.spaced (second :: rest))
      rcases List.mem_cons.mp hblock with rfl | hblock
      · exact h.mono fun line hline => List.mem_append_left _ (List.mem_append_left _ hline)
      · exact (ih hblock).mono (List.subset_append_right _ _)

/-! ### Variants -/

/-- The type of a field stands in its parameter. -/
theorem infix_parameter {f : Field} {p : String × Lines} (h : parameter f = .ok p) :
    f.type.toList <:+: p.1.toList := by
  have hfront : f.type.toList <:+: (f.name ++ ": " ++ f.type).toList := by
    rw [String.toList_append]
    exact (List.suffix_append _ _).isInfix
  unfold parameter at h
  dsimp only at h
  split at h
  · cases h
    exact hfront
  · cases h
    exact hfront
  · cases h
    rw [String.toList_append]
    exact hfront.trans (List.prefix_append _ _).isInfix
  · cases h

/-- The types of fields stand in the constructor. -/
theorem show_initMethod {fields : List Field} {lines : Lines} (h : initMethod fields = .ok lines)
    {f : Field} (hf : f ∈ fields) : Show f.type.toList lines := by
  obtain ⟨parameters, hparameters, h⟩ := Outcome.bind_eq_ok_iff.mp h
  cases h
  obtain ⟨p, hp, hmade⟩ := Outcome.exists_mem_of_mapM hparameters hf
  refine ⟨_, List.mem_cons_self, ?_⟩
  rw [String.toList_append, String.toList_append, String.toList_intercalate, List.append_assoc]
  refine ((infix_parameter hmade).trans ?_).trans (List.suffix_append _ _).isInfix
  exact (infix_intercalate (List.mem_map_of_mem (List.mem_map_of_mem hp))).trans
    (List.prefix_append _ _).isInfix

/-- **The types of the fields of a variant** stand in its class. -/
theorem show_variantClass {v : Variant} {lines : Lines} (h : variantClass v = .ok lines)
    {f : Field} (hf : f ∈ v.fields) : Show f.type.toList lines := by
  have hunit : v.isUnit = false := by
    rw [Variant.isUnit, List.isEmpty_eq_false_iff]
    exact List.ne_nil_of_mem hf
  unfold variantClass at h
  cases hmessages : v.messages with
  | nil =>
    rw [hmessages] at h
    cases h
  | cons first rest =>
    rw [hmessages, hunit] at h
    dsimp only at h
    obtain ⟨init, hinit, h⟩ := Outcome.bind_eq_ok_iff.mp h
    obtain ⟨lines', hmade, rfl⟩ := Outcome.map_eq_ok_iff.mp hinit
    cases h
    have hbody : ∀ others more : Lines, Show f.type.toList ("" :: lines' ++ others ++ more) := by
      intro others more
      refine (show_initMethod hmade hf).mono fun line hline => ?_
      exact List.mem_append_left _ (List.mem_append_left _ (List.mem_cons_of_mem _ hline))
    exact (hbody _ _).indent.mono (List.subset_append_right _ _)

/-! ### Modules -/

/-- **The types of a descriptor** stand in its module. -/
theorem type_infix_generate {options : ModuleOptions} {d : Descriptor} {code : String}
    (h : generate options d = .ok code) {type : String} (htype : type ∈ d.types) :
    type.toList <:+: code.toList := by
  obtain ⟨e, he, htype⟩ := List.mem_flatMap.mp htype
  obtain ⟨v, hv, htype⟩ := List.mem_flatMap.mp htype
  obtain ⟨f, hf, rfl⟩ := List.mem_map.mp htype
  obtain ⟨found, hblocks, h⟩ := Outcome.bind_eq_ok_iff.mp h
  cases h
  obtain ⟨lines, hblock, hclass⟩ := exists_mem_blocks_variantClass hblocks he hv
  have hshow := (show_variantClass hclass hf).spaced
    (List.mem_cons_of_mem (header options.runtimeModule d) hblock)
  rw [String.toList_append]
  exact ((hshow.mono (List.subset_cons_self _ _)).infix_intercalate "\n").trans
    (List.prefix_append _ _).isInfix

end Errata.Emission
