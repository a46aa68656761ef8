import Errata.Emission.Module
import Errata.Proofs.Outcome

/-!
# What can be generated

The generator gives up on a field without a role, on a variant without a message, and on a shape
without a name. A descriptor is *sound* if it has none of the first two; when every shape has a
name, there is a module for each sound descriptor, and only for those.

* `Variant.IsSound`, `IsSound`: variants and descriptors that the generator can work with.
* `variantClass_isOk_iff`: a variant has a class exactly if it is sound.
* **`generate_isOk_iff`**: a descriptor has a module exactly if it is sound.
* **`mem_blocks_iff`**: the blocks that it consists of.
-/

namespace Errata

namespace Descriptor

/-- A field is sound if it has one of the three roles. -/
def Field.IsSound (f : Field) : Prop :=
  ∀ word, f.role ≠ .other word

/-- A variant is sound if it has a message, and its fields are sound. -/
structure Variant.IsSound (v : Variant) : Prop where
  /-- It has a message. -/
  messages : v.messages ≠ []
  /-- Its fields are sound. -/
  fields : ∀ f ∈ v.fields, f.IsSound

/-- A variant is sound in both respects. -/
theorem Variant.isSound_iff (v : Variant) :
    v.IsSound ↔ v.messages ≠ [] ∧ ∀ f ∈ v.fields, f.IsSound :=
  ⟨fun h => ⟨h.messages, h.fields⟩, fun h => ⟨h.1, h.2⟩⟩

/-- An enumeration is sound if all its variants are. -/
def Enumeration.IsSound (e : Enumeration) : Prop :=
  ∀ v ∈ e.variants, v.IsSound

end Descriptor

/-- A descriptor is sound if all its enumerations are. -/
def Descriptor.IsSound (d : Descriptor) : Prop :=
  ∀ e ∈ d.enumerations, e.IsSound

namespace Emission

open Outcome (exists_bind_pure_iff exists_mapM_iff)

/-! ### Variants -/

/-- A field has a parameter exactly if it is sound. -/
theorem parameter_isOk_iff (f : Descriptor.Field) :
    (∃ p, parameter f = .ok p) ↔ f.IsSound := by
  unfold parameter Descriptor.Field.IsSound
  cases f.role <;> simp

/-- Fields have a constructor exactly if they are sound. -/
theorem initMethod_isOk_iff (fields : List Descriptor.Field) :
    (∃ lines, initMethod fields = .ok lines) ↔ ∀ f ∈ fields, f.IsSound := by
  rw [initMethod, exists_bind_pure_iff, exists_mapM_iff]
  exact forall₂_congr fun f _ => parameter_isOk_iff f

/-- A variant has a class exactly if it is sound. -/
theorem variantClass_isOk_iff (v : Descriptor.Variant) :
    (∃ lines, variantClass v = .ok lines) ↔ v.IsSound := by
  rw [Descriptor.Variant.isSound_iff, variantClass]
  cases v.messages with
  | nil => simp [throw, throwThe, MonadExceptOf.throw]
  | cons first rest =>
    by_cases hunit : v.fields = []
    · have hunit' : v.isUnit = true := by rw [Descriptor.Variant.isUnit, hunit, List.isEmpty_nil]
      simp only [hunit', if_true, hunit]
      exact ⟨fun _ => by simp, fun _ => ⟨_, rfl⟩⟩
    · rw [← initMethod_isOk_iff]
      cases initMethod v.fields <;>
        simp [Descriptor.Variant.isUnit, hunit, bind, Except.bind, pure, Except.pure,
          Functor.map, Except.map]

/-- A variant has a selector if every shape has a name. -/
theorem exists_bindingBlocks (v : Descriptor.Variant) :
    ∃ lines, bindingBlocks [] v = .ok lines := by
  rw [bindingBlocks, exists_bind_pure_iff, selector, exists_bind_pure_iff, shapeTuple,
    exists_bind_pure_iff, exists_mapM_iff]
  exact fun shape _ => ⟨_, rfl⟩

/-! ### Modules -/

/-- The blocks for an enumeration: its class, those of its variants, and the statements that
register these. -/
theorem mem_classBlocks_iff {e : Descriptor.Enumeration} {bs : List Lines}
    (h : classBlocks e = .ok bs) {block : Lines} :
    block ∈ bs ↔ block = enumerationClass e ∨ block = registration e ∨
      ∃ v ∈ e.variants, variantClass v = .ok block := by
  obtain ⟨classes, hclasses, h⟩ := Outcome.bind_eq_ok_iff.mp h
  cases h
  rw [← Outcome.mem_of_mapM_iff hclasses]
  simp only [List.mem_append, List.mem_cons, List.not_mem_nil, or_false]
  rw [or_assoc, or_comm (a := block ∈ classes)]

/-- The blocks for the use of a variant: its selector, and the function that makes an error of it.
-/
theorem mem_bindingBlocks_iff {nameless : List Shape} {v : Descriptor.Variant} {bs : List Lines}
    (h : bindingBlocks nameless v = .ok bs) {block : Lines} :
    block ∈ bs ↔ selector nameless v = .ok block ∨
      ∃ name, v.constructor? = some name ∧ block = constructor v name := by
  obtain ⟨lines, hlines, h⟩ := Outcome.bind_eq_ok_iff.mp h
  cases h
  cases v.constructor? <;> simp [hlines, eq_comm]

/-- **The blocks of a module**: the classes of its enumerations and variants, the statements that
register these, the selectors and the functions that make errors. -/
theorem mem_blocks_iff {nameless : List Shape} {d : Descriptor} {bs : List Lines}
    (h : blocks nameless d = .ok bs) {block : Lines} :
    block ∈ bs ↔ ∃ e ∈ d.enumerations, block = enumerationClass e ∨ block = registration e ∨
      ∃ v ∈ e.variants, variantClass v = .ok block ∨ selector nameless v = .ok block ∨
        ∃ name, v.constructor? = some name ∧ block = constructor v name := by
  obtain ⟨classes, hclasses, h⟩ := Outcome.bind_eq_ok_iff.mp h
  obtain ⟨bindings, hbindings, h⟩ := Outcome.bind_eq_ok_iff.mp h
  cases h
  have hclass : block ∈ classes.flatten ↔ ∃ e ∈ d.enumerations, block = enumerationClass e ∨
      block = registration e ∨ ∃ v ∈ e.variants, variantClass v = .ok block := by
    rw [List.mem_flatten]
    refine Outcome.exists_mem_iff_of_mapM hclasses fun e _ bs hbs => mem_classBlocks_iff hbs
  have hbinding : block ∈ bindings.flatten ↔ ∃ e ∈ d.enumerations, ∃ v ∈ e.variants,
      selector nameless v = .ok block ∨
        ∃ name, v.constructor? = some name ∧ block = constructor v name := by
    rw [List.mem_flatten, Outcome.exists_mem_iff_of_mapM hbindings fun v _ bs hbs =>
      mem_bindingBlocks_iff hbs]
    simp only [List.mem_flatMap]
    constructor
    · rintro ⟨v, ⟨e, he, hv⟩, h⟩
      exact ⟨e, he, v, hv, h⟩
    · rintro ⟨e, he, v, hv, h⟩
      exact ⟨v, ⟨e, he, hv⟩, h⟩
  rw [List.mem_append, hclass, hbinding]
  constructor
  · rintro (⟨e, he, h | h | ⟨v, hv, h⟩⟩ | ⟨e, he, v, hv, h⟩)
    · exact ⟨e, he, .inl h⟩
    · exact ⟨e, he, .inr (.inl h)⟩
    · exact ⟨e, he, .inr (.inr ⟨v, hv, .inl h⟩)⟩
    · exact ⟨e, he, .inr (.inr ⟨v, hv, .inr h⟩)⟩
  · rintro ⟨e, he, h | h | ⟨v, hv, h | h⟩⟩
    · exact .inl ⟨e, he, .inl h⟩
    · exact .inl ⟨e, he, .inr (.inl h)⟩
    · exact .inl ⟨e, he, .inr (.inr ⟨v, hv, h⟩)⟩
    · exact .inr ⟨e, he, v, hv, h⟩
/-- The class of a variant is one of the blocks of a module. -/
theorem exists_mem_blocks_variantClass {nameless : List Shape} {d : Descriptor} {bs : List Lines}
    (h : blocks nameless d = .ok bs) {e : Descriptor.Enumeration} (he : e ∈ d.enumerations)
    {v : Descriptor.Variant} (hv : v ∈ e.variants) :
    ∃ block ∈ bs, variantClass v = .ok block := by
  obtain ⟨classes, hclasses, -⟩ := Outcome.bind_eq_ok_iff.mp h
  obtain ⟨own, -, hmade⟩ := Outcome.exists_mem_of_mapM hclasses he
  obtain ⟨variants, hvariants, -⟩ := Outcome.bind_eq_ok_iff.mp hmade
  obtain ⟨block, -, hblock⟩ := Outcome.exists_mem_of_mapM hvariants hv
  exact ⟨block, (mem_blocks_iff h).mpr ⟨e, he, .inr (.inr ⟨v, hv, .inl hblock⟩)⟩, hblock⟩

/-- The classes of an enumeration can be written exactly if it is sound. -/
theorem classBlocks_isOk_iff (e : Descriptor.Enumeration) :
    (∃ blocks, classBlocks e = .ok blocks) ↔ e.IsSound := by
  rw [classBlocks, exists_bind_pure_iff, exists_mapM_iff]
  exact forall₂_congr fun v _ => variantClass_isOk_iff v

/-- **A descriptor has a module exactly if it is sound**, when every shape has a name. -/
theorem generate_isOk_iff (options : ModuleOptions) (hnamed : options.nameless = [])
    (d : Descriptor) : (∃ code, generate options d = .ok code) ↔ d.IsSound := by
  have hclasses : (∃ classes, d.enumerations.mapM classBlocks = .ok classes) ↔ d.IsSound := by
    rw [exists_mapM_iff]
    exact forall₂_congr fun e _ => classBlocks_isOk_iff e
  obtain ⟨bindings, hbindings⟩ :
      ∃ bindings, (d.enumerations.flatMap Descriptor.Enumeration.variants).mapM
        (bindingBlocks []) = .ok bindings :=
    exists_mapM_iff.mpr fun v _ => exists_bindingBlocks v
  rw [generate, exists_bind_pure_iff, blocks, hnamed, hbindings, ← hclasses]
  exact exists_bind_pure_iff

end Emission

end Errata
