import Errata.Proofs.Emission.Module

/-!
# Why nothing is generated

The classes of all variants are written before the first selector. So a field without a role,
wherever it is declared, counts before any shape without a name, and of several defects of one kind
the first in the order of the declarations counts.

* `Outcome.failure?`: why a computation fails; `failure?_bind`, `failure?_mapM`: why two steps do,
  and steps for the entries of a list.
* `Field.defect?`, `Variant.defect?`: what is wrong with a field and with the shapes of a variant.
* `failure?_generate`: **the first defect of a file**.
* **`generate_fails_first`**: when and why there is no module, and what a module consists of.
-/

namespace Errata

namespace Outcome

variable {α β ε : Type}

/-! ### Failures -/

/-- Why a computation fails. -/
def failure? : Except ε α → Option ε
  | .ok _ => none
  | .error e => some e

/-- A computation fails for a reason. -/
theorem failure?_eq_some_iff {x : Except ε α} {e : ε} : failure? x = some e ↔ x = .error e := by
  cases x <;> simp [failure?]

/-- A computation without a failure has a result. -/
theorem failure?_eq_none_iff {x : Except ε α} : failure? x = none ↔ ∃ a, x = .ok a := by
  cases x <;> simp [failure?]

/-- Handing on what a computation made does not fail. -/
@[simp] theorem failure?_bind_pure (x : Except ε α) (f : α → β) :
    failure? (x >>= fun a => pure (f a)) = failure? x := by
  cases x <;> rfl

/-- Two steps fail where the first does, or else where the second does. -/
theorem failure?_bind {x : Except ε α} {f : α → Except ε β} {o : Option ε}
    (h : ∀ a, x = .ok a → failure? (f a) = o) : failure? (x >>= f) = (failure? x).or o := by
  cases x with
  | error e => rfl
  | ok a => exact h a rfl

/-- A computation on every entry of a list fails where it first fails on an entry. -/
theorem failure?_mapM (f : α → Except ε β) (as : List α) :
    failure? (as.mapM f) = as.findSome? fun a => failure? (f a) := by
  induction as with
  | nil => rfl
  | cons a as ih =>
    rw [List.mapM_cons, List.findSome?_cons]
    cases f a with
    | error e => rfl
    | ok b => exact (failure?_bind_pure (as.mapM f) (b :: ·)).trans ih

/-- What is first found in the lists of several entries is first found in all of them, if it is what
is found on each entry. -/
theorem findSome?_flatMap {f : α → Option ε} {g : α → List β} {k : β → Option ε} {as : List α}
    (h : ∀ a ∈ as, f a = (g a).findSome? k) : as.findSome? f = (as.flatMap g).findSome? k := by
  induction as with
  | nil => rfl
  | cons a as ih =>
    obtain ⟨ha, has⟩ := List.forall_mem_cons.mp h
    rw [List.findSome?_cons, List.flatMap_cons, List.findSome?_append, ih has, ← ha]
    cases f a <;> rfl

end Outcome

open Outcome (failure? failure?_bind failure?_bind_pure failure?_mapM)

namespace Descriptor

open Emission (Defect Shape acceptedShapes)

/-! ### Defects of fields and variants -/

/-- What is wrong with a field. -/
def Field.defect? (f : Field) : Option Defect :=
  match f.role with
  | .other word => some (.unknownRole word f.name)
  | _ => none

/-- Nothing is wrong with a field exactly if it is sound. -/
theorem Field.defect?_eq_none_iff {f : Field} : f.defect? = none ↔ f.IsSound := by
  unfold defect? IsSound
  cases f.role <;> simp

/-- A field is wrong by its role. -/
theorem Field.defect?_eq_some_iff {f : Field} {defect : Defect} :
    f.defect? = some defect ↔ ∃ word, f.role = .other word ∧ .unknownRole word f.name = defect := by
  unfold defect?
  cases f.role <;> simp

/-- What is wrong with a variant if some shapes have no name. -/
def Variant.defect? (nameless : List Shape) (v : Variant) : Option Defect :=
  (acceptedShapes v).findSome? fun shape =>
    if shape ∈ nameless then some (.unknownShape shape v.name) else none

/-- Nothing is wrong with a variant exactly if all shapes that it accepts have names. -/
theorem Variant.defect?_eq_none_iff {nameless : List Shape} {v : Variant} :
    v.defect? nameless = none ↔ ∀ shape ∈ acceptedShapes v, shape ∉ nameless := by
  simp [defect?]

/-- A variant is wrong by the first shape without a name that it accepts. -/
theorem Variant.defect?_eq_some_iff {nameless : List Shape} {v : Variant} {defect : Defect} :
    v.defect? nameless = some defect ↔ ∃ named shape rest,
      acceptedShapes v = named ++ shape :: rest ∧ (∀ s ∈ named, s ∉ nameless) ∧
        shape ∈ nameless ∧ .unknownShape shape v.name = defect := by
  rw [defect?, List.findSome?_eq_some_iff]
  constructor
  · rintro ⟨named, shape, rest, hshapes, hshape, hnamed⟩
    split at hshape
    · next hmem =>
      exact ⟨named, shape, rest, hshapes, by simpa using hnamed, hmem, Option.some.inj hshape⟩
    · cases hshape
  · rintro ⟨named, shape, rest, hshapes, hnamed, hmem, rfl⟩
    exact ⟨named, shape, rest, hshapes, if_pos hmem, by simpa using hnamed⟩

end Descriptor

/-- The variants of a file, in the order of the declarations. -/
def Descriptor.allVariants (d : Descriptor) : List Descriptor.Variant :=
  d.enumerations.flatMap Descriptor.Enumeration.variants

namespace Emission

/-! ### Why the parts of a module are missing -/

/-- A field has no parameter if something is wrong with it. -/
theorem failure?_parameter (f : Descriptor.Field) : failure? (parameter f) = f.defect? := by
  unfold parameter Descriptor.Field.defect?
  cases f.role <;> rfl

/-- A variant with a message has no class if something is wrong with a field. -/
theorem failure?_variantClass {v : Descriptor.Variant} (h : v.messages ≠ []) :
    failure? (variantClass v) = v.fields.findSome? Descriptor.Field.defect? := by
  obtain ⟨first, rest, hmessages⟩ := List.exists_cons_of_ne_nil h
  have hinit : failure? (initMethod v.fields) = v.fields.findSome? Descriptor.Field.defect? := by
    rw [initMethod, failure?_bind_pure, failure?_mapM]
    simp only [failure?_parameter]
  rw [variantClass, hmessages]
  by_cases hunit : v.fields = []
  · rw [Descriptor.Variant.isUnit, hunit]
    rfl
  · rw [← hinit, Descriptor.Variant.isUnit, List.isEmpty_eq_false_iff.mpr hunit]
    cases initMethod v.fields <;> rfl

/-- An enumeration has no classes if something is wrong with a field of a variant. -/
theorem failure?_classBlocks {e : Descriptor.Enumeration} (h : ∀ v ∈ e.variants, v.messages ≠ []) :
    failure? (classBlocks e) =
      (e.variants.flatMap Descriptor.Variant.fields).findSome? Descriptor.Field.defect? := by
  rw [classBlocks, failure?_bind_pure, failure?_mapM]
  exact Outcome.findSome?_flatMap fun v hv => failure?_variantClass (h v hv)

/-- A variant has no selector if it accepts a shape without a name. -/
theorem failure?_bindingBlocks (nameless : List Shape) (v : Descriptor.Variant) :
    failure? (bindingBlocks nameless v) = v.defect? nameless := by
  rw [bindingBlocks, failure?_bind_pure, selector, failure?_bind_pure, shapeTuple,
    failure?_bind_pure, failure?_mapM, Descriptor.Variant.defect?]
  congr 1
  funext shape
  by_cases hmem : shape ∈ nameless <;> simp [failure?, hmem]

/-- **The first defect of a file**: that of the first field without a role, and if there is none,
that of the first variant that accepts a shape without a name. -/
theorem failure?_generate (options : ModuleOptions) {d : Descriptor}
    (h : ∀ v ∈ d.allVariants, v.messages ≠ []) :
    failure? (generate options d) =
      ((d.allVariants.flatMap Descriptor.Variant.fields).findSome? Descriptor.Field.defect?).or
        (d.allVariants.findSome? (Descriptor.Variant.defect? options.nameless)) := by
  have hclasses : failure? (d.enumerations.mapM classBlocks) =
      (d.allVariants.flatMap Descriptor.Variant.fields).findSome? Descriptor.Field.defect? := by
    rw [failure?_mapM, Descriptor.allVariants, List.flatMap_assoc]
    exact Outcome.findSome?_flatMap fun e he => failure?_classBlocks fun v hv =>
      h v (List.mem_flatMap_of_mem he hv)
  have hbindings : failure? (d.allVariants.mapM (bindingBlocks options.nameless)) =
      d.allVariants.findSome? (Descriptor.Variant.defect? options.nameless) := by
    rw [failure?_mapM]
    simp only [failure?_bindingBlocks]
  rw [generate, failure?_bind_pure, blocks, ← hclasses]
  exact failure?_bind fun _ _ => (failure?_bind_pure _ _).trans hbindings

/-! ### Modules -/

/-- Whether there is no module, and the internal error has the given label and message. -/
def FailsWith (options : ModuleOptions) (d : Descriptor) (label message : String) : Prop :=
  ∃ defect code values, generate options d = .error defect ∧
    defect.diagnostic? = some (code, values) ∧ code.entry.label = label ∧
      code.message values = .ok message

/-- The internal error about a role. -/
theorem failsWith_role_iff {options : ModuleOptions} {d : Descriptor} {message : String} :
    FailsWith options d "CE0001" message ↔
      ∃ word name, generate options d = .error (.unknownRole word name) ∧
        message = "unknown field role '" ++ word ++ "' on field '" ++ name ++ "'" := by
  constructor
  · rintro ⟨defect, code, values, hfails, hdiagnostic, hlabel, hmessage⟩
    cases defect with
    | unknownRole word name =>
      cases hdiagnostic
      refine ⟨word, name, hfails, (Except.ok.inj hmessage).symm.trans ?_⟩
      simp [String.append_assoc]
    | unknownShape shape variant =>
      cases hdiagnostic
      exact absurd hlabel (by decide)
    | noMessage => cases hdiagnostic
  · rintro ⟨word, name, hfails, rfl⟩
    refine ⟨_, _, _, hfails, rfl, rfl, congrArg Except.ok ?_⟩
    simp [String.append_assoc]

/-- The internal error about a shape. -/
theorem failsWith_shape_iff {options : ModuleOptions} {d : Descriptor} {message : String} :
    FailsWith options d "CE0002" message ↔
      ∃ shape variant, generate options d = .error (.unknownShape shape variant) ∧
        message = "unknown residual shape '" ++ ("Shape." ++ shape.name) ++ "' for variant '" ++
          variant ++ "'" := by
  constructor
  · rintro ⟨defect, code, values, hfails, hdiagnostic, hlabel, hmessage⟩
    cases defect with
    | unknownRole word name =>
      cases hdiagnostic
      exact absurd hlabel (by decide)
    | unknownShape shape variant =>
      cases hdiagnostic
      refine ⟨shape, variant, hfails, (Except.ok.inj hmessage).symm.trans ?_⟩
      simp [String.append_assoc]
    | noMessage => cases hdiagnostic
  · rintro ⟨shape, variant, hfails, rfl⟩
    refine ⟨_, _, _, hfails, rfl, rfl, congrArg Except.ok ?_⟩
    simp [String.append_assoc]

/-! ### The first defect -/

/-- There is no module for the role of the first field without one. -/
theorem generate_eq_unknownRole_iff (options : ModuleOptions) {d : Descriptor}
    (h : ∀ v ∈ d.allVariants, v.messages ≠ []) {word name : String} :
    generate options d = .error (.unknownRole word name) ↔ ∃ sound field rest,
      d.allVariants.flatMap Descriptor.Variant.fields = sound ++ field :: rest ∧
        (∀ f ∈ sound, f.IsSound) ∧ field.role = .other word ∧ field.name = name := by
  have hshape : ¬ d.allVariants.findSome? (Descriptor.Variant.defect? options.nameless) =
      some (.unknownRole word name) := by
    intro hfound
    obtain ⟨-, v, -, -, hv, -⟩ := List.findSome?_eq_some_iff.mp hfound
    obtain ⟨-, shape, -, -, -, -, hdefect⟩ := Descriptor.Variant.defect?_eq_some_iff.mp hv
    cases hdefect
  rw [← Outcome.failure?_eq_some_iff, failure?_generate options h, Option.or_eq_some_iff,
    or_iff_left fun hfound => hshape hfound.2, List.findSome?_eq_some_iff]
  simp only [Descriptor.Field.defect?_eq_some_iff, Descriptor.Field.defect?_eq_none_iff]
  constructor
  · rintro ⟨sound, field, rest, hfields, ⟨_, hrole, hdefect⟩, hsound⟩
    cases hdefect
    exact ⟨sound, field, rest, hfields, hsound, hrole, rfl⟩
  · rintro ⟨sound, field, rest, hfields, hsound, hrole, rfl⟩
    exact ⟨sound, field, rest, hfields, ⟨word, hrole, rfl⟩, hsound⟩

/-- There is no module for the first shape without a name that the first variant to accept one
accepts, if all fields have roles. -/
theorem generate_eq_unknownShape_iff (options : ModuleOptions) {d : Descriptor}
    (h : ∀ v ∈ d.allVariants, v.messages ≠ []) {shape : Shape} {variant : String} :
    generate options d = .error (.unknownShape shape variant) ↔
      (∀ f ∈ d.allVariants.flatMap Descriptor.Variant.fields, f.IsSound) ∧
        ∃ earlier v later named rest, d.allVariants = earlier ++ v :: later ∧
          (∀ w ∈ earlier, ∀ s ∈ acceptedShapes w, s ∉ options.nameless) ∧
            acceptedShapes v = named ++ shape :: rest ∧ (∀ s ∈ named, s ∉ options.nameless) ∧
              shape ∈ options.nameless ∧ v.name = variant := by
  have hrole : ¬ (d.allVariants.flatMap Descriptor.Variant.fields).findSome?
      Descriptor.Field.defect? = some (.unknownShape shape variant) := by
    intro hfound
    obtain ⟨-, f, -, -, hf, -⟩ := List.findSome?_eq_some_iff.mp hfound
    obtain ⟨word, -, hdefect⟩ := Descriptor.Field.defect?_eq_some_iff.mp hf
    cases hdefect
  rw [← Outcome.failure?_eq_some_iff, failure?_generate options h, Option.or_eq_some_iff,
    or_iff_right hrole, List.findSome?_eq_none_iff, List.findSome?_eq_some_iff]
  simp only [Descriptor.Field.defect?_eq_none_iff, Descriptor.Variant.defect?_eq_none_iff,
    Descriptor.Variant.defect?_eq_some_iff]
  refine and_congr_right fun _ => ⟨?_, ?_⟩
  · rintro ⟨earlier, v, later, hvariants, ⟨named, _, rest, hshapes, hnamed, hmem, hdefect⟩,
      hearlier⟩
    cases hdefect
    exact ⟨earlier, v, later, named, rest, hvariants, hearlier, hshapes, hnamed, hmem, rfl⟩
  · rintro ⟨earlier, v, later, named, rest, hvariants, hearlier, hshapes, hnamed, hmem, rfl⟩
    exact ⟨earlier, v, later, hvariants, ⟨named, shape, rest, hshapes, hnamed, hmem, rfl⟩, hearlier⟩

/-- There is a module exactly if all fields have roles and all accepted shapes have names. -/
theorem exists_generate_iff (options : ModuleOptions) {d : Descriptor}
    (h : ∀ v ∈ d.allVariants, v.messages ≠ []) :
    (∃ code, generate options d = .ok code) ↔
      (∀ f ∈ d.allVariants.flatMap Descriptor.Variant.fields, f.IsSound) ∧
        ∀ v ∈ d.allVariants, ∀ s ∈ acceptedShapes v, s ∉ options.nameless := by
  rw [← Outcome.failure?_eq_none_iff, failure?_generate options h, Option.or_eq_none_iff,
    List.findSome?_eq_none_iff, List.findSome?_eq_none_iff]
  simp only [Descriptor.Field.defect?_eq_none_iff, Descriptor.Variant.defect?_eq_none_iff]

/-- No module is missing for want of a message. -/
theorem generate_ne_noMessage (options : ModuleOptions) {d : Descriptor}
    (h : ∀ v ∈ d.allVariants, v.messages ≠ []) : generate options d ≠ .error .noMessage := by
  rw [Ne, ← Outcome.failure?_eq_some_iff, failure?_generate options h, Option.or_eq_some_iff]
  rintro (hfound | ⟨-, hfound⟩)
  · obtain ⟨-, f, -, -, hf, -⟩ := List.findSome?_eq_some_iff.mp hfound
    obtain ⟨word, -, hdefect⟩ := Descriptor.Field.defect?_eq_some_iff.mp hf
    cases hdefect
  · obtain ⟨-, v, -, -, hv, -⟩ := List.findSome?_eq_some_iff.mp hfound
    obtain ⟨-, shape, -, -, -, -, hdefect⟩ := Descriptor.Variant.defect?_eq_some_iff.mp hv
    cases hdefect

/-! ### Whole modules -/

/-- Blocks that leave out nothing of a file. -/
structure OmitsNothing (nameless : List Shape) (d : Descriptor) (bs : List Lines) : Prop where
  /-- The classes of the enumerations, with the statements that register their variants. -/
  enumerations : ∀ e ∈ d.enumerations, enumerationClass e ∈ bs ∧ registration e ∈ bs
  /-- The classes of the variants. -/
  classes : ∀ v ∈ d.allVariants, ∃ block ∈ bs, variantClass v = .ok block
  /-- The selectors of the variants. -/
  selectors : ∀ v ∈ d.allVariants, ∃ block ∈ bs, selector nameless v = .ok block
  /-- The functions that make errors of the variants that have one. -/
  constructors : ∀ v ∈ d.allVariants, ∀ name, v.constructor? = some name → constructor v name ∈ bs

/-- The selector of a variant is one of the blocks of a module. -/
theorem exists_mem_blocks_selector {nameless : List Shape} {d : Descriptor} {bs : List Lines}
    (h : blocks nameless d = .ok bs) {e : Descriptor.Enumeration} (he : e ∈ d.enumerations)
    {v : Descriptor.Variant} (hv : v ∈ e.variants) :
    ∃ block ∈ bs, selector nameless v = .ok block := by
  obtain ⟨classes, -, hmade⟩ := Outcome.bind_eq_ok_iff.mp h
  obtain ⟨bindings, hbindings, -⟩ := Outcome.bind_eq_ok_iff.mp hmade
  obtain ⟨own, -, hown⟩ :=
    Outcome.exists_mem_of_mapM hbindings (List.mem_flatMap.mpr ⟨e, he, hv⟩)
  obtain ⟨block, hblock, -⟩ := Outcome.bind_eq_ok_iff.mp hown
  exact ⟨block, (mem_blocks_iff h).mpr ⟨e, he, .inr (.inr ⟨v, hv, .inr (.inl hblock)⟩)⟩, hblock⟩

/-- The blocks of a module leave out nothing. -/
theorem omitsNothing_of_blocks {nameless : List Shape} {d : Descriptor} {bs : List Lines}
    (h : blocks nameless d = .ok bs) : OmitsNothing nameless d bs where
  enumerations e he :=
    ⟨(mem_blocks_iff h).mpr ⟨e, he, .inl rfl⟩, (mem_blocks_iff h).mpr ⟨e, he, .inr (.inl rfl)⟩⟩
  classes v hv := by
    obtain ⟨e, he, hv⟩ := List.mem_flatMap.mp hv
    exact exists_mem_blocks_variantClass h he hv
  selectors v hv := by
    obtain ⟨e, he, hv⟩ := List.mem_flatMap.mp hv
    exact exists_mem_blocks_selector h he hv
  constructors v hv name hname := by
    obtain ⟨e, he, hv⟩ := List.mem_flatMap.mp hv
    exact (mem_blocks_iff h).mpr
      ⟨e, he, .inr (.inr ⟨v, hv, .inr (.inr ⟨name, hname, rfl⟩)⟩)⟩

/-- **When there is no module, and for which defect**: for the first field without a role, or else
for the first shape without a name. Nothing else stands in the way, and a module is whole. -/
theorem generate_fails_first (options : ModuleOptions) (d : Descriptor)
    (h : ∀ v ∈ d.allVariants, v.messages ≠ []) :
    (∀ message, FailsWith options d "CE0001" message ↔ ∃ sound field rest word,
      d.allVariants.flatMap Descriptor.Variant.fields = sound ++ field :: rest ∧
        (∀ f ∈ sound, f.IsSound) ∧ field.role = .other word ∧
          message = "unknown field role '" ++ word ++ "' on field '" ++ field.name ++ "'") ∧
    (∀ message, FailsWith options d "CE0002" message ↔
      (∀ f ∈ d.allVariants.flatMap Descriptor.Variant.fields, f.IsSound) ∧
        ∃ earlier v later named shape rest, d.allVariants = earlier ++ v :: later ∧
          (∀ w ∈ earlier, ∀ s ∈ acceptedShapes w, s ∉ options.nameless) ∧
            acceptedShapes v = named ++ shape :: rest ∧ (∀ s ∈ named, s ∉ options.nameless) ∧
              shape ∈ options.nameless ∧
                message = "unknown residual shape '" ++ ("Shape." ++ shape.name) ++
                  "' for variant '" ++ v.name ++ "'") ∧
    ((∃ code, generate options d = .ok code) ↔
      (∀ f ∈ d.allVariants.flatMap Descriptor.Variant.fields, f.IsSound) ∧
        ∀ v ∈ d.allVariants, ∀ s ∈ acceptedShapes v, s ∉ options.nameless) ∧
    (∀ code, generate options d = .ok code → ∃ bs, OmitsNothing options.nameless d bs ∧
      code = "\n".intercalate (titleLine options.sourceName ::
        spaced (header options.runtimeModule d :: bs)) ++ "\n") ∧
    ∀ defect, generate options d = .error defect → ∃ message,
      FailsWith options d "CE0001" message ∨ FailsWith options d "CE0002" message := by
  refine ⟨fun message => ?_, fun message => ?_, exists_generate_iff options h,
    fun code hcode => ?_, fun defect hdefect => ?_⟩
  · rw [failsWith_role_iff]
    simp only [generate_eq_unknownRole_iff options h]
    constructor
    · rintro ⟨word, _, ⟨sound, field, rest, hfields, hsound, hrole, rfl⟩, hmessage⟩
      exact ⟨sound, field, rest, word, hfields, hsound, hrole, hmessage⟩
    · rintro ⟨sound, field, rest, word, hfields, hsound, hrole, hmessage⟩
      exact ⟨word, field.name, ⟨sound, field, rest, hfields, hsound, hrole, rfl⟩, hmessage⟩
  · rw [failsWith_shape_iff]
    simp only [generate_eq_unknownShape_iff options h]
    constructor
    · rintro ⟨shape, _, ⟨hfields, earlier, v, later, named, rest, hvariants, hearlier, hshapes,
        hnamed, hmem, rfl⟩, hmessage⟩
      exact ⟨hfields, earlier, v, later, named, shape, rest, hvariants, hearlier, hshapes, hnamed,
        hmem, hmessage⟩
    · rintro ⟨hfields, earlier, v, later, named, shape, rest, hvariants, hearlier, hshapes, hnamed,
        hmem, hmessage⟩
      exact ⟨shape, v.name, ⟨hfields, earlier, v, later, named, rest, hvariants, hearlier, hshapes,
        hnamed, hmem, rfl⟩, hmessage⟩
  · obtain ⟨bs, hbs, hcode⟩ := Outcome.bind_eq_ok_iff.mp hcode
    cases hcode
    exact ⟨bs, omitsNothing_of_blocks hbs, rfl⟩
  · cases defect with
    | unknownRole word name => exact ⟨_, .inl (failsWith_role_iff.mpr ⟨word, name, hdefect, rfl⟩)⟩
    | unknownShape shape variant =>
      exact ⟨_, .inr (failsWith_shape_iff.mpr ⟨shape, variant, hdefect, rfl⟩)⟩
    | noMessage => exact absurd hdefect (generate_ne_noMessage options h)

/-- A variant `V` of `A` that wraps no error, and a variant `W` of `B` that wraps one and holds a
field of some role. -/
def roleBehindShape (role : Descriptor.Role) : Descriptor :=
  { imports := []
    enumerations :=
      [{ name := "A", isTopLevel := false, span := none, nameSpan := none
         variants :=
          [{ enumeration := "A", name := "V", helps := [], fields := []
             messages := [⟨[], [], [], none⟩], span := none, nameSpan := none }] },
       { name := "B", isTopLevel := false, span := none, nameSpan := none
         variants :=
          [{ enumeration := "B", name := "W", helps := []
             fields := [⟨"source", "OSError", .source, none, none⟩, ⟨"x", "int", role, none, none⟩]
             messages := [⟨[], [], [], none⟩], span := none, nameSpan := none }] }] }

/-- The role of a field of the second enumeration counts before the shape without a name that the
first one accepts. -/
theorem generate_fails_first_role :
    FailsWith { nameless := [.empty] } (roleBehindShape (.other "bogus")) "CE0001"
      "unknown field role 'bogus' on field 'x'" ∧
    FailsWith { nameless := [.empty] } (roleBehindShape .selector) "CE0002"
      "unknown residual shape 'Shape.EMPTY' for variant 'V'" ∧
    ∃ code, generate {} (roleBehindShape .selector) = .ok code := by
  refine ⟨((generate_fails_first _ _ (by decide)).1 _).mpr
      ⟨[⟨"source", "OSError", .source, none, none⟩], ⟨"x", "int", .other "bogus", none, none⟩, [],
        "bogus", rfl, ?_, rfl, by decide⟩,
    ((generate_fails_first _ _ (by decide)).2.1 _).mpr
      ⟨?_, [], _, _, [.anyError], .empty, [], rfl, by simp, rfl, by decide, by decide, by decide⟩,
    (generate_fails_first _ _ (by decide)).2.2.1.mpr ⟨?_, by decide⟩⟩ <;>
  simp [roleBehindShape, Descriptor.allVariants, Descriptor.Field.IsSound]

end Emission

end Errata
