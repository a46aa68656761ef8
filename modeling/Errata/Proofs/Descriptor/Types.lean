import Errata.Proofs.Descriptor.Origin
import Errata.Proofs.Descriptor.Severity
import Errata.Proofs.Descriptor.WellFormed
import Errata.Proofs.Syntax.TypeText

/-!
# The types of described fields

A type is handed from a declaration to the descriptor as it is. So if there is no error in a file,
the types of the described fields are those of the declared ones, in order.

* `Descriptor.types`: the types of the fields of a file.
* `makes_enumeration_types`: the types of a described declaration.
* **`types_of_describe`**: those of a described file without errors.
-/

namespace Errata

namespace Descriptor

/-- The types of the fields of a variant. -/
def Variant.types (v : Variant) : List String :=
  v.fields.map Field.type

/-- The types of the fields of an enumeration. -/
def Enumeration.types (e : Enumeration) : List String :=
  e.variants.flatMap Variant.types

end Descriptor

/-- The types of the fields of a file. -/
def Descriptor.types (d : Descriptor) : List String :=
  d.enumerations.flatMap Enumeration.types

namespace Descriptor

/-! ### Declarations -/

/-- A described field has the declared type. -/
theorem makes_field_type (variant : String) (earlier : List Field) (f : Syntax.Field) :
    Makes (fun g => f.type.toList = [g.type]) (field variant earlier f) := by
  unfold field
  dsimp only
  split
  · next type htype =>
    refine (makes_checkName _ _ _).bind fun _ _ => ?_
    refine Makes.bind (yields_forM (fun a => ?_) f.attributes).makes fun _ _ => ?_
    · split
      · exact yields_pure trivial
      · exact yields_noteUnknown a
    · refine (makes_role earlier f).bind fun role _ => ?_
      split
      · exact makes_refuse _ _
      · apply makes_pure
        rw [htype]
        rfl
  · exact makes_refuse _ _

/-- Described fields have the types of the earlier ones, and then the declared types. -/
theorem makes_fields_types (variant : String) (earlier : List Field) (fs : List Syntax.Field) :
    Makes (fun fields => fields.map Field.type =
      earlier.map Field.type ++ fs.flatMap fun f => f.type.toList) (fields variant earlier fs) := by
  induction fs generalizing earlier with
  | nil => exact makes_pure (List.append_nil _).symm
  | cons f rest ih =>
    refine (makes_field_type variant earlier f).bind fun g hg =>
      (ih _).mono fun fields hfields => ?_
    rw [hfields, List.map_append, List.flatMap_cons, hg, List.append_assoc]
    rfl

variable [Expression.Capacity]

/-- A described variant has the declared types. -/
theorem makes_variant_types (strict : Bool) (enumeration : String) (v : Syntax.Variant) :
    Makes (fun w => w.types = v.shape.types) (variant strict enumeration v) := by
  unfold variant
  dsimp only
  refine (makes_checkName _ _ _).bind fun _ _ =>
    (makes_messages strict v.attributes).bind fun ms _ => ?_
  -- what is left is the same whichever shape the variant has
  have hdescribed : ∀ declared : List Field, declared.map Field.type = v.shape.types →
      Makes (fun w : Variant => w.types = v.shape.types)
        ((ms.1 ++ ms.2).forM (noteNonFields ⟨enumeration, String.ofList v.name.text, ms.1, ms.2,
            declared, v.span, v.name.span⟩) >>= fun _ =>
          pure ⟨enumeration, String.ofList v.name.text, ms.1, ms.2, declared, v.span,
            v.name.span⟩) := by
    intro declared hdeclared
    refine (yields_forM (fun m : Message => yields_forM (fun a => ?_) m.arguments) _).makes.bind
      fun _ _ => makes_pure hdeclared
    split
    · exact yields_note _ _
    · exact yields_pure trivial
  split
  · exact makes_refuse _ _
  · split
    · next hshape =>
      apply hdescribed
      rw [hshape]
      rfl
    · exact makes_refuse _ _
    · exact makes_refuse _ _
    · next fs hshape =>
      refine (makes_fields_types _ [] fs).bind fun declared hdeclared => hdescribed declared ?_
      rw [hdeclared, hshape]
      rfl

/-- Described variants have the types of the earlier ones, and then the declared types. -/
theorem makes_variants_types (strict : Bool) (enumeration : String) (earlier : List Variant)
    (vs : List Syntax.Variant) :
    Makes (fun ws => ws.flatMap Variant.types =
      earlier.flatMap Variant.types ++ vs.flatMap fun v => v.shape.types)
      (variants strict enumeration earlier vs) := by
  induction vs generalizing earlier with
  | nil => exact makes_pure (List.append_nil _).symm
  | cons v rest ih =>
    refine (makes_variant_types strict enumeration v).bind fun w hw => ?_
    split
    · exact makes_refuse _ _
    · refine (ih _).mono fun ws hws => ?_
      rw [hws, List.flatMap_append, List.flatMap_cons, List.flatMap_cons, List.flatMap_nil, hw,
        List.append_nil, List.append_assoc]

/-- **A described declaration has the declared types.** -/
theorem makes_enumeration_types (strict : Bool) (d : Syntax.Declaration) :
    Makes (fun e => e.types = d.body.types) (enumeration strict d) := by
  by_cases h : d.kind.terminal = .enumWord ∧ d.innerAttributes = []
  · have hdeclared : Makes (fun ws => ws.flatMap Variant.types = d.body.types)
        (declared strict d) := by
      unfold declared
      split
      · exact makes_refuse _ _
      · next hbody =>
        apply makes_pure
        rw [hbody]
        rfl
      · next vs hbody =>
        rw [hbody]
        exact makes_variants_types strict _ [] vs
    rw [enumeration_eq h.1 h.2]
    exact (makes_checkName _ _ _).bind fun _ _ =>
      (yields_topLevel false d.attributes).makes.bind fun _ _ =>
        hdeclared.bind fun ws hws => makes_pure hws
  · obtain ⟨problem, span, -, hrefuse⟩ := enumeration_eq_refuse h
    rw [hrefuse]
    exact makes_refuse problem span

/-! ### Files -/

/-- An item that is added without an error adds its types. -/
theorem types_of_addItem {strict : Bool} {d d' : Descriptor} {item : Syntax.Item}
    (h : outcome (addItem strict d item) = .ok d')
    (hfound : ∀ f ∈ findings (addItem strict d item), f.problem.severity = .warning) :
    d'.types = d.types ++ item.types := by
  cases item with
  | importModule path newName span =>
    cases h
    exact (List.append_nil _).symm
  | importNames dots path names span =>
    cases h
    exact (List.append_nil _).symm
  | declaration declaration =>
    obtain ⟨e, hmade, -, rfl⟩ := addItem_of_warnings h hfound
    rw [types, List.flatMap_append, List.flatMap_cons, List.flatMap_nil, List.append_nil,
      (makes_enumeration_types strict declaration).holds e hmade]
    rfl

/-- Items that are added without an error add their types. -/
theorem types_of_addItems {strict : Bool} {d d' : Descriptor} {items : List Syntax.Item}
    (h : outcome (items.foldlM (addItem strict) d) = .ok d')
    (hfound : ∀ f ∈ findings (items.foldlM (addItem strict) d), f.problem.severity = .warning) :
    d'.types = d.types ++ items.flatMap Syntax.Item.types := by
  induction items generalizing d with
  | nil =>
    cases h
    exact (List.append_nil _).symm
  | cons item items ih =>
    obtain ⟨first, hfirst, hrest⟩ := addItems_cons_eq_ok_iff.mp h
    rw [List.foldlM_cons, findings_bind_of_ok (isSteady_addItem strict d item) hfirst
      (isSteady_addItems strict first items), List.forall_mem_append] at hfound
    rw [ih hrest hfound.2, types_of_addItem hfirst hfound.1, List.flatMap_cons, List.append_assoc]

end Descriptor

/-- **The types of a described file** without errors are those of its items, in order. -/
theorem types_of_describe [Expression.Capacity]
    {strict : Bool} {items : List Syntax.Item} {description : Description}
    (h : describe strict items = .ok description)
    (hwarnings : ∀ f ∈ description.findings, f.problem.severity = .warning) :
    description.descriptor.types = items.flatMap Syntax.Item.types := by
  obtain ⟨hmade, hfound⟩ := describe_eq_ok_iff.mp h
  rw [hfound, List.forall_mem_append] at hwarnings
  exact Descriptor.types_of_addItems hmade hwarnings.1

end Errata
