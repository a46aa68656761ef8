import Errata.Proofs.Descriptor.WellFormed
import Errata.Proofs.Syntax.Wording

/-!
# How described files are worded

The names of described fields are those that are declared, and so are the types. What an import
says is put together from names. So all of them stand in one line.

* `Field.IsWorded`, `IsWorded`: the fields and the imports of a file that stand in one line.
* `isOneLine_of_importOf?`: the statement that is made of an item.
* `makes_fields_isWorded`, `makes_variant_isWorded`: the fields that are described.
* **`describe_isWorded`**: those of a described file do.
-/

namespace Errata

open Syntax (IsName IsOneLine)

namespace Descriptor

/-- Whether the name of a field is spelled like one, and its type stands in one line. -/
structure Field.IsWorded (f : Field) : Prop where
  /-- Its name is spelled like one. -/
  name : IsName f.name.toList
  /-- Its type stands in one line. -/
  type : IsOneLine f.type

end Descriptor

/-- Whether the imports of a file stand in one line, and its fields are worded well. -/
structure Descriptor.IsWorded (d : Descriptor) : Prop where
  /-- The statements of imports stand in one line. -/
  imports : ∀ i ∈ d.imports, IsOneLine i.text
  /-- The fields are worded well. -/
  fields : ∀ e ∈ d.enumerations, ∀ v ∈ e.variants, ∀ f ∈ v.fields, f.IsWorded

namespace Descriptor

/-! ### Imports -/

/-- A path of names stands in one line. -/
theorem isOneLine_path {path : List String} (h : ∀ name ∈ path, IsName name.toList) :
    IsOneLine (".".intercalate path) :=
  Syntax.isOneLine_intercalate (by decide) fun name hname => (h name hname).isOneLine

/-- The statement that is made of an item stands in one line. -/
theorem isOneLine_of_importOf? {item : Syntax.Item} {i : Import} (hitem : item.IsWorded)
    (h : importOf? item = some i) : IsOneLine i.text := by
  cases item with
  | importModule path newName span =>
    cases h
    refine IsOneLine.append (IsOneLine.append (by decide) (isOneLine_path hitem.1)) ?_
    cases newName with
    | none => exact by decide
    | some newName => exact IsOneLine.append (by decide) (hitem.2 newName rfl).isOneLine
  | importNames dots path names span =>
    cases h
    obtain ⟨hdots, hpath, hnames⟩ := hitem
    have hdots : IsOneLine dots := by
      intro c hc hblank
      rw [hdots c hc] at hblank
      exact absurd hblank (by decide)
    refine ((((show IsOneLine "from " by decide).append hdots).append
      (isOneLine_path hpath)).append (by decide)).append
        (Syntax.isOneLine_intercalate (by decide) ?_)
    intro written hwritten
    obtain ⟨⟨name, newName⟩, hp, rfl⟩ := List.mem_map.mp hwritten
    obtain ⟨hname, hnewName⟩ := hnames _ hp
    cases newName with
    | none => exact hname.isOneLine
    | some newName =>
      exact (hname.isOneLine.append (by decide)).append (hnewName newName rfl).isOneLine
  | declaration d => cases h

/-! ### Fields -/

/-- A described field is worded like the declared one. -/
theorem makes_field_isWorded (variant : String) (earlier : List Field) {f : Syntax.Field}
    (hf : f.IsWorded) : Makes Field.IsWorded (field variant earlier f) := by
  unfold field
  dsimp only
  split
  · next type htype =>
    refine (makes_checkName _ _ _).bind fun _ _ => ?_
    refine Makes.bind (yields_forM (fun a => ?_) f.attributes).makes fun _ _ => ?_
    · split
      · exact yields_pure trivial
      · exact yields_noteUnknown a
    · refine (makes_role earlier f).bind fun role _ => ?_
      split
      · exact makes_refuse _ _
      · exact makes_pure ⟨by simpa using hf.name, hf.type _ htype⟩
  · exact makes_refuse _ _

/-- Described fields are worded well if the declared ones and the earlier ones are. -/
theorem makes_fields_isWorded (variant : String) {earlier : List Field}
    (h : ∀ f ∈ earlier, f.IsWorded) {fs : List Syntax.Field} (hfs : ∀ f ∈ fs, f.IsWorded) :
    Makes (fun fields => ∀ f ∈ fields, f.IsWorded) (fields variant earlier fs) := by
  induction fs generalizing earlier with
  | nil => exact makes_pure h
  | cons f rest ih =>
    rw [List.forall_mem_cons] at hfs
    refine (makes_field_isWorded variant earlier hfs.1).bind fun g hg => ?_
    exact ih (forall_mem_append_singleton h hg) hfs.2

/-- The fields of a described variant are worded well if the declared ones are. -/
theorem makes_variant_isWorded [Expression.Capacity]
    (strict : Bool) (enumeration : String) {v : Syntax.Variant}
    (hv : ∀ fs, v.shape = .named fs → ∀ f ∈ fs, f.IsWorded) :
    Makes (fun w => ∀ f ∈ w.fields, f.IsWorded) (variant strict enumeration v) := by
  unfold variant
  dsimp only
  refine (makes_checkName _ _ _).bind fun _ _ => ?_
  refine (makes_messages strict v.attributes).bind fun ms _ => ?_
  obtain ⟨errors, helps⟩ := ms
  dsimp only
  have hdescribed : ∀ declared : List Field, (∀ f ∈ declared, f.IsWorded) →
      Makes (fun w : Variant => ∀ f ∈ w.fields, f.IsWorded)
        ((errors ++ helps).forM (noteNonFields ⟨enumeration, String.ofList v.name.text, errors,
            helps, declared, v.span, v.name.span⟩) >>= fun _ =>
          pure ⟨enumeration, String.ofList v.name.text, errors, helps, declared, v.span,
            v.name.span⟩) := by
    intro declared hdeclared
    refine (yields_forM (fun m : Message => yields_forM (fun a => ?_) m.arguments) _).makes.bind
      fun _ _ => makes_pure hdeclared
    split
    · exact yields_note _ _
    · exact yields_pure trivial
  split
  · exact makes_refuse _ _
  · split
    · exact hdescribed [] (by simp)
    · exact makes_refuse _ _
    · exact makes_refuse _ _
    · next fs hshape =>
      exact (makes_fields_isWorded _ (by simp) (hv fs hshape)).bind hdescribed

/-- The fields of a described enumeration are worded well if the declared ones are. -/
theorem isWorded_of_enumeration [Expression.Capacity]
    {strict : Bool} {d : Syntax.Declaration} {e : Enumeration}
    (hd : (Syntax.Item.declaration d).IsWorded) (h : outcome (enumeration strict d) = .ok e) :
    ∀ v ∈ e.variants, ∀ f ∈ v.fields, f.IsWorded := by
  obtain ⟨-, isTopLevel, ws, -, hws, rfl⟩ := enumeration_eq_ok_iff.mp h
  unfold declared at hws
  split at hws
  · cases hws
  · cases hws
    simp
  · next vs hbody =>
    have hmade := makes_variants (P := fun w => ∀ f ∈ w.fields, f.IsWorded) strict
      (String.ofList d.name.text) (List.forall_mem_nil _) List.nodup_nil fun v hv =>
        makes_variant_isWorded strict _ (hd vs hbody v hv)
    exact (hmade.holds ws hws).1

end Descriptor

/-- **A described file is worded well** if its items are. -/
theorem describe_isWorded [Expression.Capacity]
    {strict : Bool} {items : List Syntax.Item} {description : Description}
    (hitems : ∀ item ∈ items, item.IsWorded) (h : describe strict items = .ok description) :
    description.descriptor.IsWorded := by
  obtain ⟨himports, henumerations⟩ := describe_origin h
  constructor
  · intro i hi
    rw [himports] at hi
    obtain ⟨item, hitem, hi⟩ := List.mem_filterMap.mp hi
    exact Descriptor.isOneLine_of_importOf? (hitems item hitem) hi
  · intro e he
    obtain ⟨declaration, hdeclaration, hmade⟩ := henumerations e he
    exact Descriptor.isWorded_of_enumeration (hitems _ hdeclaration) hmade

end Errata
