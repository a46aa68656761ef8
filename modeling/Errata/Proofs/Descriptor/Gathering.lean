import Errata.Descriptor.Build

/-!
# Gathering the fields of a variant

The fields of a variant can also be gathered in a record that keeps those for the wrapped error and
for the place apart, each from the moment that its mark is read: before its name is compared with
those of the earlier fields, and before it is one of the fields. A second mark is then told by the
place that is taken. Looking the two up among the fields comes to the same, whatever is found or
violated on the way.

* `Gathered`, `Gathered.add`: the record, and how a field is put into it.
* `Gathered.ofFields`: the record of fields in which the two are looked up.
* `add_ofFields`: adding a field to such a record describes the field among the earlier ones.
* **`gather_eq`**: gathering fields is describing them and then looking the two up.
-/

namespace Errata.Descriptor

/-- What is known of a variant while its fields are read. -/
structure Gathered where
  /-- The fields so far. -/
  fields : List Field := []
  /-- The field for the wrapped error, once its mark was read. -/
  source? : Option Field := none
  /-- The field for the place, once its mark was read. -/
  location? : Option Field := none
deriving DecidableEq, Repr

namespace Gathered

/-- Reads the marks of a field. What is marked is kept at once. -/
def mark (g : Gathered) (f : Syntax.Field) (described : Field) :
    Describing (Gathered × Field) := do
  let marks := f.attributes.map Syntax.Attribute.name
  if marks.contains "source" then
    if described.name ≠ "source" then refuse .misnamedSource f.name.span
    if g.source?.isSome then refuse .secondSource f.span
    let described := { described with role := .source }
    return ({ g with source? := some described }, described)
  else if marks.contains "location" then
    if described.name ≠ "location" then refuse .misnamedLocation f.name.span
    if g.location?.isSome then refuse .secondLocation f.span
    let described := { described with role := .location }
    return ({ g with location? := some described }, described)
  else
    return (g, described)

/-- Reads a field and puts it behind those that were read before. -/
def add (variant : String) (g : Gathered) (f : Syntax.Field) : Describing Gathered := do
  let name := String.ofList f.name.text
  let some type := f.type | refuse (.untypedField name) f.span
  checkName "field" inheritedFields f.name
  f.attributes.forM fun a =>
    if a.name = "source" ∨ a.name = "location" then return () else noteUnknown a
  let (g, described) ← g.mark f ⟨name, type, .selector, f.span, f.name.span⟩
  if g.fields.any fun e => e.name = name then
    refuse (.duplicateField name variant) f.name.span
  return { g with fields := g.fields ++ [described] }

/-- The record of fields in which those with a mark are looked up. -/
def ofFields (fields : List Field) : Gathered :=
  ⟨fields, fields.find? fun f => f.role = .source, fields.find? fun f => f.role = .location⟩

/-- Whether a field with a role is found says whether there is one. -/
theorem isSome_find?_role (fields : List Field) (role : Role) :
    (fields.find? fun f => f.role = role).isSome = fields.any fun f => f.role = role := by
  rw [Bool.eq_iff_iff, List.find?_isSome, List.any_eq_true]

/-- **Reading the marks of a field** keeps what is looked up once the field is one of them. -/
theorem mark_ofFields (earlier : List Field) (f : Syntax.Field) (type : String) :
    (ofFields earlier).mark f ⟨String.ofList f.name.text, type, .selector, f.span, f.name.span⟩ =
      role earlier f >>= fun role =>
        let described : Field := ⟨String.ofList f.name.text, type, role, f.span, f.name.span⟩
        pure ({ ofFields (earlier ++ [described]) with fields := earlier }, described) := by
  have hnone : ∀ role, (earlier.any fun g => g.role = role) = false →
      earlier.find? (fun g => g.role = role) = none := by
    intro role h
    rwa [← isSome_find?_role, Option.isSome_eq_false_iff, Option.isNone_iff_eq_none] at h
  unfold mark role
  dsimp only
  by_cases hsource : (f.attributes.map Syntax.Attribute.name).contains "source" = true
  · rw [if_pos hsource, if_pos hsource]
    by_cases hname : String.ofList f.name.text = "source"
    · cases hany : earlier.any fun g => g.role = .source with
      | true => simp [hname, hany, ofFields, isSome_find?_role, refuse, -List.any_eq_true]
      | false => simp [hname, hany, ofFields, hnone]
    · simp [hname, refuse]
  · rw [if_neg hsource, if_neg hsource]
    by_cases hlocation : (f.attributes.map Syntax.Attribute.name).contains "location" = true
    · rw [if_pos hlocation, if_pos hlocation]
      by_cases hname : String.ofList f.name.text = "location"
      · cases hany : earlier.any fun g => g.role = .location with
        | true => simp [hname, hany, ofFields, isSome_find?_role, refuse, -List.any_eq_true]
        | false => simp [hname, hany, ofFields, hnone]
      · simp [hname, refuse]
    · rw [if_neg hlocation, if_neg hlocation]
      simp [ofFields]

/-- **Adding a field** to the record of earlier fields describes it among them. -/
theorem add_ofFields (variant : String) (earlier : List Field) (f : Syntax.Field) :
    (ofFields earlier).add variant f =
      field variant earlier f >>= fun e => pure (ofFields (earlier ++ [e])) := by
  unfold add field
  cases f.type with
  | none => simp [refuse]
  | some type =>
    simp only [mark_ofFields, bind_assoc, pure_bind]
    refine bind_congr fun _ => bind_congr fun _ => bind_congr fun role => ?_
    cases earlier.any fun e => e.name = String.ofList f.name.text with
    | true => simp [refuse]
    | false => simp [ofFields]

end Gathered

/-- **Gathering fields** is describing them and then looking those with a mark up. -/
theorem gather_eq (variant : String) (earlier : List Field) (fs : List Syntax.Field) :
    fs.foldlM (Gathered.add variant) (Gathered.ofFields earlier) =
      fields variant earlier fs >>= fun declared => pure (Gathered.ofFields declared) := by
  induction fs generalizing earlier with
  | nil => rfl
  | cons f rest ih =>
    rw [List.foldlM_cons, Gathered.add_ofFields, fields, bind_assoc, bind_assoc]
    refine bind_congr fun e => ?_
    rw [pure_bind, ih]

end Errata.Descriptor
