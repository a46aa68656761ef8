import Errata.Proofs.Descriptor.Argument
import Errata.Proofs.Descriptor.Origin
import Mathlib.Data.List.Nodup

/-!
# Well-formed descriptors

What every described file promises: names that may be declared and differ from each other, a message
for every variant, and at most one field for the wrapped error and one for the place. A field gets
its role before its name is compared with those of the earlier fields; it takes both checks to see
that no role is given twice.

* `IsDeclarable`: names that may be declared.
* `Argument.IsWellFormed`, `Variant.IsWellFormed`, `Enumeration.IsWellFormed`, `IsWellFormed`: what
  a described file consists of.
* `makes_fields`, `makes_variant`, `makes_variants`, `makes_enumeration`: what the steps of a
  description make.
* `names_of_enumeration`: the names in an enumeration are those that are declared.
* **`describe_isWellFormed`**: a described file is well-formed.
-/

set_option linter.unusedSectionVars false

namespace Errata

namespace Descriptor

/-! ### What is promised -/

/-- Whether a name may be declared where the given names are reserved. -/
structure IsDeclarable (reserved : List String) (name : String) : Prop where
  /-- It is no keyword. -/
  notKeyword : isKeyword name = false
  /-- It is not the throwaway name. -/
  notThrowaway : name ≠ "_"
  /-- It does not stand between double low lines. -/
  notBetween : ¬(name.startsWith "__" = true ∧ name.endsWith "__" = true)
  /-- It is not kept for generated code. -/
  notGenerated : name.startsWith generatedPrefix = false
  /-- It is not reserved. -/
  notReserved : name ∉ reserved

/-- An argument is well-formed if it is known for a name exactly when it is one, and a name is shown
as it is. -/
structure Argument.IsWellFormed (a : Argument) : Prop where
  /-- It is known for a name exactly if it is an identifier and no keyword. -/
  isField_iff :
    a.isField = true ↔ Unicode.isIdentifier a.text.toList = true ∧ isKeyword a.text = false
  /-- A name is its own expression. -/
  expression : a.isField = true → a.expression = a.text

/-- A field is well-formed if its name may be declared, and its role fits its name. -/
structure Field.IsWellFormed (f : Field) : Prop where
  /-- Its name may be declared. -/
  name : IsDeclarable inheritedFields f.name
  /-- It has one of the three roles. -/
  role : f.IsSound
  /-- The field for the wrapped error is called `source`. -/
  source : f.role = .source → f.name = "source"
  /-- The field for the place is called `location`. -/
  location : f.role = .location → f.name = "location"

/-- A variant is well-formed if it has a message, its names may be declared and its fields differ,
and the field that it knows for the wrapped error, or for the place, is the only one with that role.
-/
structure Variant.IsWellFormed (v : Variant) : Prop where
  /-- Its name may be declared. -/
  name : IsDeclarable inheritedMembers v.name
  /-- It has a message. -/
  messages : v.messages ≠ []
  /-- The arguments of its messages and help texts are well-formed. -/
  arguments : ∀ m ∈ v.messages ++ v.helps, ∀ a ∈ m.arguments, a.IsWellFormed
  /-- Its fields are well-formed. -/
  fields : ∀ f ∈ v.fields, f.IsWellFormed
  /-- Its fields have different names. -/
  fieldNames : v.fieldNames.Nodup
  /-- A field is known for that of the wrapped error exactly if it is the only one with that role.
  -/
  source?_iff : ∀ f, v.source? = some f ↔ v.fieldsOf .source = [f]
  /-- A field is known for that of the place exactly if it is the only one with that role. -/
  location?_iff : ∀ f, v.location? = some f ↔ v.fieldsOf .location = [f]
  /-- The field for the wrapped error is called `source`. -/
  sourceName : ∀ f, v.source? = some f → f.name = "source"
  /-- The field for the place is called `location`. -/
  locationName : ∀ f, v.location? = some f → f.name = "location"

/-- An enumeration is well-formed if its name may be declared, and its variants are well-formed and
differ. -/
structure Enumeration.IsWellFormed (e : Enumeration) : Prop where
  /-- Its name may be declared. -/
  name : IsDeclarable [] e.name
  /-- Its variants are well-formed. -/
  variants : ∀ v ∈ e.variants, v.IsWellFormed
  /-- Its variants know that they belong to it. -/
  owner : ∀ v ∈ e.variants, v.enumeration = e.name
  /-- Its variants have different names. -/
  variantNames : (e.variants.map Variant.name).Nodup

end Descriptor

/-- A file is well-formed if its enumerations are, and differ. -/
structure Descriptor.IsWellFormed (d : Descriptor) : Prop where
  /-- Its enumerations are well-formed. -/
  enumerations : ∀ e ∈ d.enumerations, e.IsWellFormed
  /-- Its enumerations have different names. -/
  names : (d.enumerations.map Descriptor.Enumeration.name).Nodup

namespace Descriptor

/-! ### Names that differ -/

/-- Names differ, one name more at the end. -/
theorem nodup_map_append_singleton {α : Type} {name : α → String} {earlier : List α} {a : α}
    (h : (earlier.map name).Nodup) (ha : ∀ b ∈ earlier, name b ≠ name a) :
    ((earlier ++ [a]).map name).Nodup := by
  rw [List.map_append, List.map_singleton]
  refine h.append (List.nodup_singleton _) ?_
  intro n hn hm
  obtain ⟨b, hb, rfl⟩ := List.mem_map.mp hn
  exact ha b hb (List.mem_singleton.mp hm)

/-- What holds of the entries of a list, one entry more at the end. -/
theorem forall_mem_append_singleton {α : Type} {P : α → Prop} {earlier : List α} {a : α}
    (h : ∀ b ∈ earlier, P b) (ha : P a) : ∀ b ∈ earlier ++ [a], P b := by
  intro b hb
  rcases List.mem_append.mp hb with hb | hb
  · exact h b hb
  · exact List.mem_singleton.mp hb ▸ ha

/-- A checked name may be declared. -/
theorem makes_checkName (what : String) (reserved : List String) (name : Syntax.Token) :
    Makes (fun _ => IsDeclarable reserved (String.ofList name.text))
      (checkName what reserved name) := by
  unfold checkName
  dsimp only
  split
  · exact makes_refuse _ _
  · next h =>
    simp only [Bool.or_eq_true, not_or, isReserved, Bool.and_eq_true, beq_iff_eq,
      Bool.not_eq_true, List.contains_iff_mem] at h
    obtain ⟨⟨⟨⟨hkeyword, hthrowaway⟩, hbetween⟩, hreserved⟩, hgenerated⟩ := h
    exact makes_pure ⟨hkeyword, hthrowaway, hbetween, hgenerated, hreserved⟩

/-! ### Arguments -/

/-- A text consists of characters if what is left of it without the white space around it is
readable: white space is no surrogate. -/
theorem characters?_of_isPlain_strip {text : Text} (h : text.strip.IsPlain) :
    text.characters? = some (text.filterMap CodePoint.char?) := by
  have hchars : ∀ p ∈ text, ∃ c, p = .char c := by
    intro p hp
    cases p with
    | char c => exact ⟨c, rfl⟩
    | surrogate offset =>
      obtain ⟨c, hc, -⟩ := h _ (mem_stripBy CodePoint.isBlank hp rfl)
      exact ⟨c, hc⟩
  clear h
  unfold Text.characters?
  induction text with
  | nil => rfl
  | cons p text ih =>
    obtain ⟨⟨c, rfl⟩, htext⟩ := List.forall_mem_cons.mp hchars
    rw [List.mapM_cons, ih htext]
    rfl

variable [Expression.Capacity]

/-- A described argument is well-formed. -/
theorem isWellFormed_of_argument {span : Span} {a : Placeholder.Argument} {b : Argument}
    (h : argument span a = .ok b) : b.IsWellFormed := by
  unfold argument at h
  dsimp only at h
  split at h
  · next hname =>
    cases h
    refine ⟨iff_of_true rfl ?_, fun _ => rfl⟩
    unfold isName at hname
    split at hname
    · next chars hchars =>
      rw [filterMap_of_characters? hchars, String.toList_ofList]
      simpa using hname
    · cases hname
  · next hname =>
    obtain ⟨e, he, hb⟩ := Outcome.bind_eq_ok_iff.mp h
    cases hb
    refine ⟨iff_of_false Bool.false_ne_true ?_, nofun⟩
    -- An expression was made of the argument, so it holds no surrogate that could be lost.
    have hreadable : a.text.strip.IsReadable := by
      by_contra hunreadable
      have hfault : ∃ u, expression a.text span = .error (.unreadable u) :=
        expression_eq_unreadable_iff.mpr hunreadable
      rw [he] at hfault
      obtain ⟨u, hu⟩ := hfault
      cases hu
    unfold isName at hname
    rw [characters?_of_isPlain_strip hreadable.isPlain] at hname
    rw [String.toList_ofList]
    simpa using hname

/-- The arguments of a compiled literal are well-formed. -/
theorem isWellFormed_of_compileLiteral {strict : Bool} {literal : Syntax.Token} {m : Message}
    (h : compileLiteral strict literal = .ok m) : ∀ a ∈ m.arguments, a.IsWellFormed := by
  unfold compileLiteral at h
  dsimp only at h
  split at h
  · cases h
  · split at h
    · cases h
    · obtain ⟨arguments, harguments, hm⟩ := Outcome.bind_eq_ok_iff.mp h
      cases hm
      intro b hb
      obtain ⟨a, -, hb⟩ := Outcome.exists_of_mem_mapM harguments hb
      exact isWellFormed_of_argument hb

/-- The arguments of a message that an attribute gives are well-formed. -/
theorem makes_message (strict : Bool) (a : Syntax.Attribute) :
    Makes (fun m => ∀ b ∈ m.arguments, b.IsWellFormed) (message strict a) := by
  unfold message
  split
  · exact makes_refuse _ _
  · next token _ =>
    cases hmade : compileLiteral strict token with
    | error e => exact makes_throw e
    | ok m => exact makes_pure (isWellFormed_of_compileLiteral hmade)

/-- The arguments of the messages and the help texts of a variant are well-formed. -/
theorem makes_messages (strict : Bool) (as : List Syntax.Attribute) :
    Makes (fun ms => ∀ m ∈ ms.1 ++ ms.2, ∀ a ∈ m.arguments, a.IsWellFormed)
      (messages strict as) := by
  induction as with
  | nil => exact makes_pure (by simp)
  | cons a rest ih =>
    unfold messages
    split
    · refine (makes_message strict a).bind fun m hm => ih.bind fun ms hms => makes_pure ?_
      exact List.forall_mem_cons.mpr ⟨hm, hms⟩
    · split
      · refine (makes_message strict a).bind fun m hm => ih.bind fun ms hms => makes_pure ?_
        rw [List.forall_mem_append] at hms ⊢
        exact ⟨hms.1, List.forall_mem_cons.mpr ⟨hm, hms.2⟩⟩
      · exact (yields_noteUnknown a).makes.bind fun _ _ => ih

/-! ### Fields -/

/-- A role is given to a field of the name that goes with it. -/
theorem makes_role (earlier : List Field) (f : Syntax.Field) :
    Makes (fun role => (role = .source → String.ofList f.name.text = "source") ∧
      (role = .location → String.ofList f.name.text = "location")) (role earlier f) := by
  unfold role
  dsimp only
  split
  · split
    · exact makes_refuse _ _
    · next hname =>
      split
      · exact makes_refuse _ _
      · exact makes_pure ⟨fun _ => not_not.mp hname, nofun⟩
  · split
    · split
      · exact makes_refuse _ _
      · next hname =>
        split
        · exact makes_refuse _ _
        · exact makes_pure ⟨nofun, fun _ => not_not.mp hname⟩
    · exact makes_pure ⟨nofun, nofun⟩

/-- Two properties of what a step makes. -/
theorem Makes.and {α : Type} {P Q : α → Prop} {x : Describing α} (hp : Makes P x)
    (hq : Makes Q x) : Makes (fun a => P a ∧ Q a) x :=
  ⟨hp.steady, fun a ha => ⟨hp.holds a ha, hq.holds a ha⟩⟩

/-- A described field is well-formed, and has a name that no earlier field has. -/
theorem makes_field (variant : String) (earlier : List Field) (f : Syntax.Field) :
    Makes (fun g => g.IsWellFormed ∧ ∀ e ∈ earlier, e.name ≠ g.name) (field variant earlier f) := by
  unfold field
  dsimp only
  split
  · refine (makes_checkName _ _ _).bind fun _ hname => ?_
    refine Makes.bind (yields_forM (fun a => ?_) f.attributes).makes fun _ _ => ?_
    · split
      · exact yields_pure trivial
      · exact yields_noteUnknown a
    · refine ((yields_role earlier f).makes.and (makes_role earlier f)).bind
        fun role ⟨hrole, hsource, hlocation⟩ => ?_
      split
      · exact makes_refuse _ _
      · next hfresh => exact makes_pure ⟨⟨hname, hrole, hsource, hlocation⟩, by simpa using hfresh⟩
  · exact makes_refuse _ _

/-- **Described fields are well-formed and differ** if the earlier fields are and do. -/
theorem makes_fields (variant : String) {earlier : List Field}
    (h : ∀ f ∈ earlier, f.IsWellFormed) (hnodup : (earlier.map Field.name).Nodup)
    (fs : List Syntax.Field) :
    Makes (fun fields => (∀ f ∈ fields, f.IsWellFormed) ∧ (fields.map Field.name).Nodup)
      (fields variant earlier fs) := by
  induction fs generalizing earlier with
  | nil => exact makes_pure ⟨h, hnodup⟩
  | cons f rest ih =>
    refine (makes_field variant earlier f).bind fun g ⟨hg, hfresh⟩ => ?_
    exact ih (forall_mem_append_singleton h hg) (nodup_map_append_singleton hnodup hfresh)

/-- Of fields that have the same name and yet differ by name there is at most one. -/
theorem head?_eq_some_iff {fs : List Field} {name : String} (hsame : ∀ f ∈ fs, f.name = name)
    (hnodup : (fs.map Field.name).Nodup) (f : Field) : fs.head? = some f ↔ fs = [f] := by
  match fs with
  | [] => simp
  | [g] => simp
  | g :: g' :: more =>
    have heq : g.name = g'.name := (hsame g (by simp)).trans (hsame g' (by simp)).symm
    simp [heq] at hnodup

/-- Among fields with different names, a field is the first with a role exactly if it is the only
one, provided that all fields with that role have the same name. -/
theorem find?_role_eq_some_iff {fs : List Field} {role : Role} {name : String}
    (hname : ∀ f ∈ fs, f.role = role → f.name = name) (hnodup : (fs.map Field.name).Nodup)
    (f : Field) :
    fs.find? (fun f => f.role = role) = some f ↔ (fs.filter fun f => f.role = role) = [f] := by
  have hsame : ∀ g ∈ fs.filter fun f => f.role = role, g.name = name := by
    intro g hg
    obtain ⟨hg, hrole⟩ := List.mem_filter.mp hg
    exact hname g hg (of_decide_eq_true hrole)
  rw [← List.head?_filter]
  exact head?_eq_some_iff hsame (hnodup.sublist (List.filter_sublist.map _)) f

/-! ### Variants -/

/-- A described variant is well-formed, belongs to the enumeration and has the declared name. -/
theorem makes_variant (strict : Bool) (enumeration : String) (v : Syntax.Variant) :
    Makes (fun w => w.IsWellFormed ∧ w.enumeration = enumeration ∧
      w.name = String.ofList v.name.text) (variant strict enumeration v) := by
  unfold variant
  dsimp only
  refine (makes_checkName _ _ _).bind fun _ hname => ?_
  refine (makes_messages strict v.attributes).bind fun ms harguments => ?_
  obtain ⟨errors, helps⟩ := ms
  dsimp only
  -- What is left is the same whichever shape the variant has.
  have hdescribed : ∀ declared : List Field, errors ≠ [] → (∀ f ∈ declared, f.IsWellFormed) →
      (declared.map Field.name).Nodup →
      Makes (fun w : Variant => w.IsWellFormed ∧ w.enumeration = enumeration ∧
          w.name = String.ofList v.name.text)
        ((errors ++ helps).forM (noteNonFields ⟨enumeration, String.ofList v.name.text, errors,
            helps, declared, v.span, v.name.span⟩) >>= fun _ =>
          pure ⟨enumeration, String.ofList v.name.text, errors, helps, declared, v.span,
            v.name.span⟩) := by
    intro declared hmessages hfields hnodup
    refine (yields_forM (fun m : Message => yields_forM (fun a => ?_) m.arguments) _).makes.bind
      fun _ _ => ?_
    · split
      · exact yields_note _ _
      · exact yields_pure trivial
    · have hsource := find?_role_eq_some_iff (fun f hf => (hfields f hf).source) hnodup
      have hlocation := find?_role_eq_some_iff (fun f hf => (hfields f hf).location) hnodup
      have hrole : ∀ {role : Role} {f : Field}, declared.find? (fun f => f.role = role) = some f →
          f ∈ declared ∧ f.role = role := fun hf =>
        ⟨List.mem_of_find?_eq_some hf, by simpa using List.find?_some hf⟩
      exact makes_pure ⟨⟨hname, hmessages, harguments, hfields, hnodup, hsource, hlocation,
        fun f hf => (hfields f (hrole hf).1).source (hrole hf).2,
        fun f hf => (hfields f (hrole hf).1).location (hrole hf).2⟩, rfl, rfl⟩
  split
  · exact makes_refuse _ _
  · next hne =>
    have hmessages : errors ≠ [] := by simpa using hne
    split
    · exact hdescribed [] hmessages (by simp) List.nodup_nil
    · exact makes_refuse _ _
    · exact makes_refuse _ _
    · exact (makes_fields _ (by simp) (by simp) _).bind fun declared ⟨hfields, hnodup⟩ =>
        hdescribed declared hmessages hfields hnodup

/-- **Described variants differ**, and have every property that the earlier ones have and that each
of them is described with. -/
theorem makes_variants {P : Variant → Prop} (strict : Bool) (enumeration : String)
    {earlier : List Variant} (h : ∀ v ∈ earlier, P v) (hnodup : (earlier.map Variant.name).Nodup)
    {vs : List Syntax.Variant} (hvs : ∀ v ∈ vs, Makes P (variant strict enumeration v)) :
    Makes (fun ws => (∀ w ∈ ws, P w) ∧ (ws.map Variant.name).Nodup)
      (variants strict enumeration earlier vs) := by
  induction vs generalizing earlier with
  | nil => exact makes_pure ⟨h, hnodup⟩
  | cons v rest ih =>
    obtain ⟨hv, hrest⟩ := List.forall_mem_cons.mp hvs
    refine hv.bind fun w hw => ?_
    split
    · exact makes_refuse _ _
    · next hfresh =>
      refine ih (forall_mem_append_singleton h hw) (nodup_map_append_singleton hnodup ?_) hrest
      simpa using hfresh

/-! ### Enumerations -/

/-- **A described enumeration is well-formed.** -/
theorem makes_enumeration (strict : Bool) (d : Syntax.Declaration) :
    Makes Enumeration.IsWellFormed (enumeration strict d) := by
  by_cases h : d.kind.terminal = .enumWord ∧ d.innerAttributes = []
  · rw [enumeration_eq h.1 h.2]
    refine (makes_checkName _ _ _).bind fun _ hname => ?_
    refine (yields_topLevel false d.attributes).makes.bind fun isTopLevel _ => ?_
    have hdeclared : Makes (fun ws => (∀ w ∈ ws, w.IsWellFormed ∧
        w.enumeration = String.ofList d.name.text) ∧ (ws.map Variant.name).Nodup)
        (declared strict d) := by
      unfold declared
      split
      · exact makes_refuse _ _
      · exact makes_pure ⟨by simp, List.nodup_nil⟩
      · exact makes_variants strict _ (by simp) (by simp) fun v _ =>
          (makes_variant strict _ v).mono fun w ⟨hw, howner, _⟩ => ⟨hw, howner⟩
    exact hdeclared.bind fun ws ⟨hws, hnodup⟩ =>
      makes_pure ⟨hname, fun w hw => (hws w hw).1, fun w hw => (hws w hw).2, hnodup⟩
  · obtain ⟨problem, span, -, hrefuse⟩ := enumeration_eq_refuse h
    rw [hrefuse]
    exact makes_refuse problem span

/-- **The names of a described enumeration** and of its variants are those that are declared. -/
theorem names_of_enumeration {strict : Bool} {d : Syntax.Declaration} {e : Enumeration}
    (h : outcome (enumeration strict d) = .ok e) :
    e.name = String.ofList d.name.text ∧ ∀ w ∈ e.variants, ∃ vs, d.body = .variants vs ∧
      ∃ v ∈ vs, w.name = String.ofList v.name.text := by
  obtain ⟨-, isTopLevel, ws, -, hws, rfl⟩ := enumeration_eq_ok_iff.mp h
  refine ⟨rfl, ?_⟩
  unfold declared at hws
  split at hws
  · cases hws
  · cases hws
    simp
  · next vs hbody =>
    have hmade : Makes (fun ws : List Variant =>
        (∀ w ∈ ws, ∃ v ∈ vs, w.name = String.ofList v.name.text) ∧ (ws.map Variant.name).Nodup)
        (variants strict (String.ofList d.name.text) [] vs) :=
      makes_variants strict _ (by simp) (by simp) fun v hv =>
        (makes_variant strict _ v).mono fun w ⟨_, _, hname⟩ => ⟨v, hv, hname⟩
    exact fun w hw => ⟨vs, hbody, (hmade.holds ws hws).1 w hw⟩

/-! ### Files -/

/-- Adding an item to a file keeps it well-formed. -/
theorem addItem_isWellFormed {strict : Bool} {d d' : Descriptor} {item : Syntax.Item}
    (hd : d.IsWellFormed) (h : outcome (addItem strict d item) = .ok d') : d'.IsWellFormed := by
  rcases addItem_cases h with ⟨i, -, rfl⟩ | ⟨-, rfl⟩ | ⟨declaration, e, rfl, hmade, hfresh, rfl⟩
  · exact ⟨hd.enumerations, hd.names⟩
  · exact hd
  · have he := (makes_enumeration strict declaration).holds e hmade
    exact ⟨forall_mem_append_singleton hd.enumerations he,
      nodup_map_append_singleton hd.names hfresh⟩

/-- Adding items to a file keeps it well-formed. -/
theorem addItems_isWellFormed {strict : Bool} {d d' : Descriptor} {items : List Syntax.Item}
    (hd : d.IsWellFormed) (h : outcome (items.foldlM (addItem strict) d) = .ok d') :
    d'.IsWellFormed := by
  induction items generalizing d with
  | nil =>
    cases h
    exact hd
  | cons item items ih =>
    obtain ⟨first, hfirst, hrest⟩ := addItems_cons_eq_ok_iff.mp h
    exact ih (addItem_isWellFormed hd hfirst) hrest

end Descriptor

/-- **A described file is well-formed.** -/
theorem describe_isWellFormed [Expression.Capacity]
    {strict : Bool} {items : List Syntax.Item} {description : Description}
    (h : describe strict items = .ok description) : description.descriptor.IsWellFormed := by
  have hempty : (⟨[], []⟩ : Descriptor).IsWellFormed := ⟨by simp, List.nodup_nil⟩
  exact Descriptor.addItems_isWellFormed hempty (addItems_of_describe h)

end Errata
