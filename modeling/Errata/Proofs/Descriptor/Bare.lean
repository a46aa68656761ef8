import Errata.Proofs.Descriptor.Findings
import Errata.Proofs.Syntax.Bare

/-!
# What descriptions say

Where things stand in a file shows in what is found, and nowhere else. Items that say the same are
described in the same way: what is found has the same problems in the same order, and the
descriptors are the same apart from the places in them.

* `Finding.bare`, `Descriptor.bare`: what findings and descriptors say, wherever things stand.
* `Descriptor.Echoes`: two steps say the same; `Echoes.bind` puts such steps together.
* `echoes_enumeration`: declarations that say the same.
* **`exists_describe_bare`**: items that say the same are described in the same way.
-/

set_option linter.unusedSectionVars false

namespace Errata

/-! ### Findings and descriptors without places -/

/-- What a problem says, apart from the place of an earlier declaration. -/
def Problem.bare : Problem → Problem
  | duplicateVariant name _ => duplicateVariant name .blank
  | duplicateDeclaration name _ => duplicateDeclaration name .blank
  | problem => problem

/-- A problem is as grave wherever things stand. -/
theorem Problem.severity_bare (p : Problem) : p.bare.severity = p.severity := by
  cases p <;> rfl

/-- A warning does not tell of another place. -/
theorem Problem.bare_eq_self {p : Problem} (h : p.severity = .warning) : p.bare = p := by
  cases p <;> first | rfl | cases h

/-- What a finding says. -/
def Finding.bare (f : Finding) : Finding :=
  ⟨f.problem.bare, none⟩

namespace Descriptor

/-- What an argument says. -/
def Argument.bare (a : Argument) : Argument :=
  { a with span := none }

/-- What a message says. -/
def Message.bare (m : Message) : Message :=
  { m with arguments := m.arguments.map Argument.bare, span := none }

section Bare

variable (view : String → String)

/-- What a field says, as far as a view of types shows it. -/
def Field.bare (f : Field) : Field :=
  { f with type := view f.type, span := none, nameSpan := none }

/-- What a variant says. -/
def Variant.bare (v : Variant) : Variant :=
  { v with
    messages := v.messages.map Message.bare
    helps := v.helps.map Message.bare
    fields := v.fields.map (Field.bare view)
    span := none
    nameSpan := none }

/-- The names of the fields. -/
@[simp] theorem Variant.fieldNames_bare (v : Variant) :
    (v.bare view).fieldNames = v.fieldNames := by
  rw [fieldNames, fieldNames, bare, List.map_map]
  rfl

/-- The fields a selector holds. -/
@[simp] theorem Variant.selectorFields_bare (v : Variant) :
    (v.bare view).selectorFields = v.selectorFields.map (Field.bare view) := by
  rw [selectorFields, selectorFields, fieldsOf, fieldsOf, bare, List.filter_map]
  rfl

/-- The field that holds the wrapped error. -/
@[simp] theorem Variant.source?_bare (v : Variant) :
    (v.bare view).source? = v.source?.map (Field.bare view) := by
  rw [source?, source?, bare, List.find?_map]
  rfl

/-- The field that holds the place where the error was made. -/
@[simp] theorem Variant.location?_bare (v : Variant) :
    (v.bare view).location? = v.location?.map (Field.bare view) := by
  rw [location?, location?, bare, List.find?_map]
  rfl

/-- The name of the function that makes an error. -/
@[simp] theorem Variant.constructor?_bare (v : Variant) :
    (v.bare view).constructor? = v.constructor? := by
  rw [constructor?, constructor?, source?_bare, Option.isSome_map]
  rfl

/-- What an enumeration says. -/
def Enumeration.bare (e : Enumeration) : Enumeration :=
  { e with variants := e.variants.map (Variant.bare view), span := none, nameSpan := none }

/-- What an import says. -/
def Import.bare (i : Import) : Import :=
  { i with span := none }

end Bare

/-- What an obstacle says. -/
def Obstacle.bare : Obstacle → Obstacle
  | violation f => violation f.bare
  | unreadable u => unreadable u

end Descriptor

/-- What a descriptor says, as far as a view of types shows it. -/
def Descriptor.bare (view : String → String) (d : Descriptor) : Descriptor where
  imports := d.imports.map Import.bare
  enumerations := d.enumerations.map (Enumeration.bare view)

namespace Descriptor

variable {α β γ δ : Type}

/-! ### Lists that show the same -/

section Lists

variable {say : α → γ} {as bs : List α}

/-- Lists that show the same do so entry by entry. -/
theorem forall₂_of_map_eq (h : as.map say = bs.map say) :
    List.Forall₂ (fun a b => say a = say b) as bs := by
  rw [← List.forall₂_eq_eq_eq, List.forall₂_map_left_iff, List.forall₂_map_right_iff] at h
  exact h

/-- Whether an entry has a property that shows. -/
theorem any_eq_of_map_eq (h : as.map say = bs.map say) (p : γ → Bool) :
    (as.any fun a => p (say a)) = bs.any fun a => p (say a) := by
  have hany : ∀ l : List α, (l.any fun a => p (say a)) = (l.map say).any p := by
    intro l
    rw [List.any_map]
    rfl
  rw [hany, hany, h]

/-- The first entry with a property that shows. -/
theorem map_find?_eq_of_map_eq (h : as.map say = bs.map say) (p : γ → Bool) :
    (as.find? fun a => p (say a)).map say = (bs.find? fun a => p (say a)).map say := by
  have hfind : ∀ l : List α, (l.find? fun a => p (say a)).map say = (l.map say).find? p := by
    intro l
    rw [List.find?_map]
    rfl
  rw [hfind, hfind, h]

end Lists

/-! ### Outcomes and steps that say the same -/

/-- Two outcomes say the same. -/
inductive Alike (say : α → γ) : Except Obstacle α → Except Obstacle α → Prop where
  /-- What was made shows the same. -/
  | ok {a b : α} (h : say a = say b) : Alike say (.ok a) (.ok b)
  /-- The obstacles say the same. -/
  | error {e e' : Obstacle} (h : e.bare = e'.bare) : Alike say (.error e) (.error e')

/-- Results of a computation on the entries of two lists say the same if they do so entry by
entry. -/
theorem Alike.mapM {say : β → δ} {f g : α → Except Obstacle β} (as : List α)
    (h : ∀ a, Alike say (f a) (g a)) : Alike (List.map say) (as.mapM f) (as.mapM g) := by
  induction as with
  | nil => exact .ok rfl
  | cons a as ih =>
    rw [List.mapM_cons, List.mapM_cons]
    have ha := h a
    generalize f a = x at ha ⊢
    generalize g a = y at ha ⊢
    cases ha with
    | error he => exact .error he
    | ok hsay =>
      generalize as.mapM f = xs at ih ⊢
      generalize as.mapM g = ys at ih ⊢
      cases ih with
      | error he => exact .error he
      | ok hsays =>
        apply Alike.ok
        rw [List.map_cons, List.map_cons, hsay, hsays]

/-- Two steps say the same: they come to outcomes that do, and what they find does. -/
structure Echoes (say : α → γ) (x y : Describing α) : Prop where
  /-- The first is steady. -/
  steady : IsSteady x
  /-- The second is steady. -/
  steady' : IsSteady y
  /-- They come to the same. -/
  outcome : Alike say (outcome x) (outcome y)
  /-- They find the same. -/
  findings : (findings x).map Finding.bare = (findings y).map Finding.bare

/-- Handing on a value. -/
theorem echoes_pure {say : α → γ} {a b : α} (h : say a = say b) :
    Echoes say (pure a : Describing α) (pure b) :=
  ⟨isSteady_pure a, isSteady_pure b, .ok h, rfl⟩

/-- Meeting an obstacle. -/
theorem echoes_throw {say : α → γ} {e e' : Obstacle} (h : e.bare = e'.bare) :
    Echoes say (throw e : Describing α) (throw e') :=
  ⟨isSteady_throw e, isSteady_throw e', .error h, rfl⟩

/-- Meeting a violation. -/
theorem echoes_refuse {say : α → γ} {p p' : Problem} (h : p.bare = p'.bare) (span span' : Span) :
    Echoes say (refuse p span : Describing α) (refuse p' span') := by
  apply echoes_throw
  simp only [violation, Obstacle.bare, Finding.bare, h]

/-- Noting a finding. -/
theorem echoes_note {say : Unit → γ} {p p' : Problem} (h : p.bare = p'.bare)
    (span span' : Option Span) : Echoes say (note p span) (note p' span') := by
  refine ⟨isSteady_note p span, isSteady_note p' span', .ok rfl, ?_⟩
  simp only [findings_note, List.map_cons, List.map_nil, Finding.bare, h]

/-- Two steps after one another, the second of which says the same on what shows the same. -/
theorem Echoes.bind {say : α → γ} {say' : β → δ} {x y : Describing α} {f g : α → Describing β}
    (hx : Echoes say x y) (hf : ∀ a b, say a = say b → Echoes say' (f a) (g b)) :
    Echoes say' (x >>= f) (y >>= g) := by
  have hsteady : ∀ a b, Descriptor.outcome x = .ok a → Descriptor.outcome y = .ok b →
      Echoes say' (f a) (g b) := by
    intro a b ha hb
    have hsame := hx.outcome
    rw [ha, hb] at hsame
    cases hsame with
    | ok h => exact hf a b h
  cases hmade : Descriptor.outcome x with
  | error e =>
    cases hmade' : Descriptor.outcome y with
    | ok b =>
      have hsame := hx.outcome
      rw [hmade, hmade'] at hsame
      cases hsame
    | error e' =>
      refine ⟨hx.steady.bind fun a ha => (nomatch hmade.symm.trans ha),
        hx.steady'.bind fun b hb => (nomatch hmade'.symm.trans hb), ?_, ?_⟩
      · have hsame := hx.outcome
        rw [hmade, hmade'] at hsame
        rw [outcome_bind_of_error hx.steady hmade, outcome_bind_of_error hx.steady' hmade']
        cases hsame with
        | error h => exact .error h
      · rw [findings_bind_of_error hx.steady hmade, findings_bind_of_error hx.steady' hmade']
        exact hx.findings
  | ok a =>
    cases hmade' : Descriptor.outcome y with
    | error e' =>
      have hsame := hx.outcome
      rw [hmade, hmade'] at hsame
      cases hsame
    | ok b =>
      have hnext := hsteady a b hmade hmade'
      have hfa : ∀ a', Descriptor.outcome x = .ok a' → IsSteady (f a') := fun a' ha' =>
        (hsteady a' b ha' hmade').steady
      have hgb : ∀ b', Descriptor.outcome y = .ok b' → IsSteady (g b') := fun b' hb' =>
        (hsteady a b' hmade hb').steady'
      refine ⟨hx.steady.bind hfa, hx.steady'.bind hgb, ?_, ?_⟩
      · rw [outcome_bind hx.steady hfa, outcome_bind hx.steady' hgb, hmade, hmade']
        exact hnext.outcome
      · rw [findings_bind_of_ok hx.steady hmade hnext.steady,
          findings_bind_of_ok hx.steady' hmade' hnext.steady', List.map_append, List.map_append,
          hx.findings, hnext.findings]

/-- A step for every entry of lists that show the same. -/
theorem echoes_forM {say : α → γ} {f g : α → Describing PUnit} {as bs : List α}
    (hf : ∀ a b, say a = say b → Echoes id (f a) (g b)) (h : as.map say = bs.map say) :
    Echoes id (as.forM f) (bs.forM g) := by
  induction forall₂_of_map_eq h with
  | nil => exact echoes_pure rfl
  | @cons a b as bs hsay hrest ih =>
    rw [List.map_cons, List.map_cons] at h
    exact (hf a b hsay).bind fun _ _ _ => ih (List.tail_eq_of_cons_eq h)

/-! ### Literals and names -/

/-- Tokens that say the same have the same text. -/
theorem text_eq_of_bare_eq {t t' : Syntax.Token} (h : t.bare = t'.bare) : t.text = t'.text :=
  (Syntax.Token.mk.inj h).2.1

/-- Attributes that say the same have the same name. -/
theorem name_eq_of_bare_eq {a a' : Syntax.Attribute} (h : a.bare = a'.bare) : a.name = a'.name :=
  (Syntax.Attribute.mk.inj h).1

variable [Expression.Capacity]

/-- An argument says the same wherever it stands. -/
theorem alike_argument (span span' : Span) (a : Placeholder.Argument) :
    Alike Argument.bare (argument span a) (argument span' a) := by
  unfold argument expression
  dsimp only
  split
  · exact .ok rfl
  · cases Expression.check a.text.strip with
    | ok => exact .ok rfl
    | error fault => cases fault <;> exact .error rfl

/-- A literal is compiled in the same way wherever it stands. -/
theorem alike_compileLiteral (strict : Bool) {t t' : Syntax.Token} (h : t.bare = t'.bare) :
    Alike Message.bare (compileLiteral strict t) (compileLiteral strict t') := by
  have htext := text_eq_of_bare_eq h
  unfold compileLiteral
  rw [htext]
  dsimp only
  cases Escape.decode (t'.text.drop 1).dropLast with
  | error e => exact .error rfl
  | ok decoded =>
    dsimp only
    cases Placeholder.compile strict decoded.text with
    | error fault => exact .error rfl
    | ok message =>
      dsimp only
      have harguments := Alike.mapM message.arguments fun a =>
        alike_argument (narrowed t.span decoded a.offset a.text.length)
          (narrowed t'.span decoded a.offset a.text.length) a
      generalize (message.arguments.mapM fun a =>
        argument (narrowed t.span decoded a.offset a.text.length) a) = x at harguments ⊢
      generalize (message.arguments.mapM fun a =>
        argument (narrowed t'.span decoded a.offset a.text.length) a) = y at harguments ⊢
      cases harguments with
      | error he => exact .error he
      | ok hsay =>
        apply Alike.ok
        simp only [Message.bare, hsay]

/-- Checking a name. -/
theorem echoes_checkName (what : String) (reserved : List String) {name name' : Syntax.Token}
    (h : name.bare = name'.bare) :
    Echoes id (checkName what reserved name) (checkName what reserved name') := by
  have htext := text_eq_of_bare_eq h
  unfold checkName
  rw [htext]
  dsimp only
  split
  · exact echoes_refuse rfl _ _
  · exact echoes_pure rfl

/-- Noting an attribute. -/
theorem echoes_noteUnknown {a a' : Syntax.Attribute} (h : a.bare = a'.bare) :
    Echoes id (noteUnknown a) (noteUnknown a') := by
  have hname := name_eq_of_bare_eq h
  unfold noteUnknown
  rw [hname]
  split
  · exact echoes_pure rfl
  · exact echoes_note rfl _ _

/-- Compiling the message of an attribute. -/
theorem echoes_message (strict : Bool) {a a' : Syntax.Attribute} (h : a.bare = a'.bare) :
    Echoes Message.bare (message strict a) (message strict a') := by
  have hname := name_eq_of_bare_eq h
  have hliteral : a.literal.map Syntax.Token.bare = a'.literal.map Syntax.Token.bare :=
    congrArg Syntax.Attribute.literal h
  unfold message
  rw [hname]
  cases hsome : a.literal with
  | none =>
    rw [hsome] at hliteral
    rw [Option.map_eq_none_iff.mp hliteral.symm]
    exact echoes_refuse rfl _ _
  | some t =>
    rw [hsome] at hliteral
    obtain ⟨t', ht', hsay⟩ := Option.map_eq_some_iff.mp hliteral.symm
    rw [ht']
    have halike := alike_compileLiteral strict hsay.symm
    dsimp only
    generalize compileLiteral strict t = x at halike ⊢
    generalize compileLiteral strict t' = y at halike ⊢
    cases halike with
    | ok hmessage => exact echoes_pure hmessage
    | error he => exact echoes_throw he

/-- Compiling the messages of a variant. -/
theorem echoes_messages (strict : Bool) {as as' : List Syntax.Attribute}
    (h : as.map Syntax.Attribute.bare = as'.map Syntax.Attribute.bare) :
    Echoes (Prod.map (List.map Message.bare) (List.map Message.bare)) (messages strict as)
      (messages strict as') := by
  induction forall₂_of_map_eq h with
  | nil => exact echoes_pure rfl
  | @cons a a' as as' hsay hrest ih =>
    rw [List.map_cons, List.map_cons] at h
    have ih := ih (List.tail_eq_of_cons_eq h)
    have hname := name_eq_of_bare_eq hsay
    unfold messages
    rw [hname]
    split
    · refine (echoes_message strict hsay).bind fun m m' hm => ih.bind fun ms ms' hms => ?_
      obtain ⟨herrors, hhelps⟩ := Prod.mk.inj hms
      exact echoes_pure (Prod.ext (by simp [hm, herrors]) hhelps)
    · split
      · refine (echoes_message strict hsay).bind fun m m' hm => ih.bind fun ms ms' hms => ?_
        obtain ⟨herrors, hhelps⟩ := Prod.mk.inj hms
        exact echoes_pure (Prod.ext herrors (by simp [hm, hhelps]))
      · exact (echoes_noteUnknown hsay).bind fun _ _ _ => ih

/-! ### Fields -/

variable {view : String → String}

/-- The role of a field. -/
theorem echoes_role {earlier earlier' : List Field}
    (hearlier : earlier.map (Field.bare view) = earlier'.map (Field.bare view))
    {f f' : Syntax.Field} (h : f.bare view = f'.bare view) :
    Echoes id (role earlier f) (role earlier' f') := by
  have hname : f.name.text = f'.name.text := congrArg (fun f => f.name.text) h
  have hmarks : f.attributes.map Syntax.Attribute.name =
      f'.attributes.map Syntax.Attribute.name := by
    have hbare : ∀ g : Syntax.Field, g.attributes.map Syntax.Attribute.name =
        (g.bare view).attributes.map Syntax.Attribute.name := by
      intro g
      rw [Syntax.Field.bare, List.map_map]
      rfl
    rw [hbare, h, ← hbare]
  have hany : ∀ r : Role, (earlier.any fun g => g.role = r) = earlier'.any fun g => g.role = r :=
    fun r => any_eq_of_map_eq hearlier fun g => g.role = r
  unfold role
  rw [hname, hmarks, hany, hany]
  dsimp only
  split
  · split
    · exact echoes_refuse rfl _ _
    · split
      · exact echoes_refuse rfl _ _
      · exact echoes_pure rfl
  · split
    · split
      · exact echoes_refuse rfl _ _
      · split
        · exact echoes_refuse rfl _ _
        · exact echoes_pure rfl
    · exact echoes_pure rfl

/-- Describing a field. -/
theorem echoes_field (variant : String) {earlier earlier' : List Field}
    (hearlier : earlier.map (Field.bare view) = earlier'.map (Field.bare view))
    {f f' : Syntax.Field} (h : f.bare view = f'.bare view) :
    Echoes (Field.bare view) (field variant earlier f) (field variant earlier' f') := by
  have hname : f.name.text = f'.name.text := congrArg (fun f => f.name.text) h
  have htoken : f.name.bare = f'.name.bare := congrArg Syntax.Field.name h
  have hattributes : f.attributes.map Syntax.Attribute.bare =
      f'.attributes.map Syntax.Attribute.bare := congrArg Syntax.Field.attributes h
  have htype : f.type.map view = f'.type.map view := congrArg Syntax.Field.type h
  have hany : ∀ name : String,
      (earlier.any fun g => g.name = name) = earlier'.any fun g => g.name = name :=
    fun name => any_eq_of_map_eq hearlier fun g => g.name = name
  unfold field
  rw [hname]
  dsimp only
  rw [hany]
  cases hsome : f.type with
  | none =>
    rw [hsome] at htype
    rw [Option.map_eq_none_iff.mp htype.symm]
    exact echoes_refuse rfl _ _
  | some type =>
    rw [hsome] at htype
    obtain ⟨type', htype', hview⟩ := Option.map_eq_some_iff.mp htype.symm
    rw [htype']
    refine (echoes_checkName _ _ htoken).bind fun _ _ _ => ?_
    refine Echoes.bind (echoes_forM (fun a a' hsay => ?_) hattributes) fun _ _ _ => ?_
    · have hmark := name_eq_of_bare_eq hsay
      rw [hmark]
      split
      · exact echoes_pure rfl
      · exact echoes_noteUnknown hsay
    · refine (echoes_role hearlier h).bind fun role role' hrole => ?_
      obtain rfl : role = role' := hrole
      split
      · exact echoes_refuse rfl _ _
      · apply echoes_pure
        simp only [Field.bare, hview]

/-- Describing fields. -/
theorem echoes_fields (variant : String) {earlier earlier' : List Field}
    (hearlier : earlier.map (Field.bare view) = earlier'.map (Field.bare view))
    {fs fs' : List Syntax.Field}
    (h : fs.map (Syntax.Field.bare view) = fs'.map (Syntax.Field.bare view)) :
    Echoes (List.map (Field.bare view)) (fields variant earlier fs)
      (fields variant earlier' fs') := by
  induction forall₂_of_map_eq h generalizing earlier earlier' with
  | nil => exact echoes_pure hearlier
  | @cons f f' fs fs' hsay hrest ih =>
    rw [List.map_cons, List.map_cons] at h
    refine (echoes_field variant hearlier hsay).bind fun g g' hg => ?_
    exact ih (by simp [hearlier, hg]) (List.tail_eq_of_cons_eq h)

/-! ### Variants -/

/-- Noting the names in a message that are not those of fields. -/
theorem echoes_noteNonFields {v v' : Variant} (hv : v.bare view = v'.bare view) {m m' : Message}
    (hm : m.bare = m'.bare) : Echoes id (noteNonFields v m) (noteNonFields v' m') := by
  have hname : v.name = v'.name := (Variant.mk.inj hv).2.1
  have hfields : v.fieldNames = v'.fieldNames := by
    rw [← Variant.fieldNames_bare view, hv, Variant.fieldNames_bare]
  unfold noteNonFields
  refine echoes_forM (fun a a' hsay => ?_) (congrArg Message.arguments hm)
  obtain ⟨htext, -, -, hfield, -⟩ := Argument.mk.inj hsay
  rw [hname, hfields, htext, hfield]
  split
  · exact echoes_note rfl _ _
  · exact echoes_pure rfl

/-- Describing a variant. -/
theorem echoes_variant (strict : Bool) (enumeration : String) {v v' : Syntax.Variant}
    (h : v.bare view = v'.bare view) :
    Echoes (Variant.bare view) (variant strict enumeration v) (variant strict enumeration v') := by
  have hname : v.name.text = v'.name.text := congrArg (fun v => v.name.text) h
  have htoken : v.name.bare = v'.name.bare := congrArg Syntax.Variant.name h
  have hattributes : v.attributes.map Syntax.Attribute.bare =
      v'.attributes.map Syntax.Attribute.bare := congrArg Syntax.Variant.attributes h
  have hshape : v.shape.bare view = v'.shape.bare view := congrArg Syntax.Variant.shape h
  unfold variant
  rw [hname]
  dsimp only
  refine (echoes_checkName _ _ htoken).bind fun _ _ _ =>
    (echoes_messages strict hattributes).bind fun ms ms' hms => ?_
  obtain ⟨herrors, hhelps⟩ := Prod.mk.inj hms
  have hempty : ms.1.isEmpty = ms'.1.isEmpty := by
    rw [← List.isEmpty_map, herrors, List.isEmpty_map]
  rw [hempty]
  split
  · exact echoes_refuse rfl _ _
  · have hdescribed : ∀ declared declared' : List Field,
        declared.map (Field.bare view) = declared'.map (Field.bare view) →
          Variant.bare view ⟨enumeration, String.ofList v'.name.text, ms.1, ms.2, declared, v.span,
            v.name.span⟩ =
          Variant.bare view ⟨enumeration, String.ofList v'.name.text, ms'.1, ms'.2, declared',
            v'.span, v'.name.span⟩ := by
      intro declared declared' hdeclared
      simp only [Variant.bare, herrors, hhelps, hdeclared]
    have hmessages : (ms.1 ++ ms.2).map Message.bare = (ms'.1 ++ ms'.2).map Message.bare := by
      rw [List.map_append, List.map_append, herrors, hhelps]
    -- what follows is the same whichever shape the variant has
    have hrest : ∀ {x y : Describing (List Field)}, Echoes (List.map (Field.bare view)) x y →
        Echoes (Variant.bare view)
          (x >>= fun declared => (ms.1 ++ ms.2).forM (noteNonFields ⟨enumeration,
            String.ofList v'.name.text, ms.1, ms.2, declared, v.span, v.name.span⟩) >>= fun _ =>
              pure ⟨enumeration, String.ofList v'.name.text, ms.1, ms.2, declared, v.span,
                v.name.span⟩)
          (y >>= fun declared => (ms'.1 ++ ms'.2).forM (noteNonFields ⟨enumeration,
            String.ofList v'.name.text, ms'.1, ms'.2, declared, v'.span, v'.name.span⟩) >>=
              fun _ => pure ⟨enumeration, String.ofList v'.name.text, ms'.1, ms'.2, declared,
                v'.span, v'.name.span⟩) := by
      intro x y hfields
      refine hfields.bind fun declared declared' hdeclared => ?_
      have hsay := hdescribed declared declared' hdeclared
      exact (echoes_forM (fun m m' hm => echoes_noteNonFields hsay hm) hmessages).bind
        fun _ _ _ => echoes_pure hsay
    cases hs : v.shape <;> cases hs' : v'.shape <;> rw [hs, hs'] at hshape <;>
      try cases hshape
    · exact hrest (echoes_pure rfl)
    · exact hrest (echoes_refuse rfl _ _)
    · exact hrest (echoes_refuse rfl _ _)
    · exact hrest (echoes_fields _ rfl (Syntax.Shape.named.inj hshape))

/-- Describing variants. -/
theorem echoes_variants (strict : Bool) (enumeration : String) {earlier earlier' : List Variant}
    (hearlier : earlier.map (Variant.bare view) = earlier'.map (Variant.bare view))
    {vs vs' : List Syntax.Variant}
    (h : vs.map (Syntax.Variant.bare view) = vs'.map (Syntax.Variant.bare view)) :
    Echoes (List.map (Variant.bare view)) (variants strict enumeration earlier vs)
      (variants strict enumeration earlier' vs') := by
  induction forall₂_of_map_eq h generalizing earlier earlier' with
  | nil => exact echoes_pure hearlier
  | @cons v v' vs vs' hsay hrest ih =>
    rw [List.map_cons, List.map_cons] at h
    unfold variants
    refine (echoes_variant strict enumeration hsay).bind fun w w' hw => ?_
    have hname : w.name = w'.name := (Variant.mk.inj hw).2.1
    have hfind : (earlier.find? fun u => u.name = w'.name).map (Variant.bare view) =
        (earlier'.find? fun u => u.name = w'.name).map (Variant.bare view) :=
      map_find?_eq_of_map_eq hearlier fun u => u.name = w'.name
    rw [hname]
    cases hsome : earlier.find? fun u => u.name = w'.name with
    | none =>
      rw [hsome] at hfind
      rw [Option.map_eq_none_iff.mp hfind.symm]
      exact ih (by simp [hearlier, hw]) (List.tail_eq_of_cons_eq h)
    | some u =>
      rw [hsome] at hfind
      obtain ⟨u', hu', -⟩ := Option.map_eq_some_iff.mp hfind.symm
      rw [hu']
      apply echoes_refuse
      rfl

/-! ### Declarations -/

/-- Looking for the mark of a top-level enumeration. -/
theorem echoes_topLevel (marked : Bool) {as as' : List Syntax.Attribute}
    (h : as.map Syntax.Attribute.bare = as'.map Syntax.Attribute.bare) :
    Echoes id (topLevel marked as) (topLevel marked as') := by
  induction forall₂_of_map_eq h generalizing marked with
  | nil => exact echoes_pure rfl
  | @cons a a' as as' hsay hrest ih =>
    rw [List.map_cons, List.map_cons] at h
    have ih := fun marked => ih marked (List.tail_eq_of_cons_eq h)
    have hname := name_eq_of_bare_eq hsay
    unfold topLevel
    rw [hname]
    split
    · split
      · have hnote : Echoes id (note .repeatedTopLevel a.span) (note .repeatedTopLevel a'.span) :=
          echoes_note rfl _ _
        exact hnote.bind fun _ _ _ => ih true
      · exact ih true
    · exact (echoes_noteUnknown hsay).bind fun _ _ _ => ih marked

/-- Describing the variants of a body. -/
theorem echoes_declared (strict : Bool) {d d' : Syntax.Declaration}
    (h : d.bare view = d'.bare view) :
    Echoes (List.map (Variant.bare view)) (declared strict d) (declared strict d') := by
  have hname : d.name.text = d'.name.text := congrArg (fun d => d.name.text) h
  have hbody : d.body.bare view = d'.body.bare view := congrArg Syntax.Declaration.body h
  unfold declared
  rw [hname]
  cases hb : d.body <;> cases hb' : d'.body <;> rw [hb, hb'] at hbody <;> try cases hbody
  · exact echoes_pure rfl
  · exact echoes_refuse rfl _ _
  · exact echoes_variants strict _ rfl (Syntax.Body.variants.inj hbody)

/-- **Describing declarations that say the same.** -/
theorem echoes_enumeration (strict : Bool) {d d' : Syntax.Declaration}
    (h : d.bare view = d'.bare view) :
    Echoes (Enumeration.bare view) (enumeration strict d) (enumeration strict d') := by
  have hname : d.name.text = d'.name.text := congrArg (fun d => d.name.text) h
  have htoken : d.name.bare = d'.name.bare := congrArg Syntax.Declaration.name h
  have hkind : d.kind.terminal = d'.kind.terminal := congrArg (fun d => d.kind.terminal) h
  have hattributes : d.attributes.map Syntax.Attribute.bare =
      d'.attributes.map Syntax.Attribute.bare := congrArg Syntax.Declaration.attributes h
  have hinner : (d.innerAttributes.map fun _ => Span.blank) =
      d'.innerAttributes.map fun _ => Span.blank := congrArg Syntax.Declaration.innerAttributes h
  by_cases henum : d'.kind.terminal = .enumWord
  · cases hs : d.innerAttributes with
    | nil =>
      rw [hs] at hinner
      rw [enumeration_eq (hkind.trans henum) hs,
        enumeration_eq henum (List.map_eq_nil_iff.mp hinner.symm), hname]
      refine (echoes_checkName _ _ htoken).bind fun _ _ _ =>
        (echoes_topLevel false hattributes).bind fun isTopLevel isTopLevel' hsame =>
          (echoes_declared strict h).bind fun vs vs' hvs => ?_
      obtain rfl : isTopLevel = isTopLevel' := hsame
      apply echoes_pure
      simp only [Enumeration.bare, hvs]
    | cons span rest =>
      rw [hs] at hinner
      obtain ⟨span', rest', hs', -⟩ := List.map_eq_cons_iff.mp hinner.symm
      have hrefused : ∀ {e : Syntax.Declaration} {at_ : Span} {more : List Span},
          e.kind.terminal = .enumWord → e.innerAttributes = at_ :: more →
            enumeration strict e = refuse .innerAttribute at_ := by
        intro e at_ more he hinner
        unfold enumeration
        dsimp only
        rw [if_neg (not_not_intro he), hinner]
        rfl
      rw [hrefused (hkind.trans henum) hs, hrefused henum hs']
      exact echoes_refuse rfl _ _
  · have hrefused : ∀ {e : Syntax.Declaration}, e.kind.terminal ≠ .enumWord →
        enumeration strict e = refuse .notAnEnum e.kind.span := by
      intro e he
      unfold enumeration
      dsimp only
      rw [if_pos he]
      rfl
    rw [hrefused (hkind ▸ henum), hrefused henum]
    exact echoes_refuse rfl _ _

/-! ### Files -/

/-- Adding an enumeration to a file. -/
theorem echoes_addEnumeration {d d' : Descriptor} (hd : d.bare view = d'.bare view)
    {e e' : Enumeration} (he : e.bare view = e'.bare view) :
    Echoes (Descriptor.bare view) (addEnumeration d e) (addEnumeration d' e') := by
  have hname : e.name = e'.name := (Enumeration.mk.inj he).1
  obtain ⟨himports, henumerations⟩ := Descriptor.mk.inj hd
  have hfind : (d.enumerations.find? fun f => f.name = e'.name).map (Enumeration.bare view) =
      (d'.enumerations.find? fun f => f.name = e'.name).map (Enumeration.bare view) :=
    map_find?_eq_of_map_eq henumerations fun f => f.name = e'.name
  unfold addEnumeration
  rw [hname]
  cases hsome : d.enumerations.find? fun f => f.name = e'.name with
  | none =>
    rw [hsome] at hfind
    rw [Option.map_eq_none_iff.mp hfind.symm]
    apply echoes_pure
    simp only [Descriptor.bare, himports, List.map_append, henumerations, List.map_cons, he,
      List.map_nil]
  | some f =>
    rw [hsome] at hfind
    obtain ⟨f', hf', -⟩ := Option.map_eq_some_iff.mp hfind.symm
    rw [hf']
    have hnoted : ∀ earlier earlier' : Span, ∀ span span' : Option Span,
        Echoes id (note (.duplicateDeclaration e'.name earlier) span)
          (note (.duplicateDeclaration e'.name earlier') span') := by
      intro earlier earlier' span span'
      apply echoes_note
      rfl
    exact (hnoted _ _ _ _).bind fun _ _ _ => echoes_pure hd

/-- Adding a declaration to a file. What it violates is noted. -/
theorem echoes_addItem_declaration (strict : Bool) {d d' : Descriptor}
    (hd : d.bare view = d'.bare view) {declaration declaration' : Syntax.Declaration}
    (h : declaration.bare view = declaration'.bare view) :
    Echoes (Descriptor.bare view) (addItem strict d (.declaration declaration))
      (addItem strict d' (.declaration declaration')) := by
  obtain ⟨hsteady, houtcome⟩ := outcome_addItem_declaration strict d declaration
  obtain ⟨hsteady', houtcome'⟩ := outcome_addItem_declaration strict d' declaration'
  have hechoes := echoes_enumeration strict h
  refine ⟨hsteady, hsteady', ?_, ?_⟩
  · rw [houtcome, houtcome']
    have halike := hechoes.outcome
    generalize outcome (enumeration strict declaration) = x at halike ⊢
    generalize outcome (enumeration strict declaration') = y at halike ⊢
    cases halike with
    | ok he => exact (echoes_addEnumeration hd he).outcome
    | @error e e' he =>
      cases e <;> cases e' <;> try cases he
      · exact .ok hd
      · exact .error rfl
  · rw [findings_addItem_declaration, findings_addItem_declaration, List.map_append,
      List.map_append, hechoes.findings]
    have halike := hechoes.outcome
    generalize outcome (enumeration strict declaration) = x at halike ⊢
    generalize outcome (enumeration strict declaration') = y at halike ⊢
    cases halike with
    | ok he => exact congrArg _ (echoes_addEnumeration hd he).findings
    | @error e e' he =>
      cases e <;> cases e' <;> try cases he
      · exact congrArg (_ ++ [·]) (Obstacle.violation.inj he)
      · rfl

/-- Adding an item to a file. -/
theorem echoes_addItem (strict : Bool) {d d' : Descriptor} (hd : d.bare view = d'.bare view)
    {item item' : Syntax.Item} (h : item.bare view = item'.bare view) :
    Echoes (Descriptor.bare view) (addItem strict d item) (addItem strict d' item') := by
  obtain ⟨himports, henumerations⟩ := Descriptor.mk.inj hd
  cases item <;> cases item' <;> try cases h
  · apply echoes_pure
    simp [Descriptor.bare, himports, henumerations, Import.bare]
  · apply echoes_pure
    simp [Descriptor.bare, himports, henumerations, Import.bare]
  · exact echoes_addItem_declaration strict hd (Syntax.Item.declaration.inj h)

/-- Adding items to a file. -/
theorem echoes_addItems (strict : Bool) {d d' : Descriptor} (hd : d.bare view = d'.bare view)
    {items items' : List Syntax.Item}
    (h : items.map (Syntax.Item.bare view) = items'.map (Syntax.Item.bare view)) :
    Echoes (Descriptor.bare view) (items.foldlM (addItem strict) d)
      (items'.foldlM (addItem strict) d') := by
  induction forall₂_of_map_eq h generalizing d d' with
  | nil => exact echoes_pure hd
  | @cons item item' items items' hsay hrest ih =>
    rw [List.map_cons, List.map_cons] at h
    rw [List.foldlM_cons, List.foldlM_cons]
    exact (echoes_addItem strict hd hsay).bind fun _ _ hd => ih hd (List.tail_eq_of_cons_eq h)

/-! ### Collisions -/

/-- A name, without the place where it is taken. -/
def bareName (name : String × Option Span) : String × Option Span :=
  (name.1, none)

/-- Taking names does not depend on the places where they are taken. -/
theorem takeNames_map_bareName (taken : List String) (names : List (String × Option Span)) :
    takeNames taken (names.map bareName) =
      ((takeNames taken names).1, (takeNames taken names).2.map Finding.bare) := by
  induction names generalizing taken with
  | nil => rfl
  | cons name names ih =>
    rw [List.map_cons, bareName, takeNames, takeNames]
    by_cases htaken : taken.contains name.1
    · rw [if_pos htaken, if_pos htaken]
      rfl
    · rw [if_neg htaken, if_neg htaken]
      exact ih _

/-- The names that an enumeration takes, wherever it stands. -/
theorem generatedNames_bare (view : String → String) (e : Enumeration) :
    (e.bare view).generatedNames = e.generatedNames.map bareName := by
  have hvariant : ∀ v : Variant, (v.bare view).generatedNames = v.generatedNames := by
    intro v
    rw [Variant.generatedNames, Variant.generatedNames, Variant.constructor?_bare]
    rfl
  rw [Enumeration.generatedNames, Enumeration.generatedNames, List.map_cons, List.map_flatMap,
    Enumeration.bare, List.flatMap_map]
  simp only [hvariant, List.map_map]
  rfl

/-- The collisions among enumerations, wherever they stand. -/
theorem collisionsFrom_bare (view : String → String) (taken : List String)
    (es : List Enumeration) :
    collisionsFrom taken (es.map (Enumeration.bare view)) =
      (collisionsFrom taken es).map Finding.bare := by
  induction es generalizing taken with
  | nil => rfl
  | cons e es ih =>
    rw [List.map_cons, collisionsFrom, collisionsFrom, generatedNames_bare,
      takeNames_map_bareName, List.map_append, ← ih]
    dsimp only
    rw [Option.toList_map]

end Descriptor

/-- The collisions in a file, wherever things stand in it. -/
theorem Descriptor.collisions_bare (view : String → String) (d : Descriptor) :
    (d.bare view).collisions = d.collisions.map Finding.bare := by
  have himports : (d.bare view).imports.flatMap Import.boundNames =
      d.imports.flatMap Import.boundNames := by
    rw [bare, List.flatMap_map]
    rfl
  rw [collisions, collisions, himports, bare, collisionsFrom_bare]

/-- **Items that say the same are described in the same way.** What is found has the same problems,
and the descriptors say the same. -/
theorem exists_describe_bare [Expression.Capacity] {strict : Bool} {view : String → String}
    {items items' : List Syntax.Item}
    (h : items.map (Syntax.Item.bare view) = items'.map (Syntax.Item.bare view))
    {description : Description} (hdescribe : describe strict items = .ok description) :
    ∃ description', describe strict items' = .ok description' ∧
      description'.descriptor.bare view = description.descriptor.bare view ∧
      description'.findings.map Finding.bare = description.findings.map Finding.bare := by
  obtain ⟨hmade, hfound⟩ := describe_eq_ok_iff.mp hdescribe
  have hechoes := Descriptor.echoes_addItems strict (Eq.refl (Descriptor.bare view ⟨[], []⟩)) h
  have halike := hechoes.outcome
  rw [hmade] at halike
  cases hmade' : Descriptor.outcome (items'.foldlM (Descriptor.addItem strict) ⟨[], []⟩) with
  | error e =>
    rw [hmade'] at halike
    cases halike
  | ok d =>
    rw [hmade'] at halike
    cases halike with
    | ok hsay =>
      refine ⟨⟨d, Descriptor.findings (items'.foldlM (Descriptor.addItem strict) ⟨[], []⟩) ++
        d.collisions⟩, describe_eq_ok_iff.mpr ⟨hmade', rfl⟩, hsay.symm, ?_⟩
      rw [hfound, List.map_append, List.map_append, hechoes.findings,
        ← Descriptor.collisions_bare view, ← Descriptor.collisions_bare view, hsay]

end Errata
