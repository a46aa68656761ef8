import Errata.Proofs.Descriptor.Findings
import Errata.Proofs.Descriptor.Location
import Errata.Proofs.Syntax.Within

/-!
# How grave findings are, and where they point

What is noted while a declaration is described is odd but no error, and a violation that ends the
description is one. A second declaration of a name is an error too, and the last thing to be said
about it. So what is reported of a declaration has one error at most, and that is the last of it.
Whatever is reported has a span that the declaration carries, or one inside a literal of it.

* `IsGraded`: steps that note nothing but warnings, and meet no violation but errors, all of them at
  spans of a given kind; `IsGraded.bind` puts them together.
* `severity_of_compileLiteral`: what is wrong with a literal is an error.
* **`isGraded_enumeration`**: describing a declaration is such a step.
* `IsOrderly`: findings of which none but the last is an error.
* **`isOrderly_findings_addItem`**: what is found when a declaration is added to a file.
* `addItem_of_warnings`: a declaration that is added to a file without an error.
-/

set_option linter.unusedSectionVars false

namespace Errata

/-- Whether a finding has a span, and the span has a property. -/
def Finding.IsWithin (S : Span → Prop) (f : Finding) : Prop :=
  ∃ s, f.span = some s ∧ S s

namespace Descriptor

variable {α β : Type} {S : Span → Prop} {P : α → Prop} {Q : β → Prop}

/-! ### Graded steps -/

/-- A step is graded if it notes nothing but warnings, any violation it meets is an error, and what
it makes has a property. All it notes and meets has spans of a given kind. -/
structure IsGraded (S : Span → Prop) (P : α → Prop) (x : Describing α) : Prop where
  /-- It is steady. -/
  steady : IsSteady x
  /-- What it finds are warnings. -/
  warnings : ∀ f ∈ findings x, f.problem.severity = .warning ∧ f.IsWithin S
  /-- A violation that it meets is an error. -/
  error : ∀ f, outcome x = .error (.violation f) → f.problem.severity = .error ∧ f.IsWithin S
  /-- What it makes has the property. -/
  holds : ∀ a, outcome x = .ok a → P a

/-- Handing on a value. -/
theorem isGraded_pure {a : α} (h : P a) : IsGraded S P (pure a : Describing α) where
  steady := isSteady_pure a
  warnings := fun _ hf => absurd hf List.not_mem_nil
  error := fun _ hf => nomatch hf
  holds := (yields_pure h).holds

/-- Meeting an obstacle that is an error if it is a violation. -/
theorem isGraded_throw {e : Obstacle}
    (h : ∀ f, e = .violation f → f.problem.severity = .error ∧ f.IsWithin S) :
    IsGraded S P (throw e : Describing α) where
  steady := isSteady_throw e
  warnings := fun _ hf => absurd hf List.not_mem_nil
  error := fun f hf => h f (Except.error.inj hf)
  holds := nofun

/-- Meeting a violation that is an error. -/
theorem isGraded_refuse {problem : Problem} (h : problem.severity = .error) {span : Span}
    (hs : S span) : IsGraded S P (refuse problem span : Describing α) := by
  apply isGraded_throw
  rintro f ⟨⟩
  exact ⟨h, span, rfl, hs⟩

/-- Noting a warning. -/
theorem isGraded_note {problem : Problem} (h : problem.severity = .warning) {span : Option Span}
    (hs : ∃ s, span = some s ∧ S s) : IsGraded S (fun _ => True) (note problem span) where
  steady := isSteady_note problem span
  warnings := by
    intro f hf
    obtain rfl : f = ⟨problem, span⟩ := by simpa using hf
    exact ⟨h, hs⟩
  error := fun _ hf => nomatch hf
  holds := fun _ _ => trivial

/-- Two graded steps are graded together. -/
theorem IsGraded.bind {x : Describing α} {f : α → Describing β} (hx : IsGraded S P x)
    (hf : ∀ a, P a → IsGraded S Q (f a)) : IsGraded S Q (x >>= f) := by
  have hsteady : ∀ a, outcome x = .ok a → IsSteady (f a) := fun a ha =>
    (hf a (hx.holds a ha)).steady
  refine ⟨hx.steady.bind hsteady, fun g hg => ?_, fun g hg => ?_, fun b hb => ?_⟩
  · rcases (mem_findings_bind_iff hx.steady hsteady).mp hg with hg | ⟨a, ha, hg⟩
    · exact hx.warnings g hg
    · exact (hf a (hx.holds a ha)).warnings g hg
  · rcases (bind_eq_error_iff hx.steady hsteady).mp hg with hg | ⟨a, ha, hg⟩
    · exact hx.error g hg
    · exact (hf a (hx.holds a ha)).error g hg
  · obtain ⟨a, ha, hb⟩ := (bind_eq_ok_iff hx.steady hsteady).mp hb
    exact (hf a (hx.holds a ha)).holds b hb

/-- A graded step for every entry of a list. -/
theorem isGraded_forM {f : α → Describing PUnit} {as : List α}
    (hf : ∀ a ∈ as, IsGraded S (fun _ => True) (f a)) :
    IsGraded S (fun _ => True) (as.forM f) := by
  induction as with
  | nil => exact isGraded_pure trivial
  | cons a as ih =>
    obtain ⟨ha, has⟩ := List.forall_mem_cons.mp hf
    exact ha.bind fun _ _ => ih has

/-! ### Literals -/

variable [Expression.Capacity]

/-- What is wrong with an argument is an error. -/
theorem severity_of_argument {span : Span} {a : Placeholder.Argument} {f : Finding}
    (h : argument span a = .error (.violation f)) : f.problem.severity = .error := by
  obtain ⟨-, hexpression⟩ := argument_eq_error_iff.mp h
  rcases expression_eq a.text span with ⟨-, hok | ⟨reason, hbad⟩⟩ | ⟨-, u, hunreadable⟩
  · cases hok.symm.trans hexpression
  · cases hbad.symm.trans hexpression
    rfl
  · cases hunreadable.symm.trans hexpression

/-- What is wrong with a literal is an error. -/
theorem severity_of_compileLiteral {strict : Bool} {literal : Syntax.Token} {f : Finding}
    (h : compileLiteral strict literal = .error (.violation f)) : f.problem.severity = .error := by
  rcases compileLiteral_cases strict literal with
    ⟨e, -, heq⟩ | ⟨d, -, ⟨fault, -, heq⟩ | ⟨m, -, heq⟩⟩
  · rw [heq] at h
    cases h
    rfl
  · rw [heq] at h
    cases h
    cases fault <;> rfl
  · rw [heq, Outcome.map_eq_error_iff, Outcome.mapM_eq_error_iff] at h
    obtain ⟨before, a, after, -, -, ha⟩ := h
    exact severity_of_argument ha

/-- Whether the arguments of a message have spans with a property. -/
def Message.IsWithin (S : Span → Prop) (m : Message) : Prop :=
  ∀ a ∈ m.arguments, ∃ s, a.span = some s ∧ S s

/-- Whether what compiling a literal reports and makes has spans with a property. -/
structure LocatesIn (S : Span → Prop) (t : Syntax.Token) : Prop where
  /-- What it reports has. -/
  violation : ∀ strict f, compileLiteral strict t = .error (.violation f) → f.IsWithin S
  /-- What it makes has. -/
  message : ∀ strict m, compileLiteral strict t = .ok m → m.IsWithin S

/-! ### Declarations -/

/-- Checking a name is graded. -/
theorem isGraded_checkName (what : String) (reserved : List String) {name : Syntax.Token}
    (h : S name.span) : IsGraded S (fun _ => True) (checkName what reserved name) := by
  unfold checkName
  dsimp only
  split
  · exact isGraded_refuse rfl h
  · exact isGraded_pure trivial

/-- Noting an attribute is graded. -/
theorem isGraded_noteUnknown {a : Syntax.Attribute} (h : S a.span) :
    IsGraded S (fun _ => True) (noteUnknown a) := by
  unfold noteUnknown
  split
  · exact isGraded_pure trivial
  · exact isGraded_note rfl ⟨_, rfl, h⟩

/-- Compiling the message of an attribute is graded. -/
theorem isGraded_message (strict : Bool) {a : Syntax.Attribute} (h : a.Within S (LocatesIn S)) :
    IsGraded S (Message.IsWithin S) (message strict a) := by
  unfold message
  split
  · exact isGraded_refuse rfl h.span
  · next literal hliteral =>
    have hlocates := h.literal literal hliteral
    cases hmade : compileLiteral strict literal with
    | error e =>
      apply isGraded_throw
      rintro f rfl
      exact ⟨severity_of_compileLiteral hmade, hlocates.violation strict f hmade⟩
    | ok m => exact isGraded_pure (hlocates.message strict m hmade)

/-- Compiling the messages of a variant is graded. -/
theorem isGraded_messages (strict : Bool) {as : List Syntax.Attribute}
    (h : ∀ a ∈ as, a.Within S (LocatesIn S)) :
    IsGraded S (fun ms => ∀ m ∈ ms.1 ++ ms.2, m.IsWithin S) (messages strict as) := by
  induction as with
  | nil => exact isGraded_pure (by simp)
  | cons a rest ih =>
    obtain ⟨ha, hrest⟩ := List.forall_mem_cons.mp h
    unfold messages
    split
    · refine (isGraded_message strict ha).bind fun m hm => (ih hrest).bind fun ms hms =>
        isGraded_pure ?_
      exact List.forall_mem_cons.mpr ⟨hm, hms⟩
    · split
      · refine (isGraded_message strict ha).bind fun m hm => (ih hrest).bind fun ms hms =>
          isGraded_pure ?_
        rw [List.forall_mem_append] at hms ⊢
        exact ⟨hms.1, List.forall_mem_cons.mpr ⟨hm, hms.2⟩⟩
      · exact (isGraded_noteUnknown ha.span).bind fun _ _ => ih hrest

/-- Giving a field its role is graded. -/
theorem isGraded_role (earlier : List Field) {f : Syntax.Field} (hname : S f.name.span)
    (hspan : S f.span) : IsGraded S (fun _ => True) (role earlier f) := by
  unfold role
  dsimp only
  split
  · split
    · exact isGraded_refuse rfl hname
    · split
      · exact isGraded_refuse rfl hspan
      · exact isGraded_pure trivial
  · split
    · split
      · exact isGraded_refuse rfl hname
      · split
        · exact isGraded_refuse rfl hspan
        · exact isGraded_pure trivial
    · exact isGraded_pure trivial

/-- Describing a field is graded. -/
theorem isGraded_field (variant : String) (earlier : List Field) {f : Syntax.Field}
    (h : f.Within S (LocatesIn S)) :
    IsGraded S (fun _ => True) (field variant earlier f) := by
  unfold field
  dsimp only
  split
  · refine (isGraded_checkName _ _ h.name).bind fun _ _ => ?_
    refine IsGraded.bind (isGraded_forM fun a ha => ?_) fun _ _ => ?_
    · split
      · exact isGraded_pure trivial
      · exact isGraded_noteUnknown (h.attributes a ha).span
    · refine (isGraded_role earlier h.name h.span).bind fun role _ => ?_
      split
      · exact isGraded_refuse rfl h.name
      · exact isGraded_pure trivial
  · exact isGraded_refuse rfl h.span

/-- Describing fields is graded. -/
theorem isGraded_fields (variant : String) (earlier : List Field) {fs : List Syntax.Field}
    (h : ∀ f ∈ fs, f.Within S (LocatesIn S)) :
    IsGraded S (fun _ => True) (fields variant earlier fs) := by
  induction fs generalizing earlier with
  | nil => exact isGraded_pure trivial
  | cons f rest ih =>
    obtain ⟨hf, hrest⟩ := List.forall_mem_cons.mp h
    exact (isGraded_field variant earlier hf).bind fun g _ => ih _ hrest

/-- Noting the names in a message that are not those of fields is graded. -/
theorem isGraded_noteNonFields (v : Variant) {m : Message} (h : m.IsWithin S) :
    IsGraded S (fun _ => True) (noteNonFields v m) := by
  refine isGraded_forM fun a ha => ?_
  split
  · exact isGraded_note rfl (h a ha)
  · exact isGraded_pure trivial

/-- Describing a variant is graded. -/
theorem isGraded_variant (strict : Bool) (enumeration : String) {v : Syntax.Variant}
    (h : v.Within S (LocatesIn S)) :
    IsGraded S (fun w : Variant => ∃ s, w.nameSpan = some s ∧ S s)
      (variant strict enumeration v) := by
  unfold variant
  dsimp only
  refine (isGraded_checkName _ _ h.name).bind fun _ _ =>
    (isGraded_messages strict h.attributes).bind fun ms hms => ?_
  obtain ⟨errors, helps⟩ := ms
  dsimp only
  have hdescribed : ∀ w : Variant, w.nameSpan = some v.name.span →
      IsGraded S (fun w : Variant => ∃ s, w.nameSpan = some s ∧ S s)
        ((errors ++ helps).forM (noteNonFields w) >>= fun _ => pure w) := by
    intro w hw
    exact (isGraded_forM fun m hm => isGraded_noteNonFields w (hms m hm)).bind fun _ _ =>
      isGraded_pure ⟨_, hw, h.name⟩
  split
  · exact isGraded_refuse rfl h.span
  · split
    · exact hdescribed _ rfl
    · exact isGraded_refuse rfl h.span
    · exact isGraded_refuse rfl h.span
    · next fs hfs =>
      exact (isGraded_fields _ _ (h.fields fs hfs)).bind fun declared _ => hdescribed _ rfl

/-- Describing variants is graded. -/
theorem isGraded_variants (strict : Bool) (enumeration : String) {earlier : List Variant}
    (hearlier : ∀ w ∈ earlier, ∃ s, w.nameSpan = some s ∧ S s) {vs : List Syntax.Variant}
    (h : ∀ v ∈ vs, v.Within S (LocatesIn S)) :
    IsGraded S (fun ws => ∀ w ∈ ws, ∃ s, w.nameSpan = some s ∧ S s)
      (variants strict enumeration earlier vs) := by
  induction vs generalizing earlier with
  | nil => exact isGraded_pure hearlier
  | cons v rest ih =>
    obtain ⟨hv, hrest⟩ := List.forall_mem_cons.mp h
    refine (isGraded_variant strict enumeration hv).bind fun w hw => ?_
    split
    · exact isGraded_refuse rfl hv.name
    · refine ih (List.forall_mem_append.mpr ⟨hearlier, ?_⟩) hrest
      simpa using hw

/-- Looking for the mark of a top-level enumeration is graded. -/
theorem isGraded_topLevel (marked : Bool) {as : List Syntax.Attribute}
    (h : ∀ a ∈ as, S a.span) : IsGraded S (fun _ => True) (topLevel marked as) := by
  induction as generalizing marked with
  | nil => exact isGraded_pure trivial
  | cons a rest ih =>
    obtain ⟨ha, hrest⟩ := List.forall_mem_cons.mp h
    unfold topLevel
    split
    · split
      · exact (isGraded_note rfl ⟨_, rfl, ha⟩).bind fun _ _ => ih true hrest
      · exact ih true hrest
    · exact (isGraded_noteUnknown ha).bind fun _ _ => ih marked hrest

/-- Describing the variants of a body is graded. -/
theorem isGraded_declared (strict : Bool) {d : Syntax.Declaration}
    (h : d.Within S (LocatesIn S)) :
    IsGraded S (fun ws => ∀ w ∈ ws, ∃ s, w.nameSpan = some s ∧ S s) (declared strict d) := by
  unfold declared
  split
  · exact isGraded_refuse rfl h.span
  · exact isGraded_pure (by simp)
  · next vs hvs => exact isGraded_variants _ _ (by simp) (h.variants vs hvs)

/-- Whether the spans of the names in an enumeration have a property. -/
structure Enumeration.IsWithin (S : Span → Prop) (e : Enumeration) : Prop where
  /-- That of its own name has. -/
  name : ∃ s, e.nameSpan = some s ∧ S s
  /-- Those of its variants have. -/
  variants : ∀ w ∈ e.variants, ∃ s, w.nameSpan = some s ∧ S s

/-- **Describing a declaration is graded.** -/
theorem isGraded_enumeration (strict : Bool) {d : Syntax.Declaration}
    (h : d.Within S (LocatesIn S)) :
    IsGraded S (Enumeration.IsWithin S) (enumeration strict d) := by
  by_cases hproper : d.kind.terminal = .enumWord ∧ d.innerAttributes = []
  · rw [enumeration_eq hproper.1 hproper.2]
    exact (isGraded_checkName _ _ h.name).bind fun _ _ =>
      (isGraded_topLevel _ fun a ha => (h.attributes a ha).span).bind fun _ _ =>
        (isGraded_declared strict h).bind fun ws hws => isGraded_pure ⟨⟨_, rfl, h.name⟩, hws⟩
  · obtain ⟨problem, span, ⟨hsevere, hspan⟩, hrefuse⟩ := enumeration_eq_refuse hproper
    rw [hrefuse]
    refine isGraded_refuse hsevere ?_
    rcases hspan with rfl | hinner
    · exact h.kind
    · exact h.innerAttributes span hinner

/-! ### Reports of declarations -/

/-- Whether none of the findings but the last is an error. -/
def IsOrderly (found : List Finding) : Prop :=
  (∀ f ∈ found, f.problem.severity = .warning) ∨
    ∃ warnings error, found = warnings ++ [error] ∧
      (∀ f ∈ warnings, f.problem.severity = .warning) ∧ error.problem.severity = .error

/-- What compiling a literal reports and makes has spans. -/
theorem locatesIn_true (t : Syntax.Token) : LocatesIn (fun _ => True) t := by
  refine ⟨fun strict f h => ?_, fun strict m h a ha => ?_⟩
  · rcases compileLiteral_cases strict t with ⟨e, -, heq⟩ | ⟨d, -, ⟨fault, -, heq⟩ | ⟨m, -, heq⟩⟩
    · rw [heq] at h
      cases h
      exact ⟨_, rfl, trivial⟩
    · rw [heq] at h
      cases h
      exact ⟨_, rfl, trivial⟩
    · rw [heq, Outcome.map_eq_error_iff, Outcome.mapM_eq_error_iff] at h
      obtain ⟨before, a, after, -, -, ha⟩ := h
      exact ⟨_, span_of_argument_error ha, trivial⟩
  · rcases compileLiteral_cases strict t with ⟨e, -, heq⟩ | ⟨d, -, ⟨fault, -, heq⟩ | ⟨p, -, heq⟩⟩
    · rw [heq] at h
      cases h
    · rw [heq] at h
      cases h
    · rw [heq] at h
      obtain ⟨arguments, harguments, rfl⟩ := Outcome.map_eq_ok_iff.mp h
      obtain ⟨b, -, hb⟩ := Outcome.exists_of_mem_mapM harguments ha
      exact ⟨_, (eq_of_argument hb).1, trivial⟩

/-- **What is found when a declaration is added to a file is orderly**: it is warnings, and after
them an error if the declaration violates a rule or its name is taken. -/
theorem isOrderly_findings_addItem (strict : Bool) (d : Descriptor)
    (declaration : Syntax.Declaration) :
    IsOrderly (findings (addItem strict d (.declaration declaration))) := by
  have hgraded := isGraded_enumeration strict
    (declaration.within_of_forall (fun _ => trivial) locatesIn_true)
  have hwarnings : ∀ f ∈ findings (enumeration strict declaration),
      f.problem.severity = .warning := fun f hf => (hgraded.warnings f hf).1
  rw [findings_addItem_declaration]
  cases hmade : outcome (enumeration strict declaration) with
  | error e =>
    cases e with
    | violation f => exact Or.inr ⟨_, f, rfl, hwarnings, (hgraded.error f hmade).1⟩
    | unreadable u =>
      refine Or.inl ?_
      rw [List.append_nil]
      exact hwarnings
  | ok e =>
    dsimp only [addEnumeration]
    split
    · exact Or.inr ⟨_, _, rfl, hwarnings, rfl⟩
    · refine Or.inl ?_
      rw [findings_pure, List.append_nil]
      exact hwarnings

/-- A declaration that is added to a file without an error is described, and nothing is found but
what is found then. -/
theorem addItem_of_warnings {strict : Bool} {d d' : Descriptor} {declaration : Syntax.Declaration}
    (h : outcome (addItem strict d (.declaration declaration)) = .ok d')
    (hfound : ∀ f ∈ findings (addItem strict d (.declaration declaration)),
      f.problem.severity = .warning) :
    ∃ e, outcome (enumeration strict declaration) = .ok e ∧
      findings (addItem strict d (.declaration declaration)) =
        findings (enumeration strict declaration) ∧
      d' = { d with enumerations := d.enumerations ++ [e] } := by
  rw [findings_addItem_declaration] at hfound ⊢
  rw [(outcome_addItem_declaration strict d declaration).2] at h
  cases hmade : outcome (enumeration strict declaration) with
  | error e =>
    rw [hmade] at h hfound
    cases e with
    | unreadable u => cases h
    | violation f =>
      -- a violation is an error
      have hgraded := isGraded_enumeration strict
        (declaration.within_of_forall (fun _ => trivial) locatesIn_true)
      have hsevere := (hgraded.error f hmade).1
      cases hsevere.symm.trans (hfound f (List.mem_append_right _ (List.mem_singleton_self f)))
  | ok e =>
    rw [hmade] at h hfound
    dsimp only [addEnumeration] at h hfound ⊢
    split at h
    · next f hsome =>
      -- and so is a name that is taken
      rw [hsome] at hfound
      cases hfound _ (List.mem_append_right _ List.mem_cons_self)
    · cases h
      refine ⟨e, rfl, ?_, rfl⟩
      rw [findings_pure, List.append_nil]

end Descriptor

end Errata
