import Errata.Proofs.Descriptor.Names
import Errata.Proofs.Descriptor.Severity
import Errata.Proofs.Diagnostic.Layout
import Errata.Proofs.Expression.Reason
import Errata.Proofs.Syntax.Wording

/-!
# Messages in one line

The wording of every message stands in one line, and so do the names, the places and the reasons
that are filled in. One parameter is the exception: an argument that is no expression is quoted as
it was decoded, and an escape stands for any character, line feeds among them.

* `Problem.IsInLine`, **`Problem.IsInLine.isUnbroken_message_or`**: problems of which everything
  that is told stands in one line, the argument apart, and their messages.
* `Finding.IsToldFrom`: findings of such problems, where the source spells the argument.
* `FindsOnly`: steps that find nothing but findings of one kind; `FindsOnly.bind` puts them
  together.
* `isToldFrom_of_compileLiteral`: what is wrong with a literal.
* **`findsOnly_enumeration`**: describing a declaration is such a step.
* **`isToldFrom_of_describe`**: what is found in a file.
-/

set_option linter.unusedSectionVars false

namespace Errata

/-! ### Wording -/

/-- Whether a part of the wording of a message stands in one line, the values of parameters apart.
-/
def Wording.IsInLine : Wording → Prop
  | text words => IsUnbroken words
  | parameter _ => True

/-- Wording and values in one line make a message in one line. -/
theorem Wording.isUnbroken_of_fill {values : List (String × String)} {wording : List Wording}
    {message : String} (hwording : ∀ w ∈ wording, w.IsInLine)
    (hvalues : ∀ value ∈ values, IsUnbroken value.2) (h : fill values wording = .ok message) :
    IsUnbroken message := by
  induction wording generalizing message with
  | nil =>
    cases h
    decide
  | cons w rest ih =>
    obtain ⟨hw, hrest⟩ := List.forall_mem_cons.mp hwording
    cases w with
    | text words =>
      obtain ⟨more, hmore, h⟩ := Outcome.bind_eq_ok_iff.mp h
      cases h
      exact IsUnbroken.append hw (ih hrest hmore)
    | parameter name =>
      rw [fill] at h
      split at h
      · next value hlookup =>
        obtain ⟨more, hmore, h⟩ := Outcome.bind_eq_ok_iff.mp h
        cases h
        obtain ⟨front, back, hsplit, -⟩ := List.lookup_eq_some_iff.mp hlookup
        exact IsUnbroken.append (hvalues (name, value) (by simp [hsplit])) (ih hrest hmore)
      · cases h

/-- The wording of every message stands in one line. -/
theorem Code.isInLine_wording (code : Code) : ∀ w ∈ code.entry.wording, w.IsInLine := by
  cases code <;> dsimp only [entry] <;> simp only [List.forall_mem_cons] <;> repeat' apply And.intro
  all_goals first
    | exact isUnbroken_of_all (by decide)
    | exact trivial
    | exact List.forall_mem_nil _

/-- A message for values in one line. -/
theorem Code.isUnbroken_message {code : Code} {values : List (String × String)} {message : String}
    (hvalues : ∀ value ∈ values, IsUnbroken value.2) (h : code.message values = .ok message) :
    IsUnbroken message := by
  unfold Code.message at h
  split at h
  · next hfill =>
    cases h
    exact Wording.isUnbroken_of_fill code.isInLine_wording hvalues hfill
  · cases h

namespace Problem

/-- Whether all that is told of a problem stands in one line, but for the argument that it quotes.
-/
def IsInLine : Problem → Prop
  | badExpression _ reason => IsUnbroken reason
  | p => ∀ value ∈ p.values, IsUnbroken value.2

/-- The message of a problem. -/
theorem message_eq (p : Problem) : p.code.message p.values = .ok p.message := by
  cases p <;> rfl

/-- The message that quotes an argument. -/
theorem message_badExpression (expression reason : String) :
    (badExpression expression reason).message =
      "cannot parse `" ++ expression ++ "` as an expression: " ++ reason := by
  have hmessage : (badExpression expression reason).message =
      "cannot parse `" ++ (expression ++ ("` as an expression: " ++ (reason ++ ""))) := rfl
  rw [hmessage, String.append_empty, ← String.append_assoc, ← String.append_assoc]

/-- **The message of a problem** stands in one line, unless it quotes an argument that does not. -/
theorem IsInLine.isUnbroken_message_or {p : Problem} (h : p.IsInLine) :
    IsUnbroken p.message ∨ ∃ expression reason, p = .badExpression expression reason ∧
      ¬IsUnbroken expression ∧ IsUnbroken reason := by
  by_cases hbad : ∃ expression reason, p = .badExpression expression reason
  · obtain ⟨expression, reason, rfl⟩ := hbad
    by_cases hexpression : IsUnbroken expression
    · rw [message_badExpression]
      exact .inl (((IsUnbroken.append (by decide) hexpression).append (by decide)).append h)
    · exact .inr ⟨expression, reason, rfl, hexpression, h⟩
  · have hvalues : ∀ value ∈ p.values, IsUnbroken value.2 := by
      cases p with
      | badExpression expression reason => exact absurd ⟨expression, reason, rfl⟩ hbad
      | _ => exact h
    exact .inl (Code.isUnbroken_message hvalues p.message_eq)

end Problem

/-! ### Findings -/

/-- Whether all that is told of a finding stands in one line, but for the argument that it quotes,
which is spelled by the source under the span of the finding. -/
structure Finding.IsToldFrom (source : List Char) (f : Finding) : Prop where
  /-- What is told of its problem stands in one line. -/
  inLine : f.problem.IsInLine
  /-- An argument that is quoted is spelled by the source. -/
  spelled : ∀ expression reason, f.problem = .badExpression expression reason →
    ∃ s raw d, f.span = some s ∧ s.textIn? source = some raw ∧ Escape.decode raw = .ok d ∧
      d.text = Text.ofString expression

namespace Finding

variable {source : List Char} {p : Problem} {span : Option Span}

/-- A problem that quotes no argument, and whose values stand in one line. -/
theorem isToldFrom_of_values (hne : ∀ expression reason, p ≠ .badExpression expression reason)
    (h : ∀ value ∈ p.values, IsUnbroken value.2) : (Finding.mk p span).IsToldFrom source := by
  refine ⟨?_, fun expression reason heq => absurd heq (hne expression reason)⟩
  cases p with
  | badExpression expression reason => exact absurd rfl (hne expression reason)
  | _ => exact h

/-- A problem with nothing to fill in. -/
theorem isToldFrom_of_fixed (h : p.values = []) : (Finding.mk p span).IsToldFrom source :=
  isToldFrom_of_values (fun _ _ heq => by simp [heq, Problem.values] at h)
    (h ▸ List.forall_mem_nil _)

/-- A problem with one value to fill in. -/
theorem isToldFrom_of_one {name value : String} (h : p.values = [(name, value)])
    (hvalue : IsUnbroken value) : (Finding.mk p span).IsToldFrom source :=
  isToldFrom_of_values (fun _ _ heq => by simp [heq, Problem.values] at h)
    (h ▸ List.forall_mem_singleton.mpr hvalue)

/-- A problem with two values to fill in, neither of them an argument. -/
theorem isToldFrom_of_two {name name' value value' : String} (hname : name ≠ "expr")
    (h : p.values = [(name, value), (name', value')]) (hvalue : IsUnbroken value)
    (hvalue' : IsUnbroken value') : (Finding.mk p span).IsToldFrom source :=
  isToldFrom_of_values
    (fun _ _ heq => hname (by simp [heq, Problem.values] at h; exact h.1.1.symm))
    (h ▸ List.forall_mem_cons.mpr ⟨hvalue, List.forall_mem_singleton.mpr hvalue'⟩)

end Finding

namespace Descriptor

variable {α β : Type} {K : Finding → Prop} {P : α → Prop} {Q : β → Prop} {source : List Char}

/-! ### Steps that find problems of one kind -/

/-- A step finds problems of one kind only if all that it notes are of that kind, and so is any
violation that it meets. What it makes has a property. -/
structure FindsOnly (K : Finding → Prop) (P : α → Prop) (x : Describing α) : Prop where
  /-- It is steady. -/
  steady : IsSteady x
  /-- What it notes is of the kind. -/
  noted : ∀ f ∈ findings x, K f
  /-- A violation that it meets is of the kind. -/
  met : ∀ f, outcome x = .error (.violation f) → K f
  /-- What it makes has the property. -/
  holds : ∀ a, outcome x = .ok a → P a

/-- Handing on a value. -/
theorem findsOnly_pure {a : α} (h : P a) : FindsOnly K P (pure a : Describing α) where
  steady := isSteady_pure a
  noted := fun _ hf => absurd hf List.not_mem_nil
  met := fun _ hf => nomatch hf
  holds := (yields_pure h).holds

/-- Meeting an obstacle that is of the kind if it is a violation. -/
theorem findsOnly_throw {e : Obstacle} (h : ∀ f, e = .violation f → K f) :
    FindsOnly K P (throw e : Describing α) where
  steady := isSteady_throw e
  noted := fun _ hf => absurd hf List.not_mem_nil
  met := fun f hf => h f (Except.error.inj hf)
  holds := nofun

/-- Meeting a violation of the kind. -/
theorem findsOnly_refuse {problem : Problem} {span : Span} (h : K ⟨problem, span⟩) :
    FindsOnly K P (refuse problem span : Describing α) := by
  apply findsOnly_throw
  rintro f ⟨⟩
  exact h

/-- Noting a problem of the kind. -/
theorem findsOnly_note {problem : Problem} {span : Option Span} (h : K ⟨problem, span⟩) :
    FindsOnly K (fun _ => True) (note problem span) where
  steady := isSteady_note problem span
  noted := by
    intro f hf
    obtain rfl : f = ⟨problem, span⟩ := by simpa using hf
    exact h
  met := fun _ hf => nomatch hf
  holds := fun _ _ => trivial

/-- Two steps, one after the other. -/
theorem FindsOnly.bind {x : Describing α} {f : α → Describing β} (hx : FindsOnly K P x)
    (hf : ∀ a, P a → FindsOnly K Q (f a)) : FindsOnly K Q (x >>= f) := by
  have hsteady : ∀ a, outcome x = .ok a → IsSteady (f a) := fun a ha =>
    (hf a (hx.holds a ha)).steady
  refine ⟨hx.steady.bind hsteady, fun g hg => ?_, fun g hg => ?_, fun b hb => ?_⟩
  · rcases (mem_findings_bind_iff hx.steady hsteady).mp hg with hg | ⟨a, ha, hg⟩
    · exact hx.noted g hg
    · exact (hf a (hx.holds a ha)).noted g hg
  · rcases (bind_eq_error_iff hx.steady hsteady).mp hg with hg | ⟨a, ha, hg⟩
    · exact hx.met g hg
    · exact (hf a (hx.holds a ha)).met g hg
  · obtain ⟨a, ha, hb⟩ := (bind_eq_ok_iff hx.steady hsteady).mp hb
    exact (hf a (hx.holds a ha)).holds b hb

/-- A step for every entry of a list. -/
theorem findsOnly_forM {f : α → Describing PUnit} {as : List α}
    (hf : ∀ a ∈ as, FindsOnly K (fun _ => True) (f a)) :
    FindsOnly K (fun _ => True) (as.forM f) := by
  induction as with
  | nil => exact findsOnly_pure trivial
  | cons a as ih =>
    obtain ⟨ha, has⟩ := List.forall_mem_cons.mp hf
    exact ha.bind fun _ _ => ih has

/-! ### Literals -/

variable [Expression.Capacity]

/-- The reason for which an argument is turned down. -/
theorem isInLine_of_argument_error {span : Span} {a : Placeholder.Argument} {f : Finding}
    (h : argument span a = .error (.violation f)) : f.problem.IsInLine := by
  obtain ⟨-, hexpression⟩ := argument_eq_error_iff.mp h
  unfold expression at hexpression
  dsimp only at hexpression
  have hreason : ∀ fault, Expression.check a.text.strip = .error fault →
      IsUnbroken (fault.reason?.getD "") := by
    intro fault hcheck
    cases hreason : fault.reason? with
    | none => exact by decide
    | some reason => exact Expression.isUnbroken_of_check hcheck hreason
  split at hexpression
  · cases hexpression
  · cases hexpression
  · cases hexpression
  · cases hexpression
  · next fault _ _ _ hcheck =>
    cases hexpression
    exact hreason fault hcheck

/-- An argument that is turned down is quoted as it was decoded. -/
theorem quotes_of_argument_error {span : Span} {a : Placeholder.Argument} {f : Finding}
    (h : argument span a = .error (.violation f)) {e reason : String}
    (hf : f.problem = .badExpression e reason) : Text.ofString e = a.text := by
  obtain ⟨-, hexpression⟩ := argument_eq_error_iff.mp h
  rcases expression_eq a.text span with ⟨hreadable, hok | ⟨reason, hbad⟩⟩ | ⟨-, u, hunreadable⟩
  · cases hok.symm.trans hexpression
  · cases hbad.symm.trans hexpression
    cases hf
    exact ofString_filterMap (characters?_of_isPlain_strip hreadable.isPlain)
  · cases hunreadable.symm.trans hexpression

/-- A name that a message shows stands in one line. -/
theorem isUnbroken_of_isName {text : Text} (h : isName text = true) :
    IsUnbroken (String.ofList (text.filterMap CodePoint.char?)) := by
  refine isUnbroken_ofList fun hmem => ?_
  have hblank := isBlank_eq_false_of_identifier ((isIdentifier_of_isName h).2 '\n' hmem)
  exact absurd hblank (by decide)

/-- Whether the names that a message shows stand in one line. -/
def Message.IsInLine (m : Message) : Prop :=
  ∀ a ∈ m.arguments, a.isField = true → IsUnbroken a.text

/-- A compiled literal shows names in one line. -/
theorem Message.isInLine_of_compileLiteral {strict : Bool} {t : Syntax.Token} {m : Message}
    (h : compileLiteral strict t = .ok m) : m.IsInLine := by
  rcases compileLiteral_cases strict t with ⟨e, -, heq⟩ | ⟨d, -, ⟨fault, -, heq⟩ | ⟨p, -, heq⟩⟩
  · rw [heq] at h
    cases h
  · rw [heq] at h
    cases h
  · rw [heq] at h
    obtain ⟨arguments, harguments, rfl⟩ := Outcome.map_eq_ok_iff.mp h
    intro b hb hfield
    obtain ⟨a, -, hmade⟩ := Outcome.exists_of_mem_mapM harguments hb
    unfold argument at hmade
    dsimp only at hmade
    split at hmade
    · next hname =>
      cases hmade
      exact isUnbroken_of_isName hname
    · obtain ⟨e, -, hmade⟩ := Outcome.bind_eq_ok_iff.mp hmade
      cases hmade
      cases hfield

/-- The reason for which a template is malformed. -/
theorem isUnbroken_reason (cause : Template.Fault) : IsUnbroken cause.reason := by
  cases cause <;> exact isUnbroken_of_all (by decide)

/-- **What is wrong with a literal** is told in one line, but for an argument, which the source
spells. -/
theorem isToldFrom_of_compileLiteral {strict : Bool} {t : Syntax.Token} (ht : t.IsLiteralIn source)
    {f : Finding} (h : compileLiteral strict t = .error (.violation f)) : f.IsToldFrom source := by
  obtain ⟨hin, hstring⟩ := ht
  rcases compileLiteral_cases strict t with
    ⟨e, he, heq⟩ | ⟨d, hd, ⟨fault, -, heq⟩ | ⟨m, hm, heq⟩⟩
  · rw [heq] at h
    cases h
    refine Finding.isToldFrom_of_one rfl (isUnbroken_ofList fun hmem => hin.newline_notMem ?_)
    obtain ⟨front, back, hraw, -⟩ := Escape.exists_append_of_decode_error he
    have hbody : '\n' ∈ (t.text.drop 1).dropLast := by
      rw [hraw, List.mem_append, List.mem_append]
      exact .inl (.inr hmem)
    exact List.mem_of_mem_drop (List.dropLast_subset _ hbody)
  · rw [heq] at h
    cases h
    cases fault with
    | unterminated => exact Finding.isToldFrom_of_fixed rfl
    | emptyArgument => exact Finding.isToldFrom_of_fixed rfl
    | malformed _ cause => exact Finding.isToldFrom_of_one rfl (isUnbroken_reason cause)
  · rw [heq, Outcome.map_eq_error_iff, Outcome.mapM_eq_error_iff] at h
    obtain ⟨done, a, rest, hargs, -, ha⟩ := h
    refine ⟨isInLine_of_argument_error ha, fun expression reason hf => ?_⟩
    have hstands := (Placeholder.standsIn_of_compile hm).1 a (by simp [hargs])
    obtain ⟨before, after, hliteral, hoffset⟩ := hstands.exists_append
    obtain ⟨-, raw, e, hraw, he, hpart⟩ := exists_narrowed hin hstring hd hliteral hstands.1
    rw [← hoffset] at hraw
    exact ⟨_, raw, e, span_of_argument_error ha, hraw, he,
      hpart.trans (quotes_of_argument_error ha hf).symm⟩

/-! ### Declarations -/

variable {a : Syntax.Attribute} {as : List Syntax.Attribute}

/-- Checking a name. -/
theorem findsOnly_checkName {what : String} (hwhat : IsUnbroken what) (reserved : List String)
    {name : Syntax.Token} (h : '\n' ∉ name.text) :
    FindsOnly (Finding.IsToldFrom source) (fun _ => True) (checkName what reserved name) := by
  unfold checkName
  dsimp only
  split
  · exact findsOnly_refuse
      (Finding.isToldFrom_of_two (by decide) rfl (isUnbroken_ofList h) hwhat)
  · exact findsOnly_pure trivial

/-- Noting an attribute. -/
theorem findsOnly_noteUnknown (h : a.IsInLine source) :
    FindsOnly (Finding.IsToldFrom source) (fun _ => True) (noteUnknown a) := by
  unfold noteUnknown
  split
  · exact findsOnly_pure trivial
  · exact findsOnly_note (Finding.isToldFrom_of_one rfl h.name)

/-- Compiling the message of an attribute. -/
theorem findsOnly_message (strict : Bool) (h : a.IsInLine source) :
    FindsOnly (Finding.IsToldFrom source) Message.IsInLine (message strict a) := by
  unfold message
  split
  · exact findsOnly_refuse (Finding.isToldFrom_of_one rfl h.name)
  · next literal hliteral =>
    cases hmade : compileLiteral strict literal with
    | error e =>
      apply findsOnly_throw
      rintro f rfl
      exact isToldFrom_of_compileLiteral (h.literal literal hliteral) hmade
    | ok m => exact findsOnly_pure (Message.isInLine_of_compileLiteral hmade)

/-- Compiling the messages of a variant. -/
theorem findsOnly_messages (strict : Bool) (h : ∀ a ∈ as, a.IsInLine source) :
    FindsOnly (Finding.IsToldFrom source) (fun ms => ∀ m ∈ ms.1 ++ ms.2, m.IsInLine)
      (messages strict as) := by
  induction as with
  | nil => exact findsOnly_pure (by simp)
  | cons a rest ih =>
    obtain ⟨ha, hrest⟩ := List.forall_mem_cons.mp h
    unfold messages
    split
    · refine (findsOnly_message strict ha).bind fun m hm => (ih hrest).bind fun ms hms =>
        findsOnly_pure ?_
      exact List.forall_mem_cons.mpr ⟨hm, hms⟩
    · split
      · refine (findsOnly_message strict ha).bind fun m hm => (ih hrest).bind fun ms hms =>
          findsOnly_pure ?_
        rw [List.forall_mem_append] at hms ⊢
        exact ⟨hms.1, List.forall_mem_cons.mpr ⟨hm, hms.2⟩⟩
      · exact (findsOnly_noteUnknown ha).bind fun _ _ => ih hrest

/-- Giving a field its role. -/
theorem findsOnly_role (earlier : List Field) (f : Syntax.Field) :
    FindsOnly (Finding.IsToldFrom source) (fun _ => True) (role earlier f) := by
  have hrefuse : ∀ {α : Type} {P : α → Prop} {p : Problem} (span : Span), p.values = [] →
      FindsOnly (Finding.IsToldFrom source) P (refuse p span : Describing α) := fun span h =>
    findsOnly_refuse (Finding.isToldFrom_of_fixed h)
  unfold role
  dsimp only
  split
  · split
    · exact hrefuse _ rfl
    · split
      · exact hrefuse _ rfl
      · exact findsOnly_pure trivial
  · split
    · split
      · exact hrefuse _ rfl
      · split
        · exact hrefuse _ rfl
        · exact findsOnly_pure trivial
    · exact findsOnly_pure trivial

/-- Describing a field. -/
theorem findsOnly_field {variant : String} (hvariant : IsUnbroken variant) (earlier : List Field)
    {f : Syntax.Field} (h : f.IsInLine source) :
    FindsOnly (Finding.IsToldFrom source) (fun _ => True) (field variant earlier f) := by
  have hname : IsUnbroken (String.ofList f.name.text) := isUnbroken_ofList h.name
  unfold field
  dsimp only
  split
  · refine (findsOnly_checkName (by decide) _ h.name).bind fun _ _ => ?_
    refine FindsOnly.bind (findsOnly_forM fun a ha => ?_) fun _ _ => ?_
    · split
      · exact findsOnly_pure trivial
      · exact findsOnly_noteUnknown (h.attributes a ha)
    · refine (findsOnly_role earlier f).bind fun role _ => ?_
      split
      · exact findsOnly_refuse (Finding.isToldFrom_of_two (by decide) rfl hname hvariant)
      · exact findsOnly_pure trivial
  · refine findsOnly_refuse (Finding.isToldFrom_of_one rfl ?_)
    exact (((IsUnbroken.append (by decide) hname).append (isUnbroken_of_all (by decide))).append
      hname).append (by decide)

/-- Describing fields. -/
theorem findsOnly_fields {variant : String} (hvariant : IsUnbroken variant) (earlier : List Field)
    {fs : List Syntax.Field} (h : ∀ f ∈ fs, f.IsInLine source) :
    FindsOnly (Finding.IsToldFrom source) (fun _ => True) (fields variant earlier fs) := by
  induction fs generalizing earlier with
  | nil => exact findsOnly_pure trivial
  | cons f rest ih =>
    obtain ⟨hf, hrest⟩ := List.forall_mem_cons.mp h
    exact (findsOnly_field hvariant earlier hf).bind fun g _ => ih _ hrest

/-- Noting the names in a message that are not those of fields. -/
theorem findsOnly_noteNonFields {v : Variant} (hv : IsUnbroken v.name) {m : Message}
    (h : m.IsInLine) :
    FindsOnly (Finding.IsToldFrom source) (fun _ => True) (noteNonFields v m) := by
  refine findsOnly_forM fun a ha => ?_
  split
  · next hnamed =>
    exact findsOnly_note (Finding.isToldFrom_of_two (by decide) rfl (h a ha hnamed.1) hv)
  · exact findsOnly_pure trivial

/-- Describing a variant. -/
theorem findsOnly_variant (strict : Bool) (enumeration : String) {v : Syntax.Variant}
    (h : v.IsInLine source) :
    FindsOnly (Finding.IsToldFrom source) (fun w => IsUnbroken w.name)
      (variant strict enumeration v) := by
  have hname : IsUnbroken (String.ofList v.name.text) := isUnbroken_ofList h.name
  unfold variant
  dsimp only
  refine (findsOnly_checkName (by decide) _ h.name).bind fun _ _ =>
    (findsOnly_messages strict h.attributes).bind fun ms hms => ?_
  obtain ⟨errors, helps⟩ := ms
  dsimp only
  have hdescribed : ∀ w : Variant, IsUnbroken w.name →
      FindsOnly (Finding.IsToldFrom source) (fun w : Variant => IsUnbroken w.name)
        ((errors ++ helps).forM (noteNonFields w) >>= fun _ => pure w) := fun w hw =>
    (findsOnly_forM fun m hm => findsOnly_noteNonFields hw (hms m hm)).bind fun _ _ =>
      findsOnly_pure hw
  split
  · exact findsOnly_refuse (Finding.isToldFrom_of_fixed rfl)
  · split
    · exact hdescribed _ hname
    · exact findsOnly_refuse (Finding.isToldFrom_of_fixed rfl)
    · exact findsOnly_refuse (Finding.isToldFrom_of_fixed rfl)
    · next fs hfs =>
      exact (findsOnly_fields hname _ (h.fields fs hfs)).bind fun declared _ => hdescribed _ hname

/-- Where something was declared before is told in one line. -/
theorem isUnbroken_toString_span (s : Span) : IsUnbroken (toString s) :=
  Report.notMem_toString_span (by decide) s

/-- Describing variants. -/
theorem findsOnly_variants (strict : Bool) (enumeration : String) (earlier : List Variant)
    {vs : List Syntax.Variant} (h : ∀ v ∈ vs, v.IsInLine source) :
    FindsOnly (Finding.IsToldFrom source) (fun _ => True)
      (variants strict enumeration earlier vs) := by
  induction vs generalizing earlier with
  | nil => exact findsOnly_pure trivial
  | cons v rest ih =>
    obtain ⟨hv, hrest⟩ := List.forall_mem_cons.mp h
    refine (findsOnly_variant strict enumeration hv).bind fun w hw => ?_
    split
    · exact findsOnly_refuse
        (Finding.isToldFrom_of_two (by decide) rfl hw (isUnbroken_toString_span _))
    · exact ih _ hrest

/-- Looking for the mark of a top-level enumeration. -/
theorem findsOnly_topLevel (marked : Bool) (h : ∀ a ∈ as, a.IsInLine source) :
    FindsOnly (Finding.IsToldFrom source) (fun _ => True) (topLevel marked as) := by
  induction as generalizing marked with
  | nil => exact findsOnly_pure trivial
  | cons a rest ih =>
    obtain ⟨ha, hrest⟩ := List.forall_mem_cons.mp h
    unfold topLevel
    split
    · split
      · exact (findsOnly_note (Finding.isToldFrom_of_fixed rfl)).bind fun _ _ =>
          ih true hrest
      · exact ih true hrest
    · exact (findsOnly_noteUnknown ha).bind fun _ _ => ih marked hrest

/-- **Describing a declaration** finds problems that are told in one line, arguments apart. -/
theorem findsOnly_enumeration (strict : Bool) {d : Syntax.Declaration} (h : d.IsInLine source) :
    FindsOnly (Finding.IsToldFrom source) (fun e => IsUnbroken e.name) (enumeration strict d) := by
  have hname : IsUnbroken (String.ofList d.name.text) := isUnbroken_ofList h.name
  have hmade : ∀ {ws isTopLevel}, FindsOnly (Finding.IsToldFrom source) (fun e => IsUnbroken e.name)
      (pure ⟨String.ofList d.name.text, ws, isTopLevel, d.span, d.name.span⟩ :
        Describing Enumeration) := findsOnly_pure hname
  unfold enumeration
  dsimp only
  split
  · exact findsOnly_refuse (Finding.isToldFrom_of_fixed rfl)
  · split
    · exact findsOnly_refuse (Finding.isToldFrom_of_fixed rfl)
    · refine (findsOnly_checkName (by decide) _ h.name).bind fun _ _ =>
        (findsOnly_topLevel false h.attributes).bind fun isTopLevel _ => ?_
      split
      · exact findsOnly_refuse (Finding.isToldFrom_of_fixed rfl)
      · exact hmade
      · next vs hvs =>
        exact (findsOnly_variants strict _ [] (h.variants vs hvs)).bind fun _ _ => hmade

/-! ### Files -/

/-- What is found when an item is added to a file. -/
theorem isToldFrom_of_findings_addItem {strict : Bool} {item : Syntax.Item}
    (h : ∀ declaration, item = .declaration declaration → declaration.IsInLine source)
    (d : Descriptor) :
    ∀ f ∈ findings (addItem strict d item), f.IsToldFrom source := by
  cases item with
  | importModule => exact fun f hf => absurd hf List.not_mem_nil
  | importNames => exact fun f hf => absurd hf List.not_mem_nil
  | declaration declaration =>
    have hfinds := findsOnly_enumeration strict (h declaration rfl)
    rw [findings_addItem_declaration]
    refine List.forall_mem_append.mpr ⟨hfinds.noted, ?_⟩
    cases hmade : outcome (enumeration strict declaration) with
    | error e =>
      cases e with
      | violation f => exact List.forall_mem_singleton.mpr (hfinds.met f hmade)
      | unreadable u => exact List.forall_mem_nil _
    | ok e =>
      dsimp only [addEnumeration]
      split
      · intro f hf
        obtain rfl := List.mem_singleton.mp hf
        exact Finding.isToldFrom_of_two (by decide) rfl (hfinds.holds e hmade)
          (isUnbroken_toString_span _)
      · exact List.forall_mem_nil _

/-- **What is found in a file** is told in one line, arguments apart. -/
theorem isToldFrom_of_describe {strict : Bool} {items : List Syntax.Item}
    {description : Description}
    (hitems : ∀ declaration, .declaration declaration ∈ items → declaration.IsInLine source)
    (hdescribe : describe strict items = .ok description)
    (hnames : ∀ e ∈ description.descriptor.enumerations, ∀ n ∈ e.generatedNames, IsUnbroken n.1) :
    ∀ f ∈ description.findings, f.IsToldFrom source := by
  obtain ⟨-, hfindings⟩ := describe_eq_ok_iff.mp hdescribe
  rw [hfindings]
  refine List.forall_mem_append.mpr ⟨forall_findings_addItems (fun item hitem =>
    isToldFrom_of_findings_addItem fun declaration heq => hitems declaration (heq ▸ hitem)) _, ?_⟩
  intro f hf
  obtain ⟨before, name, span, after, heq, -, rfl⟩ := exists_repetition_of_mem hf
  have hmem : (name, span) ∈ namesOf description.descriptor.enumerations := by simp [heq]
  obtain ⟨e, he, hn⟩ := List.mem_flatMap.mp hmem
  exact Finding.isToldFrom_of_one rfl (hnames e he _ hn)

end Descriptor

end Errata
