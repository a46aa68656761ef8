import Errata.Proofs.Descriptor.Describing
import Errata.Proofs.Emission.Module

/-!
# Described files

What the steps of a description make, and which of them meet an argument that cannot be read. Such
an argument gives up the whole file, so it matters how far a description comes: `ComesTo` says that
all that stands before a literal is in order.

* `variant_eq`, `enumeration_eq`: the steps by which variants and declarations are described.
* `enumeration_isSound`: **what is described is sound**.
* `ComesTo`: describing a declaration comes to a literal.
* **`describe_isOk_iff`**: a file is described unless a literal that one of its declarations comes
  to has an argument that cannot be read.
-/

set_option linter.unusedSectionVars false

namespace Errata.Descriptor

/-! ### Names and attributes -/

/-- Checking a name reads no literal. -/
theorem yields_checkName (what : String) (reserved : List String) (name : Syntax.Token) :
    Yields (fun _ => True) (checkName what reserved name) := by
  unfold checkName
  dsimp only
  split
  · exact yields_refuse _ _
  · exact yields_pure trivial

/-- Noting an attribute reads no literal. -/
theorem yields_noteUnknown (a : Syntax.Attribute) : Yields (fun _ => True) (noteUnknown a) := by
  unfold noteUnknown
  split
  · exact yields_pure trivial
  · exact yields_note _ _

/-- Noting an attribute meets no obstacle. -/
theorem outcome_noteUnknown (a : Syntax.Attribute) : outcome (noteUnknown a) = .ok () := by
  unfold noteUnknown
  split <;> rfl

/-! ### Fields -/

/-- The role of a field is one of the three. -/
theorem yields_role (earlier : List Field) (f : Syntax.Field) :
    Yields (fun role => ∀ word, role ≠ .other word) (role earlier f) := by
  have hsource : Yields (fun role => ∀ word, role ≠ .other word) (pure Role.source) :=
    yields_pure nofun
  have hlocation : Yields (fun role => ∀ word, role ≠ .other word) (pure Role.location) :=
    yields_pure nofun
  unfold role
  dsimp only
  split
  · split
    · exact yields_refuse _ _
    · split
      · exact yields_refuse _ _
      · exact hsource
  · split
    · split
      · exact yields_refuse _ _
      · split
        · exact yields_refuse _ _
        · exact hlocation
    · exact yields_pure nofun

/-- A described field is sound. -/
theorem yields_field (variant : String) (earlier : List Field) (f : Syntax.Field) :
    Yields Field.IsSound (field variant earlier f) := by
  unfold field
  dsimp only
  split
  · refine (yields_checkName _ _ _).bind fun _ _ => ?_
    refine Yields.bind (yields_forM (fun a => ?_) f.attributes) fun _ _ => ?_
    · split
      · exact yields_pure trivial
      · exact yields_noteUnknown a
    · refine (yields_role earlier f).bind fun role hrole => ?_
      split
      · exact yields_refuse _ _
      · exact yields_pure hrole
  · exact yields_refuse _ _

/-- Described fields are sound if the earlier fields are. -/
theorem yields_fields (variant : String) {earlier : List Field}
    (h : ∀ f ∈ earlier, f.IsSound) (fs : List Syntax.Field) :
    Yields (fun fields => ∀ f ∈ fields, f.IsSound) (fields variant earlier fs) := by
  induction fs generalizing earlier with
  | nil => exact yields_pure h
  | cons f rest ih =>
    refine (yields_field variant earlier f).bind fun g hg => ih ?_
    intro f' hm
    rcases List.mem_append.mp hm with hm | hm
    · exact h f' hm
    · exact List.mem_singleton.mp hm ▸ hg

/-! ### Messages -/

variable [Expression.Capacity]

/-- Compiling the message of an attribute is steady. -/
theorem isSteady_message (strict : Bool) (a : Syntax.Attribute) : IsSteady (message strict a) := by
  unfold message
  split
  · exact isSteady_refuse _ _
  · rename_i token _
    cases compileLiteral strict token with
    | error e => exact isSteady_throw e
    | ok m => exact isSteady_pure m

/-- Compiling the messages of a variant is steady. -/
theorem isSteady_messages (strict : Bool) (as : List Syntax.Attribute) :
    IsSteady (messages strict as) := by
  induction as with
  | nil => exact isSteady_pure _
  | cons a rest ih =>
    unfold messages
    split
    · exact (isSteady_message strict a).bind fun _ _ => ih.bind fun _ _ => isSteady_pure _
    · split
      · exact (isSteady_message strict a).bind fun _ _ => ih.bind fun _ _ => isSteady_pure _
      · exact (yields_noteUnknown a).steady.bind fun _ _ => ih

/-- Whether an attribute gives a message or a help text. -/
def IsMessage (a : Syntax.Attribute) : Prop :=
  a.name = "error" ∨ a.name = "help"

/-- The message of an attribute has an argument that cannot be read if its literal has. -/
theorem message_eq_unreadable_iff {strict : Bool} {a : Syntax.Attribute} {u : Unreadable} :
    outcome (message strict a) = .error (.unreadable u) ↔
      ∃ token, a.literal = some token ∧ compileLiteral strict token = .error (.unreadable u) := by
  unfold message
  cases a.literal with
  | none => simp [violation]
  | some token =>
    cases hmade : compileLiteral strict token with
    | error e => simp [message.liftExcept, hmade]
    | ok m => simp [message.liftExcept, hmade]

/-- The messages of a variant, one attribute more: a message is compiled before those that follow,
and any other attribute is passed over. -/
theorem messages_cons_eq_unreadable_iff {strict : Bool} {a : Syntax.Attribute}
    {rest : List Syntax.Attribute} {u : Unreadable} :
    outcome (messages strict (a :: rest)) = .error (.unreadable u) ↔
      IsMessage a ∧ outcome (message strict a) = .error (.unreadable u) ∨
      (IsMessage a → ∃ m, outcome (message strict a) = .ok m) ∧
        outcome (messages strict rest) = .error (.unreadable u) := by
  have hmessage : ∀ (f : Message → List Message × List Message → List Message × List Message),
      outcome (message strict a >>= fun m => messages strict rest >>= fun ms =>
        (pure (f m ms) : Describing (List Message × List Message))) = .error (.unreadable u) ↔
      outcome (message strict a) = .error (.unreadable u) ∨
      (∃ m, outcome (message strict a) = .ok m) ∧
        outcome (messages strict rest) = .error (.unreadable u) := by
    intro f
    have hrest := isSteady_messages strict rest
    have hyields : ∀ m ms, Yields (fun _ => True) (pure (f m ms)) := fun m ms => yields_pure trivial
    rw [bind_eq_error_iff (isSteady_message strict a)
      fun m _ => hrest.bind fun _ _ => isSteady_pure _]
    simp only [bind_eq_unreadable_iff hrest (hyields _), exists_and_right]
  rw [messages]
  by_cases herror : a.name = "error"
  · rw [if_pos herror]
    simpa [IsMessage, herror] using hmessage fun m ms => (m :: ms.1, ms.2)
  · rw [if_neg herror]
    by_cases hhelp : a.name = "help"
    · rw [if_pos hhelp]
      simpa [IsMessage, hhelp] using hmessage fun m ms => (ms.1, m :: ms.2)
    · rw [if_neg hhelp, (yields_noteUnknown a).bind_eq_unreadable_iff fun _ _ =>
        isSteady_messages strict rest]
      simp [IsMessage, herror, hhelp, outcome_noteUnknown]

/-- The messages of a variant meet an argument that cannot be read in the first message that does
not compile, if that has one. -/
theorem messages_eq_unreadable_iff {strict : Bool} {as : List Syntax.Attribute} {u : Unreadable} :
    outcome (messages strict as) = .error (.unreadable u) ↔
      ∃ before a after, as = before ++ a :: after ∧
        (∀ b ∈ before, IsMessage b → ∃ m, outcome (message strict b) = .ok m) ∧
        IsMessage a ∧ outcome (message strict a) = .error (.unreadable u) := by
  induction as with
  | nil => simp [messages]
  | cons first rest ih =>
    rw [messages_cons_eq_unreadable_iff, ih]
    constructor
    · rintro (⟨hm, hu⟩ | ⟨hfirst, before, a, after, rfl, hbefore, hm, hu⟩)
      · exact ⟨[], first, rest, rfl, by simp, hm, hu⟩
      · exact ⟨first :: before, a, after, rfl, by simpa using ⟨hfirst, hbefore⟩, hm, hu⟩
    · rintro ⟨before, a, after, heq, hbefore, hm, hu⟩
      cases before with
      | nil =>
        obtain ⟨rfl, rfl⟩ := List.cons.inj heq
        exact Or.inl ⟨hm, hu⟩
      | cons b before =>
        obtain ⟨rfl, rfl⟩ := List.cons.inj heq
        rw [List.forall_mem_cons] at hbefore
        exact Or.inr ⟨hbefore.1, before, a, after, rfl, hbefore.2, hm, hu⟩

/-! ### Variants -/

/-- How a variant is described: its name is checked and its messages are compiled; the rest reads no
literal, is the same in both modes, and makes a sound variant. -/
theorem variant_eq (enumeration : String) (v : Syntax.Variant) :
    ∃ rest : List Message × List Message → Describing Variant,
      (∀ strict, variant strict enumeration v =
        (checkName "variant" inheritedMembers v.name >>= fun _ =>
          messages strict v.attributes >>= rest)) ∧
      ∀ ms, Yields Variant.IsSound (rest ms) := by
  refine ⟨_, fun strict => rfl, ?_⟩
  rintro ⟨errors, helps⟩
  dsimp only
  -- The rest is the same whichever shape the variant has.
  have hdescribed : ∀ declared : List Field, errors ≠ [] → (∀ f ∈ declared, f.IsSound) →
      Yields Variant.IsSound
        ((errors ++ helps).forM (noteNonFields ⟨enumeration, String.ofList v.name.text, errors,
            helps, declared, v.span, v.name.span⟩) >>= fun _ =>
          pure ⟨enumeration, String.ofList v.name.text, errors, helps, declared, v.span,
            v.name.span⟩) := by
    intro declared hmessages hfields
    refine (yields_forM (fun m : Message => yields_forM (fun a => ?_) m.arguments) _).bind
      fun _ _ => ?_
    · split
      · exact yields_note _ _
      · exact yields_pure trivial
    · exact yields_pure ⟨hmessages, hfields⟩
  split
  · exact yields_refuse _ _
  · rename_i hne
    have hmessages : errors ≠ [] := by simpa using hne
    split
    · exact hdescribed [] hmessages (by simp)
    · exact yields_refuse _ _
    · exact yields_refuse _ _
    · exact (yields_fields _ (by simp) _).bind fun declared hfields =>
        hdescribed declared hmessages hfields

/-- Describing a variant is steady. -/
theorem isSteady_variant (strict : Bool) (enumeration : String) (v : Syntax.Variant) :
    IsSteady (variant strict enumeration v) := by
  obtain ⟨rest, heq, hrest⟩ := variant_eq enumeration v
  rw [heq]
  exact (yields_checkName _ _ _).steady.bind fun _ _ =>
    (isSteady_messages strict _).bind fun ms _ => (hrest ms).steady

/-- A described variant is sound. -/
theorem variant_isSound {strict : Bool} {enumeration : String} {v : Syntax.Variant} {w : Variant}
    (h : outcome (variant strict enumeration v) = .ok w) : w.IsSound := by
  obtain ⟨rest, heq, hrest⟩ := variant_eq enumeration v
  have hsteady := isSteady_messages strict v.attributes
  rw [heq, bind_eq_ok_iff (yields_checkName _ _ _).steady
    fun _ _ => hsteady.bind fun ms _ => (hrest ms).steady] at h
  obtain ⟨-, -, h⟩ := h
  obtain ⟨ms, -, h⟩ := (bind_eq_ok_iff hsteady fun ms _ => (hrest ms).steady).mp h
  exact (hrest ms).holds w h

/-- A variant whose name may be used meets an argument that cannot be read if its messages do. -/
theorem variant_eq_unreadable_iff {strict : Bool} {enumeration : String} {v : Syntax.Variant}
    {u : Unreadable} :
    outcome (variant strict enumeration v) = .error (.unreadable u) ↔
      outcome (checkName "variant" inheritedMembers v.name) = .ok () ∧
        outcome (messages strict v.attributes) = .error (.unreadable u) := by
  obtain ⟨rest, heq, hrest⟩ := variant_eq enumeration v
  have hsteady := isSteady_messages strict v.attributes
  rw [heq, (yields_checkName _ _ _).bind_eq_unreadable_iff
    fun _ _ => hsteady.bind fun ms _ => (hrest ms).steady]
  simp only [bind_eq_unreadable_iff hsteady hrest]
  exact ⟨fun ⟨_, hname, hu⟩ => ⟨hname, hu⟩, fun ⟨hname, hu⟩ => ⟨(), hname, hu⟩⟩

/-- Describing variants is steady. -/
theorem isSteady_variants (strict : Bool) (enumeration : String) (earlier : List Variant)
    (vs : List Syntax.Variant) : IsSteady (variants strict enumeration earlier vs) := by
  induction vs generalizing earlier with
  | nil => exact isSteady_pure earlier
  | cons v rest ih =>
    refine (isSteady_variant strict enumeration v).bind fun w _ => ?_
    split
    · exact isSteady_refuse _ _
    · exact ih _

/-- The outcome of describing variants, one variant more. -/
theorem outcome_variants_cons (strict : Bool) (enumeration : String) (earlier : List Variant)
    (v : Syntax.Variant) (rest : List Syntax.Variant) :
    outcome (variants strict enumeration earlier (v :: rest)) =
      (outcome (variant strict enumeration v)).bind fun w =>
        match earlier.find? fun u => u.name = w.name with
        | some u =>
          .error (violation (.duplicateVariant w.name (u.nameSpan.getD v.name.span)) v.name.span)
        | none => outcome (variants strict enumeration (earlier ++ [w]) rest) := by
  rw [variants, outcome_bind (isSteady_variant strict enumeration v)]
  · congr 1
    funext w
    cases earlier.find? fun u => u.name = w.name <;> rfl
  · intro w _
    split
    · exact isSteady_refuse _ _
    · exact isSteady_variants strict enumeration _ rest

/-- Described variants are sound if the earlier variants are. -/
theorem variants_isSound {strict : Bool} {enumeration : String} {earlier ws : List Variant}
    {vs : List Syntax.Variant} (hearlier : ∀ w ∈ earlier, w.IsSound)
    (h : outcome (variants strict enumeration earlier vs) = .ok ws) : ∀ w ∈ ws, w.IsSound := by
  induction vs generalizing earlier with
  | nil =>
    obtain rfl : earlier = ws := by simpa [variants] using h
    exact hearlier
  | cons v rest ih =>
    rw [outcome_variants_cons, Outcome.bind_eq_ok_iff] at h
    obtain ⟨w, hw, h⟩ := h
    split at h
    · cases h
    · refine ih (fun w' hm => ?_) h
      rcases List.mem_append.mp hm with hm | hm
      · exact hearlier w' hm
      · exact List.mem_singleton.mp hm ▸ variant_isSound hw

/-- Variants meet an argument that cannot be read in one of them, those before it being
described. -/
theorem variants_eq_unreadable_iff {strict : Bool} {enumeration : String} {earlier : List Variant}
    {vs : List Syntax.Variant} {u : Unreadable} :
    outcome (variants strict enumeration earlier vs) = .error (.unreadable u) ↔
      ∃ before v after ws, vs = before ++ v :: after ∧
        outcome (variants strict enumeration earlier before) = .ok ws ∧
        outcome (variant strict enumeration v) = .error (.unreadable u) := by
  induction vs generalizing earlier with
  | nil => simp [variants]
  | cons first rest ih =>
    rw [outcome_variants_cons]
    constructor
    · intro h
      cases hfirst : outcome (variant strict enumeration first) with
      | error e =>
        rw [hfirst] at h
        have hu : Except.error (α := Variant) e = .error (.unreadable u) := by
          simpa [Except.bind] using h
        exact ⟨[], first, rest, earlier, rfl, rfl, hfirst.trans hu⟩
      | ok w =>
        rw [hfirst] at h
        simp only [Except.bind] at h
        split at h
        · cases h
        · rename_i hfresh
          obtain ⟨before, v, after, ws, rfl, hws, hu⟩ := ih.mp h
          refine ⟨first :: before, v, after, ws, rfl, ?_, hu⟩
          rw [outcome_variants_cons, hfirst]
          simp only [Except.bind, hfresh, hws]
    · rintro ⟨before, v, after, ws, heq, hws, hu⟩
      cases before with
      | nil =>
        obtain ⟨rfl, rfl⟩ := List.cons.inj heq
        rw [hu]
        rfl
      | cons b before =>
        obtain ⟨rfl, rfl⟩ := List.cons.inj heq
        rw [outcome_variants_cons, Outcome.bind_eq_ok_iff] at hws
        obtain ⟨w, hw, hws⟩ := hws
        rw [hw]
        simp only [Except.bind]
        split at hws
        · cases hws
        · exact ih.mpr ⟨before, v, after, ws, rfl, hws, hu⟩

/-! ### Declarations -/

/-- Looking for the mark of a top-level enumeration reads no literal. -/
theorem yields_topLevel (marked : Bool) (as : List Syntax.Attribute) :
    Yields (fun _ => True) (topLevel marked as) := by
  induction as generalizing marked with
  | nil => exact yields_pure trivial
  | cons a rest ih =>
    unfold topLevel
    split
    · split
      · exact (yields_note _ _).bind fun _ _ => ih true
      · exact ih true
    · exact (yields_noteUnknown a).bind fun _ _ => ih marked

/-- Looking for the mark of a top-level enumeration meets no obstacle, and finds it among the
attributes. -/
theorem outcome_topLevel (marked : Bool) (as : List Syntax.Attribute) :
    outcome (topLevel marked as) = .ok (marked || as.any fun a => a.name = "top_level") := by
  induction as generalizing marked with
  | nil => simp [topLevel]
  | cons a rest ih =>
    unfold topLevel
    rw [List.any_cons]
    split
    · next hname =>
      have hmarked := ih true
      rw [Bool.true_or] at hmarked
      rw [decide_eq_true hname, Bool.true_or, Bool.or_true]
      split
      · exact (bind_eq_ok_iff (isSteady_note _ _) fun _ _ =>
          (yields_topLevel true rest).steady).mpr ⟨(), rfl, hmarked⟩
      · exact hmarked
    · next hname =>
      rw [decide_eq_false hname, Bool.false_or]
      exact (bind_eq_ok_iff (yields_noteUnknown a).steady fun _ _ =>
        (yields_topLevel marked rest).steady).mpr ⟨(), outcome_noteUnknown a, ih marked⟩

/-- Looking for the mark of a top-level enumeration meets no obstacle. -/
theorem exists_outcome_topLevel (marked : Bool) (as : List Syntax.Attribute) :
    ∃ isTopLevel, outcome (topLevel marked as) = .ok isTopLevel :=
  ⟨_, outcome_topLevel marked as⟩

/-- A declaration is proper if it is an enumeration without inner attributes whose name may be
used. -/
structure IsProper (d : Syntax.Declaration) : Prop where
  /-- It is an enumeration. -/
  kind : d.kind.terminal = .enumWord
  /-- It has no inner attributes. -/
  inner : d.innerAttributes = []
  /-- Its name may be used. -/
  name : outcome (checkName "enum" [] d.name) = .ok ()

/-- The variants of the body of a declaration, if the body has names. -/
def declared (strict : Bool) (d : Syntax.Declaration) : Describing (List Variant) :=
  match d.body with
  | .positional => refuse .notNamedFields d.span
  | .empty => pure []
  | .variants vs => variants strict (String.ofList d.name.text) [] vs

/-- Describing the variants of a body is steady. -/
theorem isSteady_declared (strict : Bool) (d : Syntax.Declaration) :
    IsSteady (declared strict d) := by
  unfold declared
  split
  · exact isSteady_refuse _ _
  · exact isSteady_pure _
  · exact isSteady_variants _ _ _ _

/-- How an enumeration without inner attributes is described. -/
theorem enumeration_eq {strict : Bool} {d : Syntax.Declaration}
    (hkind : d.kind.terminal = .enumWord) (hinner : d.innerAttributes = []) :
    enumeration strict d =
      (checkName "enum" [] d.name >>= fun _ => topLevel false d.attributes >>= fun isTopLevel =>
        declared strict d >>= fun vs =>
          pure ⟨String.ofList d.name.text, vs, isTopLevel, d.span, d.name.span⟩) := by
  unfold enumeration declared
  simp only [hkind, hinner]
  cases d.body <;> rfl

/-- No other declaration is described. It is the word that says what is declared that is refused, or
an inner attribute. -/
theorem enumeration_eq_refuse {d : Syntax.Declaration}
    (h : ¬(d.kind.terminal = .enumWord ∧ d.innerAttributes = [])) :
    ∃ problem span, (problem.severity = .error ∧ (span = d.kind.span ∨ span ∈ d.innerAttributes)) ∧
      ∀ strict, enumeration strict d = refuse problem span := by
  by_cases hkind : d.kind.terminal = .enumWord
  · cases hinner : d.innerAttributes with
    | nil => exact absurd ⟨hkind, hinner⟩ h
    | cons span rest =>
      refine ⟨.innerAttribute, span, ⟨rfl, Or.inr List.mem_cons_self⟩, fun strict => ?_⟩
      unfold enumeration
      dsimp only
      rw [if_neg (not_not_intro hkind), hinner]
      rfl
  · refine ⟨.notAnEnum, d.kind.span, ⟨rfl, Or.inl rfl⟩, fun strict => ?_⟩
    unfold enumeration
    dsimp only
    rw [if_pos hkind]
    rfl

/-- The enumeration that a declaration describes. -/
theorem enumeration_eq_ok_iff {strict : Bool} {d : Syntax.Declaration} {e : Enumeration} :
    outcome (enumeration strict d) = .ok e ↔
      IsProper d ∧ ∃ isTopLevel vs, outcome (topLevel false d.attributes) = .ok isTopLevel ∧
        outcome (declared strict d) = .ok vs ∧
        e = ⟨String.ofList d.name.text, vs, isTopLevel, d.span, d.name.span⟩ := by
  by_cases h : d.kind.terminal = .enumWord ∧ d.innerAttributes = []
  · have hdeclared := isSteady_declared strict d
    have htop := (yields_topLevel false d.attributes).steady
    rw [enumeration_eq h.1 h.2, bind_eq_ok_iff (yields_checkName _ _ _).steady
      fun _ _ => htop.bind fun _ _ => hdeclared.bind fun _ _ => isSteady_pure _]
    simp only [bind_eq_ok_iff htop fun _ _ => hdeclared.bind fun _ _ => isSteady_pure _,
      bind_eq_ok_iff hdeclared fun _ _ => isSteady_pure _, outcome_pure, Except.ok.injEq]
    constructor
    · rintro ⟨_, hname, isTopLevel, hisTopLevel, vs, hvs, rfl⟩
      exact ⟨⟨h.1, h.2, hname⟩, isTopLevel, vs, hisTopLevel, hvs, rfl⟩
    · rintro ⟨hproper, isTopLevel, vs, hisTopLevel, hvs, rfl⟩
      exact ⟨(), hproper.name, isTopLevel, hisTopLevel, vs, hvs, rfl⟩
  · obtain ⟨problem, span, -, hrefuse⟩ := enumeration_eq_refuse h
    rw [hrefuse]
    exact ⟨nofun, fun hok => absurd ⟨hok.1.kind, hok.1.inner⟩ h⟩

/-- **A described enumeration is sound.** -/
theorem enumeration_isSound {strict : Bool} {d : Syntax.Declaration} {e : Enumeration}
    (h : outcome (enumeration strict d) = .ok e) : e.IsSound := by
  obtain ⟨-, isTopLevel, vs, -, hvs, rfl⟩ := enumeration_eq_ok_iff.mp h
  unfold declared at hvs
  split at hvs
  · cases hvs
  · cases hvs
    exact fun v hv => absurd hv List.not_mem_nil
  · exact variants_isSound (by simp) hvs

/-- Describing a declaration is steady. -/
theorem isSteady_enumeration (strict : Bool) (d : Syntax.Declaration) :
    IsSteady (enumeration strict d) := by
  by_cases h : d.kind.terminal = .enumWord ∧ d.innerAttributes = []
  · rw [enumeration_eq h.1 h.2]
    exact (yields_checkName _ _ _).steady.bind fun _ _ =>
      (yields_topLevel false _).steady.bind fun _ _ =>
        (isSteady_declared strict d).bind fun _ _ => isSteady_pure _
  · obtain ⟨problem, span, -, hrefuse⟩ := enumeration_eq_refuse h
    rw [hrefuse]
    exact isSteady_refuse problem span

/-- A declaration meets an argument that cannot be read if it is proper and its variants do. -/
theorem enumeration_eq_unreadable_iff {strict : Bool} {d : Syntax.Declaration} {u : Unreadable} :
    outcome (enumeration strict d) = .error (.unreadable u) ↔
      IsProper d ∧ outcome (declared strict d) = .error (.unreadable u) := by
  by_cases h : d.kind.terminal = .enumWord ∧ d.innerAttributes = []
  · have hdeclared := isSteady_declared strict d
    have htop := yields_topLevel false d.attributes
    obtain ⟨isTopLevel, hisTopLevel⟩ := exists_outcome_topLevel false d.attributes
    have hrest : ∀ (isTopLevel : Bool) (vs : List Variant), Yields (fun _ => True)
        (pure (⟨String.ofList d.name.text, vs, isTopLevel, d.span, d.name.span⟩ : Enumeration)) :=
      fun _ _ => yields_pure trivial
    rw [enumeration_eq h.1 h.2, (yields_checkName _ _ _).bind_eq_unreadable_iff
      fun _ _ => htop.steady.bind fun _ _ => hdeclared.bind fun _ _ => isSteady_pure _]
    simp only [htop.bind_eq_unreadable_iff fun _ _ => hdeclared.bind fun _ _ => isSteady_pure _,
      bind_eq_unreadable_iff hdeclared (hrest _)]
    constructor
    · rintro ⟨_, hname, -, -, hu⟩
      exact ⟨⟨h.1, h.2, hname⟩, hu⟩
    · rintro ⟨hproper, hu⟩
      exact ⟨(), hproper.name, isTopLevel, hisTopLevel, hu⟩
  · obtain ⟨problem, span, -, hrefuse⟩ := enumeration_eq_refuse h
    rw [hrefuse]
    exact ⟨nofun, fun hu => absurd ⟨hu.1.kind, hu.1.inner⟩ h⟩

/-! ### Literals that are reached -/

/-- Describing a declaration comes to a literal if all that stands before it is in order: the
declaration is proper, the variants before that of the literal are described, the name of that
variant may be used, and the messages before the literal compile. -/
def ComesTo (strict : Bool) (d : Syntax.Declaration) (literal : Syntax.Token) : Prop :=
  IsProper d ∧ ∃ vs v vs' ws,
    d.body = .variants (vs ++ v :: vs') ∧
    outcome (variants strict (String.ofList d.name.text) [] vs) = .ok ws ∧
    outcome (checkName "variant" inheritedMembers v.name) = .ok () ∧
    ∃ as a as', v.attributes = as ++ a :: as' ∧
      (∀ b ∈ as, IsMessage b → ∃ m, outcome (message strict b) = .ok m) ∧
      IsMessage a ∧ a.literal = some literal

/-- A declaration meets an argument that cannot be read in a literal it comes to. -/
theorem enumeration_eq_unreadable_iff_exists {strict : Bool} {d : Syntax.Declaration}
    {u : Unreadable} :
    outcome (enumeration strict d) = .error (.unreadable u) ↔
      ∃ literal, ComesTo strict d literal ∧
        compileLiteral strict literal = .error (.unreadable u) := by
  rw [enumeration_eq_unreadable_iff]
  constructor
  · rintro ⟨hproper, hu⟩
    unfold declared at hu
    split at hu
    · cases hu
    · cases hu
    · rename_i all hbody
      obtain ⟨vs, v, vs', ws, rfl, hws, hu⟩ := variants_eq_unreadable_iff.mp hu
      obtain ⟨hname, hu⟩ := variant_eq_unreadable_iff.mp hu
      obtain ⟨as, a, as', hattributes, has, ha, hu⟩ := messages_eq_unreadable_iff.mp hu
      obtain ⟨literal, hliteral, hu⟩ := message_eq_unreadable_iff.mp hu
      exact ⟨literal, ⟨hproper, vs, v, vs', ws, hbody, hws, hname, as, a, as', hattributes, has, ha,
        hliteral⟩, hu⟩
  · rintro ⟨literal, ⟨hproper, vs, v, vs', ws, hbody, hws, hname, as, a, as', hattributes, has, ha,
      hliteral⟩, hu⟩
    have hvariant : outcome (variant strict (String.ofList d.name.text) v) =
        .error (.unreadable u) :=
      variant_eq_unreadable_iff.mpr ⟨hname, messages_eq_unreadable_iff.mpr
        ⟨as, a, as', hattributes, has, ha, message_eq_unreadable_iff.mpr ⟨literal, hliteral, hu⟩⟩⟩
    refine ⟨hproper, ?_⟩
    rw [declared, hbody]
    exact variants_eq_unreadable_iff.mpr ⟨vs, v, vs', ws, rfl, hws, hvariant⟩

/-! ### Files -/

/-- Adding an enumeration to a file keeps it sound. -/
theorem yields_addEnumeration {d : Descriptor} (hd : d.IsSound) {e : Enumeration}
    (he : e.IsSound) : Yields IsSound (addEnumeration d e) := by
  unfold addEnumeration
  split
  · exact (yields_note _ _).bind fun _ _ => yields_pure hd
  · refine yields_pure fun e' hm => ?_
    rcases List.mem_append.mp hm with hm | hm
    · exact hd e' hm
    · exact List.mem_singleton.mp hm ▸ he

/-- An enumeration can always be added to a file. -/
theorem exists_outcome_addEnumeration (d : Descriptor) (e : Enumeration) :
    ∃ d', outcome (addEnumeration d e) = .ok d' := by
  unfold addEnumeration
  split
  · exact ⟨d, rfl⟩
  · exact ⟨_, rfl⟩

/-- Adding an enumeration to a file is steady. -/
theorem isSteady_addEnumeration (d : Descriptor) (e : Enumeration) :
    IsSteady (addEnumeration d e) := by
  unfold addEnumeration
  split
  · exact (isSteady_note _ _).bind fun _ _ => isSteady_pure _
  · exact isSteady_pure _

/-- What is done about an obstacle that a declaration meets: a violation is noted, anything else
gives up the file. -/
def noted (d : Descriptor) : Obstacle → Describing Descriptor
  | .violation f => note f.problem f.span >>= fun _ => pure d
  | .unreadable u => throw (.unreadable u)

/-- Dealing with an obstacle is steady. -/
theorem isSteady_noted (d : Descriptor) (e : Obstacle) : IsSteady (noted d e) := by
  cases e with
  | violation f => exact (isSteady_note _ _).bind fun _ _ => isSteady_pure _
  | unreadable u => exact isSteady_throw _

/-- How an item is added to a file, if it is a declaration: a violation is noted, and leaves the
file as it is. -/
theorem outcome_addItem_declaration (strict : Bool) (d : Descriptor)
    (declaration : Syntax.Declaration) :
    IsSteady (addItem strict d (.declaration declaration)) ∧
      outcome (addItem strict d (.declaration declaration)) =
        match outcome (enumeration strict declaration) with
        | .ok e => outcome (addEnumeration d e)
        | .error (.violation _) => .ok d
        | .error (.unreadable u) => .error (.unreadable u) := by
  have hadd : ∀ e, IsSteady (addEnumeration d e) := isSteady_addEnumeration d
  have hboth := (isSteady_enumeration strict declaration).bind fun e _ => hadd e
  refine ⟨hboth.tryCatch fun e _ => isSteady_noted d e, ?_⟩
  refine (outcome_tryCatch hboth fun e _ => isSteady_noted d e).trans ?_
  rw [outcome_bind (isSteady_enumeration strict declaration) fun e _ => hadd e]
  cases outcome (enumeration strict declaration) with
  | error e =>
    cases e with
    | violation f =>
      exact outcome_bind (isSteady_note f.problem f.span) fun _ _ => isSteady_pure d
    | unreadable u => rfl
  | ok e =>
    obtain ⟨d', hd'⟩ := exists_outcome_addEnumeration d e
    simp only [Except.bind, hd']

/-- Adding an item is steady. -/
theorem isSteady_addItem (strict : Bool) (d : Descriptor) (item : Syntax.Item) :
    IsSteady (addItem strict d item) := by
  cases item with
  | declaration declaration => exact (outcome_addItem_declaration strict d declaration).1
  | _ => exact isSteady_pure _

/-- An item can be added to a file unless describing it meets an argument that cannot be read. -/
theorem exists_outcome_addItem_iff {strict : Bool} {d : Descriptor} {item : Syntax.Item} :
    (∃ d', outcome (addItem strict d item) = .ok d') ↔
      ∀ declaration, item = .declaration declaration →
        ∀ u, outcome (enumeration strict declaration) ≠ .error (.unreadable u) := by
  cases item with
  | declaration declaration =>
    rw [(outcome_addItem_declaration strict d declaration).2]
    cases hmade : outcome (enumeration strict declaration) with
    | error e => cases e <;> simp [hmade]
    | ok e => simpa [hmade] using exists_outcome_addEnumeration d e
  | importModule path newName span =>
    exact ⟨fun _ _ heq => (nomatch heq), fun _ => ⟨_, outcome_pure _⟩⟩
  | importNames dots path names span =>
    exact ⟨fun _ _ heq => (nomatch heq), fun _ => ⟨_, outcome_pure _⟩⟩

/-- Adding an item to a file keeps the file sound. -/
theorem addItem_isSound {strict : Bool} {d d' : Descriptor} {item : Syntax.Item} (hd : d.IsSound)
    (h : outcome (addItem strict d item) = .ok d') : d'.IsSound := by
  cases item with
  | declaration declaration =>
    rw [(outcome_addItem_declaration strict d declaration).2] at h
    cases he : outcome (enumeration strict declaration) with
    | error e =>
      rw [he] at h
      cases e with
      | violation f => cases h; exact hd
      | unreadable u => cases h
    | ok e =>
      rw [he] at h
      exact (yields_addEnumeration hd (enumeration_isSound he)).holds d' h
  | _ => cases h; exact hd

/-- Adding items is steady. -/
theorem isSteady_addItems (strict : Bool) (d : Descriptor) (items : List Syntax.Item) :
    IsSteady (items.foldlM (addItem strict) d) := by
  induction items generalizing d with
  | nil => exact isSteady_pure d
  | cons item items ih => exact (isSteady_addItem strict d item).bind fun d' _ => ih d'

/-- Items can be added to a file unless describing one of them meets an argument that cannot be
read. What was added before does not matter. -/
theorem exists_outcome_addItems_iff {strict : Bool} {d : Descriptor} {items : List Syntax.Item} :
    (∃ d', outcome (items.foldlM (addItem strict) d) = .ok d') ↔
      ∀ declaration, .declaration declaration ∈ items →
        ∀ u, outcome (enumeration strict declaration) ≠ .error (.unreadable u) := by
  induction items generalizing d with
  | nil => exact ⟨fun _ _ hm => absurd hm List.not_mem_nil, fun _ => ⟨d, rfl⟩⟩
  | cons item items ih =>
    rw [List.foldlM_cons]
    simp only [bind_eq_ok_iff (isSteady_addItem strict d item) fun d' _ =>
      isSteady_addItems strict d' items]
    constructor
    · rintro ⟨d', first, hfirst, hrest⟩ declaration hm
      rcases List.mem_cons.mp hm with heq | hm
      · exact exists_outcome_addItem_iff.mp ⟨first, hfirst⟩ declaration heq.symm
      · exact ih.mp ⟨d', hrest⟩ declaration hm
    · intro h
      obtain ⟨first, hfirst⟩ := (exists_outcome_addItem_iff (d := d)).mpr fun declaration heq =>
        h declaration (heq ▸ List.mem_cons_self)
      obtain ⟨d', hrest⟩ := (ih (d := first)).mpr fun declaration hm =>
        h declaration (List.mem_cons_of_mem item hm)
      exact ⟨d', first, hfirst, hrest⟩

/-- Adding items to a file keeps the file sound. -/
theorem addItems_isSound {strict : Bool} {d d' : Descriptor} {items : List Syntax.Item}
    (hd : d.IsSound) (h : outcome (items.foldlM (addItem strict) d) = .ok d') : d'.IsSound := by
  induction items generalizing d with
  | nil =>
    obtain rfl : d = d' := by simpa using h
    exact hd
  | cons item items ih =>
    rw [List.foldlM_cons, bind_eq_ok_iff (isSteady_addItem strict d item) fun d' _ =>
      isSteady_addItems strict d' items] at h
    obtain ⟨first, hfirst, h⟩ := h
    exact ih (addItem_isSound hd hfirst) h

/-- No violation keeps items from being added: it is noted where it is met. -/
theorem addItems_ne_violation {strict : Bool} {d : Descriptor} {items : List Syntax.Item}
    {f : Finding} : outcome (items.foldlM (addItem strict) d) ≠ .error (.violation f) := by
  induction items generalizing d with
  | nil => nofun
  | cons item items ih =>
    rw [List.foldlM_cons, Ne, bind_eq_error_iff (isSteady_addItem strict d item) fun d' _ =>
      isSteady_addItems strict d' items]
    rintro (hfirst | ⟨d', -, hrest⟩)
    · cases item with
      | declaration declaration =>
        rw [(outcome_addItem_declaration strict d declaration).2] at hfirst
        cases he : outcome (enumeration strict declaration) with
        | error e =>
          rw [he] at hfirst
          cases e <;> cases hfirst
        | ok e =>
          rw [he] at hfirst
          obtain ⟨d', hd'⟩ := exists_outcome_addEnumeration d e
          exact absurd (hd'.symm.trans hfirst) nofun
      | importModule path newName span => cases hfirst
      | importNames dots path names span => cases hfirst
    · exact ih hrest

/-- What describing items makes is what adding them makes; the collisions are only noted. -/
theorem outcome_describing (strict : Bool) (items : List Syntax.Item) :
    outcome (describing strict items) = outcome (items.foldlM (addItem strict) ⟨[], []⟩) := by
  have hnotes : ∀ d : Descriptor,
      Yields (fun _ => True) (d.collisions.forM fun f => note f.problem f.span) :=
    fun d => yields_forM (fun f => yields_note _ _) _
  rw [describing, outcome_bind (isSteady_addItems strict _ items) fun d _ =>
    (hnotes d).steady.bind fun _ _ => isSteady_pure d]
  cases outcome (items.foldlM (addItem strict) ⟨[], []⟩) with
  | error e => rfl
  | ok d =>
    show outcome (_ >>= fun _ => pure d) = .ok d
    rw [outcome_bind (hnotes d).steady fun _ _ => isSteady_pure d, outcome_notes]
    rfl

end Errata.Descriptor

namespace Errata

/-- **A described file is sound.** -/
theorem describe_isSound [Expression.Capacity]
    {strict : Bool} {items : List Syntax.Item} {description : Description}
    (h : describe strict items = .ok description) : description.descriptor.IsSound := by
  have hempty : (⟨[], []⟩ : Descriptor).IsSound := fun e hm => absurd hm List.not_mem_nil
  unfold describe at h
  split at h
  · rename_i d findings hrun
    cases h
    have hd : Descriptor.outcome (Descriptor.describing strict items) = .ok d :=
      congrArg Prod.fst hrun
    rw [Descriptor.outcome_describing] at hd
    exact Descriptor.addItems_isSound hempty hd
  · cases h
  · cases h
    exact hempty

/-- **A file is described** unless a literal that one of its declarations comes to has an argument
that cannot be read. -/
theorem describe_isOk_iff [Expression.Capacity] {strict : Bool} {items : List Syntax.Item} :
    (∃ description, describe strict items = .ok description) ↔
      ∀ d literal, .declaration d ∈ items → Descriptor.ComesTo strict d literal →
        ∀ u, Descriptor.compileLiteral strict literal ≠ .error (.unreadable u) := by
  have hreached : (∀ d literal, .declaration d ∈ items → Descriptor.ComesTo strict d literal →
      ∀ u, Descriptor.compileLiteral strict literal ≠ .error (.unreadable u)) ↔
      ∀ d, .declaration d ∈ items →
        ∀ u, Descriptor.outcome (Descriptor.enumeration strict d) ≠ .error (.unreadable u) := by
    simp only [Ne, Descriptor.enumeration_eq_unreadable_iff_exists, not_exists, not_and]
    exact ⟨fun h d hd u literal hc => h d literal hd hc u,
      fun h d literal hd hc u => h d hd u literal hc⟩
  rw [hreached, ← Descriptor.exists_outcome_addItems_iff (d := ⟨[], []⟩),
    ← Descriptor.outcome_describing]
  have hviolation (f : Finding) :
      Descriptor.outcome (Descriptor.describing strict items) ≠ .error (.violation f) :=
    Descriptor.outcome_describing strict items ▸ Descriptor.addItems_ne_violation
  rw [Descriptor.outcome] at hviolation ⊢
  rw [describe]
  generalize (Descriptor.describing strict items).run.run [] = made at hviolation ⊢
  rcases made with ⟨(f | u) | d, findings⟩
  · exact absurd rfl (hviolation f)
  · simp
  · simp

end Errata
