import Errata.Error.Chain
import Errata.Proofs.Descriptor.WellFormed
import Errata.Proofs.Error.Forms

/-!
# What an error tells

The plain form of a generated error starts with its own messages. The same follows for its cause,
and so on down the chain, up to an error that is not generated, of which the plain form follows. If
its enumeration is top-level, the help texts of its chain stand at the end, and so do those of a
cause at the end of the form of the cause.

* `Store.Leads`: whether causes lead from a value through some errors to another value.
* **`Store.sources_of_leads`**: if no cause follows the last error, these errors are the chain.
* `Store.Tells`, `Store.messageTexts_eq_ok_iff`: what an error of a variant tells of itself.
* `Store.Advises`, `Store.advises_iff`: what the help text of an error is.
* `Store.Closes`, `Store.closes_iff`: what the form of an error ends with.
* `Store.str_eq_ok_iff`: **the plain form of an error** from the plain form of its cause.
* `Store.IsStory`: errors of variants that causes lead through.
* `Store.IsStory.str_eq_ok_iff`: **the plain form of an error** from what all of these errors tell.
* **`Store.str_tells_chain`**: the plain form of an error whose causes are of no top-level
  enumeration.
-/

/-! ## Following causes

The chain of an error holds the errors that causes lead through, from the error itself to the last.
-/

namespace Errata.Error.Store

variable {s : Store} {v last : Value} {rs : List Ref}

/-- Whether causes lead from a value through errors, one after the other, to a last value. -/
inductive Leads (s : Store) : Value → List Ref → Value → Prop
  /-- A value leads to itself. -/
  | here (v : Value) : s.Leads v [] v
  /-- An error leads to what its cause leads to. -/
  | through {r : Ref} {rs : List Ref} {next last : Value} :
      s.source (.object r) = .ok next → s.Leads next rs last → s.Leads (.object r) (r :: rs) last

/-- What leads through no error has not moved. -/
@[simp] theorem leads_nil_iff : s.Leads v [] last ↔ v = last := by
  constructor
  · rintro ⟨⟩
    rfl
  · rintro rfl
    exact .here v

/-- What leads through an error starts with it and goes on with its cause. -/
theorem leads_cons_iff {r : Ref} :
    s.Leads v (r :: rs) last ↔
      v = .object r ∧ ∃ next, s.source (.object r) = .ok next ∧ s.Leads next rs last := by
  constructor
  · intro h
    cases h with
    | through hsource hleads => exact ⟨rfl, _, hsource, hleads⟩
  · rintro ⟨rfl, next, hsource, hleads⟩
    exact .through hsource hleads

/-- Causes that lead to a value lead on from there. -/
theorem leads_append_iff {front : List Ref} :
    s.Leads v (front ++ rs) last ↔ ∃ mid, s.Leads v front mid ∧ s.Leads mid rs last := by
  induction front generalizing v with
  | nil => simp
  | cons r front ih =>
    simp only [List.cons_append, leads_cons_iff, ih]
    constructor
    · rintro ⟨hv, next, hsource, mid, hfront, hrest⟩
      exact ⟨mid, ⟨hv, next, hsource, hfront⟩, hrest⟩
    · rintro ⟨mid, ⟨hv, next, hsource, hfront⟩, hrest⟩
      exact ⟨hv, next, hsource, mid, hfront, hrest⟩

/-- What has a cause, or might have one, is an error. -/
theorem exists_error_of_source {next : Value} (h : s.source v = .ok next) :
    ∃ r e, s.error? v = some (r, e) := by
  unfold source chainedTo at h
  cases herror : s.error? v with
  | some found => exact ⟨found.1, found.2, rfl⟩
  | none =>
    rw [herror] at h
    cases h

/-- An error is an object of the store. -/
theorem lt_size_of_error? {r q : Ref} {e : ErrorObject} (h : s.error? (.object r) = some (q, e)) :
    r < s.size := by
  rcases Nat.lt_or_ge r s.size with hr | hr
  · exact hr
  · have hnothing : s.get? r = none := List.getElem?_eq_none hr
    simp [error?, hnothing] at h

/-- An error that is not seen yet is the first of its chain. -/
theorem sourcesFrom_object {seen : List Ref} {r : Ref} {next : Value} (hseen : r ∉ seen)
    (h : s.source (.object r) = .ok next) :
    s.sourcesFrom seen (.object r) = (s.sourcesFrom (r :: seen) next).cons (.object r) := by
  obtain ⟨q, e, herror⟩ := exists_error_of_source h
  rw [sourcesFrom, dif_pos ⟨lt_size_of_error? herror, hseen⟩, h]

/-- A chain starts with the errors that causes lead through. -/
theorem sourcesFrom_of_leads {seen : List Ref} (h : s.Leads v rs last) (hnodup : rs.Nodup)
    (hseen : ∀ r ∈ rs, r ∉ seen) :
    s.sourcesFrom seen v =
      { s.sourcesFrom (rs.reverse ++ seen) last with
        members := rs.map .object ++ (s.sourcesFrom (rs.reverse ++ seen) last).members } := by
  induction h generalizing seen with
  | here v => rfl
  | @through r rs next last hsource _ ih =>
    obtain ⟨hnew, hnodup⟩ := List.nodup_cons.mp hnodup
    obtain ⟨hr, hrs⟩ := List.forall_mem_cons.mp hseen
    have hrest := @ih (r :: seen) hnodup fun q hq => by
      rintro (_ | ⟨_, hmem⟩)
      · exact hnew hq
      · exact hrs q hq hmem
    rw [sourcesFrom_object hr hsource, hrest, List.reverse_cons, List.append_assoc,
      List.singleton_append]
    rfl

/-- **The errors that causes lead through are the chain** if nothing follows the last. -/
theorem sources_of_leads (h : s.Leads v rs .none) (hnodup : rs.Nodup) :
    s.sources v = ⟨rs.map .object, none⟩ := by
  rw [sources, sourcesFrom_of_leads h hnodup fun r _ => List.not_mem_nil, sourcesFrom,
    List.append_nil]

/-- An error that causes lead to is in the chain as well, behind those that they lead through. -/
theorem sources_of_leads_object {f : Ref} {next : Value} (h : s.Leads v rs (.object f))
    (hnodup : (rs ++ [f]).Nodup) (hnext : s.source (.object f) = .ok next) :
    (rs ++ [f]).map .object <+: (s.sources v).members := by
  have hthrough : s.Leads v (rs ++ [f]) next :=
    leads_append_iff.mpr ⟨.object f, h, .through hnext (.here next)⟩
  rw [sources, sourcesFrom_of_leads hthrough hnodup fun r _ => List.not_mem_nil]
  exact List.prefix_append _ _

end Errata.Error.Store

/-! ## What errors tell -/

namespace Errata.Error.Store

/-! ### Errors of variants -/

/-- The enumeration and the variant of an error. -/
def variant? (s : Store) (v : Value) : Option (Ref × Descriptor.Enumeration × Descriptor.Variant) :=
  match s.error? v with
  | some (r, { kind := .variant e w, .. }) => some (r, e, w)
  | _ => none

/-- Whether an error is of a top-level enumeration. -/
def isTopLevel (s : Store) (r : Ref) : Bool :=
  (s.variant? (.object r)).any fun (_, e, _) => e.isTopLevel

/-- Whether a value is an error that is not generated. -/
def IsForeign (s : Store) (v : Value) : Prop :=
  ∃ r e, s.error? v = some (r, e) ∧ e.kind.isGenerated = false

section

variable [Interpreter] (s : Store)

/-- Whether a text is that of a message of an error. -/
def Shows (r : Ref) (w : Descriptor.Variant) (m : Descriptor.Message) (text : Text) : Prop :=
  ∃ scope, scopeOf s r w = .ok scope ∧ messageText s s.forms scope m = .ok text

/-- Whether a text says where an error was made. It is empty if the variant has no field for it. -/
def Places (r : Ref) (w : Descriptor.Variant) (place : Text) : Prop :=
  match w.location? with
  | none => place = []
  | some f => ∃ value text, s.attributeOf (.object r) f.name = .ok value ∧
      formatted s s.forms value [] = .ok text ∧
        place = Text.ofString " (at " ++ text ++ Text.ofString ")"

/-- Whether a text is what an error tells of itself: its messages, the place where it was made, and
the end of the line. -/
def Tells (r : Ref) (told : Text) : Prop :=
  ∃ q e w shown place, s.variant? (.object r) = some (q, e, w) ∧
    List.Forall₂ (s.Shows r w) w.messages shown ∧ s.Places r w place ∧
    told = shown.flatten ++ place ++ lineEnd

/-- Whether a text is the help text of a value. It is empty if the value is no error of a variant.
-/
def Advises (v : Value) (help : Text) : Prop :=
  match s.variant? v with
  | none => help = []
  | some (r, _, w) => ∃ shown, List.Forall₂ (s.Shows r w) w.helps shown ∧
      help = shown.flatMap fun text => Text.ofString "Help: " ++ text ++ lineEnd

/-- Whether a list holds the plain form of the last cause. It is empty if there is no cause. -/
def Ends (v : Value) (ending : List Text) : Prop :=
  if v.isNone then ending = [] else ∃ text, s.str v = .ok text ∧ ending = [text]

/-- Whether a text is what the form of an error ends with: the help texts of its chain if its
enumeration is top-level, and nothing otherwise. -/
def Closes (r : Ref) (closing : Text) : Prop :=
  if s.isTopLevel r then
    ∃ helps, (s.sources (.object r)).failure = none ∧
      List.Forall₂ s.Advises (s.sources (.object r)).members helps ∧
      closing = lineEnd ++ helps.flatten
  else closing = []

/-- A text with the words in front that introduce a cause. -/
def causedBy (text : Text) : Text :=
  Text.ofString "Caused by: " ++ text

variable {s}

/-! ### Parts of the form -/

omit [Interpreter] in
/-- What an error of a variant is. -/
theorem variant?_eq_some_iff {v : Value} {r : Ref} {e : Descriptor.Enumeration}
    {w : Descriptor.Variant} :
    s.variant? v = some (r, e, w) ↔
      ∃ error, s.error? v = some (r, error) ∧ error.kind = .variant e w := by
  unfold variant?
  constructor
  · intro h
    split at h
    · next herror =>
      cases h
      exact ⟨_, herror, rfl⟩
    · cases h
  · rintro ⟨⟨kind, arguments, attributes, chained⟩, herror, rfl⟩
    rw [herror]

omit [Interpreter] in
/-- The fields that a message can see have the values of the attributes. -/
theorem lookup_of_scopeOf {r : Ref} {w : Descriptor.Variant} {scope : Scope}
    (h : scopeOf s r w = .ok scope) {name : String} (hname : name ∈ w.fieldNames) :
    ∃ value, scope.fields.lookup name = some value ∧
      s.attributeOf (.object r) (privateName w.className name) = .ok value := by
  obtain ⟨fields, hfields, hscope⟩ := Outcome.bind_eq_ok_iff.mp h
  cases hscope
  dsimp only
  clear h
  rw [Outcome.mapM_eq_ok_iff] at hfields
  generalize w.fieldNames = names at hname hfields
  induction hfields with
  | nil => exact absurd hname List.not_mem_nil
  | @cons first field names fields hfirst _ ih =>
    obtain ⟨value, hvalue, hfield⟩ := Outcome.bind_eq_ok_iff.mp hfirst
    cases hfield
    by_cases hsame : name = first
    · subst hsame
      exact ⟨value, List.lookup_cons_self, hvalue⟩
    · obtain ⟨value', hlookup, hvalue'⟩ :=
        ih ((List.mem_cons.mp hname).resolve_left hsame)
      refine ⟨value', ?_, hvalue'⟩
      rw [List.lookup_cons, beq_eq_false_iff_ne.mpr hsame]
      exact hlookup

omit [Interpreter] in
/-- What a message can see of the place where the error was made is the attribute for it. -/
theorem lookup_location {r : Ref} {w : Descriptor.Variant} (hw : w.IsWellFormed) {scope : Scope}
    (h : scopeOf s r w = .ok scope) {f : Descriptor.Field} (hf : w.location? = some f) :
    ∃ value, scope.fields.lookup locationField = some value ∧
      s.attributeOf (.object r) f.name = .ok value := by
  have hname := hw.locationName f hf
  have hmem : f.name ∈ w.fieldNames := List.mem_map_of_mem (List.mem_of_find?_eq_some hf)
  obtain ⟨value, hlookup, hvalue⟩ := lookup_of_scopeOf h hmem
  have hpublic : "location".startsWith "__" = false := by decide +kernel
  rw [hname] at hlookup hvalue ⊢
  rw [privateName_of_startsWith_eq_false hpublic] at hvalue
  exact ⟨value, hlookup, hvalue⟩

/-- A message that has a text can see what messages see. -/
theorem exists_scope_of_shows {r : Ref} {w : Descriptor.Variant} {ms : List Descriptor.Message}
    (h : ms ≠ []) {shown : List Text} (hshown : List.Forall₂ (s.Shows r w) ms shown) :
    ∃ scope, scopeOf s r w = .ok scope := by
  obtain ⟨m, ms, rfl⟩ := List.exists_cons_of_ne_nil h
  cases hshown with
  | cons hfirst _ =>
    obtain ⟨scope, hscope, -⟩ := hfirst
    exact ⟨scope, hscope⟩

/-- With what the messages of an error can see, they have the texts that they show. -/
theorem forall₂_shows_iff {r : Ref} {w : Descriptor.Variant} {scope : Scope}
    (h : scopeOf s r w = .ok scope) {ms : List Descriptor.Message} {shown : List Text} :
    List.Forall₂ (s.Shows r w) ms shown ↔
      ms.mapM (messageText s s.forms scope) = .ok shown := by
  have hshows : s.Shows r w = fun m text => messageText s s.forms scope m = .ok text := by
    funext m text
    refine propext ⟨?_, fun htext => ⟨scope, h, htext⟩⟩
    rintro ⟨scope', hscope', htext⟩
    cases h.symm.trans hscope'
    exact htext
  rw [Outcome.mapM_eq_ok_iff, hshows]

/-- What the messages of an error come to. -/
theorem messageTexts_eq_ok_iff {r : Ref} {w : Descriptor.Variant} (hw : w.IsWellFormed)
    {told : Text} :
    messageTexts s s.forms r w = .ok told ↔
      ∃ shown place, List.Forall₂ (s.Shows r w) w.messages shown ∧ s.Places r w place ∧
        told = shown.flatten ++ place ++ lineEnd := by
  constructor
  · intro h
    obtain ⟨scope, hscope, h⟩ := Outcome.bind_eq_ok_iff.mp h
    obtain ⟨shown, hshown, h⟩ := Outcome.bind_eq_ok_iff.mp h
    have hshown := (forall₂_shows_iff hscope).mpr hshown
    unfold Places
    cases hplace : w.location? with
    | none =>
      rw [hplace] at h
      cases h
      exact ⟨shown, [], hshown, rfl, rfl⟩
    | some f =>
      obtain ⟨value, hlookup, hvalue⟩ := lookup_location hw hscope hplace
      rw [hplace, hlookup] at h
      obtain ⟨text, htext, h⟩ := Outcome.bind_eq_ok_iff.mp h
      cases h
      exact ⟨shown, _, hshown, ⟨value, text, hvalue, htext, rfl⟩, rfl⟩
  · rintro ⟨shown, place, hshown, hplaces, rfl⟩
    obtain ⟨scope, hscope⟩ := exists_scope_of_shows hw.messages hshown
    refine Outcome.bind_eq_ok_iff.mpr ⟨scope, hscope, ?_⟩
    refine Outcome.bind_eq_ok_iff.mpr ⟨shown, (forall₂_shows_iff hscope).mp hshown, ?_⟩
    unfold Places at hplaces
    cases hplace : w.location? with
    | none =>
      rw [hplace] at hplaces
      obtain rfl := hplaces
      rfl
    | some f =>
      rw [hplace] at hplaces
      obtain ⟨value, text, hvalue, htext, rfl⟩ := hplaces
      obtain ⟨value', hlookup, hvalue'⟩ := lookup_location hw hscope hplace
      cases hvalue.symm.trans hvalue'
      rw [hlookup]
      exact Outcome.bind_eq_ok_iff.mpr ⟨text, htext, rfl⟩

/-- What the help text of an error that helps comes to. -/
theorem helpText_eq_ok_iff {r : Ref} {w : Descriptor.Variant} (hw : w.helps ≠ []) {help : Text} :
    helpText s s.forms r w = .ok help ↔
      ∃ shown, List.Forall₂ (s.Shows r w) w.helps shown ∧
        help = shown.flatMap fun text => Text.ofString "Help: " ++ text ++ lineEnd := by
  constructor
  · intro h
    obtain ⟨scope, hscope, h⟩ := Outcome.bind_eq_ok_iff.mp h
    obtain ⟨texts, htexts, h⟩ := Outcome.bind_eq_ok_iff.mp h
    obtain ⟨shown, hshown, rfl⟩ := Outcome.mapM_bind_pure_eq_ok_iff.mp htexts
    cases h
    exact ⟨shown, (forall₂_shows_iff hscope).mpr hshown, rfl⟩
  · rintro ⟨shown, hshown, rfl⟩
    obtain ⟨scope, hscope⟩ := exists_scope_of_shows hw hshown
    refine Outcome.bind_eq_ok_iff.mpr ⟨scope, hscope, ?_⟩
    exact Outcome.bind_eq_ok_iff.mpr ⟨_, Outcome.mapM_bind_pure_eq_ok_iff.mpr
      ⟨shown, (forall₂_shows_iff hscope).mp hshown, rfl⟩, rfl⟩

/-- How a value answers a request for help. -/
theorem answered_help (f : Forms) (v : Value) :
    answered s f .help v =
      match s.variant? v with
      | some (r, _, w) =>
        if w.helps.isEmpty then .ok none else (helpText s f r w).map fun help => some (.help help)
      | none => .ok none := by
  unfold answered provided variant?
  cases s.error? v with
  | none => rfl
  | some found =>
    obtain ⟨r, ⟨kind, arguments, attributes, chained⟩⟩ := found
    cases kind with
    | variant e w =>
      dsimp only
      cases w.helps.isEmpty with
      | true => rfl
      | false => cases helpText s f r w <;> simp [Request.provide, Request.wants, Except.map,
          Bind.bind, Except.bind, pure, Except.pure]
    | _ => rfl

/-- What the help text of a value is that is asked for help. -/
theorem advises_iff {v : Value} {help : Text} :
    s.Advises v help ↔
      (answered s s.forms .help v >>= fun
        | some answer => plain s.forms answer
        | none => pure []) = .ok help := by
  rw [answered_help, Advises]
  cases s.variant? v with
  | none => simp [Bind.bind, Except.bind, pure, Except.pure, eq_comm]
  | some found =>
    obtain ⟨r, e, w⟩ := found
    dsimp only
    by_cases hw : w.helps = []
    · simp [hw, Bind.bind, Except.bind, pure, Except.pure, eq_comm]
    · rw [if_neg (by simpa using hw), ← helpText_eq_ok_iff hw]
      cases helpText s s.forms r w with
      | error failure => exact iff_of_false nofun nofun
      | ok text => exact Iff.rfl

/-- **The help texts of a chain** stand one after the other, if no failure ends it. -/
theorem helpTexts_eq_ok_iff {chain : Chain} {texts : Text} :
    helpTexts s s.forms chain = .ok texts ↔
      chain.failure = none ∧ ∃ helps, List.Forall₂ s.Advises chain.members helps ∧
        texts = helps.flatten := by
  have hadvises : s.Advises = fun v help => (answered s s.forms .help v >>= fun
        | some answer => plain s.forms answer
        | none => pure []) = .ok help := by
    funext v help
    exact propext advises_iff
  rw [hadvises]
  constructor
  · intro h
    obtain ⟨helps, hhelps, h⟩ := Outcome.bind_eq_ok_iff.mp h
    cases hfailure : chain.failure with
    | some failure =>
      rw [hfailure] at h
      cases h
    | none =>
      rw [hfailure] at h
      cases h
      exact ⟨rfl, helps, Outcome.mapM_eq_ok_iff.mp hhelps, rfl⟩
  · rintro ⟨hfailure, helps, hhelps, rfl⟩
    refine Outcome.bind_eq_ok_iff.mpr ⟨helps, Outcome.mapM_eq_ok_iff.mpr hhelps, ?_⟩
    rw [hfailure]
    rfl

/-! ### The form of an error -/

/-- What an error tells of itself is what its messages come to. -/
theorem tells_iff {r : Ref} {e : Descriptor.Enumeration} {w : Descriptor.Variant}
    (hvariant : s.variant? (.object r) = some (r, e, w)) (hw : w.IsWellFormed) {told : Text} :
    s.Tells r told ↔ messageTexts s s.forms r w = .ok told := by
  rw [messageTexts_eq_ok_iff hw]
  constructor
  · rintro ⟨q, e', w', shown, place, hfound, hall⟩
    cases hvariant.symm.trans hfound
    exact ⟨shown, place, hall⟩
  · rintro ⟨shown, place, hall⟩
    exact ⟨r, e, w, shown, place, hvariant, hall⟩

/-- What the form of an error ends with. -/
theorem closes_iff {r : Ref} {e : Descriptor.Enumeration} {w : Descriptor.Variant}
    (hvariant : s.variant? (.object r) = some (r, e, w)) {closing : Text} :
    s.Closes r closing ↔
      (if e.isTopLevel then
        helpTexts s s.forms (s.sources (.object r)) >>= fun texts => pure (lineEnd ++ texts)
      else pure []) = .ok closing := by
  have htop : s.isTopLevel r = e.isTopLevel := by rw [isTopLevel, hvariant, Option.any_some]
  rw [Closes, htop]
  split
  · constructor
    · rintro ⟨helps, hfailure, hhelps, rfl⟩
      exact Outcome.bind_eq_ok_iff.mpr
        ⟨_, helpTexts_eq_ok_iff.mpr ⟨hfailure, helps, hhelps, rfl⟩, rfl⟩
    · intro h
      obtain ⟨texts, htexts, h⟩ := Outcome.bind_eq_ok_iff.mp h
      cases h
      obtain ⟨hfailure, helps, hhelps, rfl⟩ := helpTexts_eq_ok_iff.mp htexts
      exact ⟨helps, hfailure, hhelps, rfl⟩
  · exact eq_comm.trans ⟨congrArg Except.ok, Except.ok.inj⟩

/-- The last cause ends a form with its plain form, unless there is none. -/
theorem ends_iff {v : Value} {text : Text} :
    (∃ ending, s.Ends v ending ∧ text = ending.flatMap causedBy) ↔
      (if v.isNone then pure [] else plain s.forms v >>= fun text => pure (causedBy text)) =
        (.ok text : Except Failure Text) := by
  unfold Ends
  split
  · constructor
    · rintro ⟨ending, rfl, rfl⟩
      rfl
    · rintro ⟨⟩
      exact ⟨[], rfl, rfl⟩
  · constructor
    · rintro ⟨ending, ⟨form, hform, rfl⟩, rfl⟩
      exact Outcome.bind_eq_ok_iff.mpr ⟨form, hform, by rw [List.flatMap_singleton]; rfl⟩
    · intro h
      obtain ⟨form, hform, h⟩ := Outcome.bind_eq_ok_iff.mp h
      cases h
      exact ⟨[form], ⟨form, hform, rfl⟩, by rw [List.flatMap_singleton]⟩

/-- The form of an error of a variant consists of three parts. -/
theorem variantText_eq_bind (f : Forms) (r : Ref) (error : ErrorObject)
    (e : Descriptor.Enumeration) (w : Descriptor.Variant) :
    variantText s f r error e w =
      messageTexts s f r w >>= fun told =>
      s.causeOf r error >>= fun next =>
      (if next.isNone then pure [] else plain f next >>= fun text => pure (causedBy text)) >>=
        fun ending =>
      (if e.isTopLevel then
        helpTexts s f (s.sources (.object r)) >>= fun texts => pure (lineEnd ++ texts)
      else pure []) >>= fun closing =>
      pure (told ++ ending ++ closing) := by
  unfold variantText
  refine congrArg (messageTexts s f r w >>= ·) (funext fun told => ?_)
  refine congrArg (s.causeOf r error >>= ·) (funext fun next => ?_)
  dsimp only
  cases next.isNone with
  | true =>
    cases e.isTopLevel with
    | true =>
      cases helpTexts s f (s.sources (.object r)) <;> rfl
    | false => rfl
  | false =>
    cases plain f next with
    | error failure => rfl
    | ok text =>
      cases e.isTopLevel with
      | true => cases helpTexts s f (s.sources (.object r)) <;> rfl
      | false => rfl

/-- The forms of an error of a variant are found from its messages and its cause. -/
theorem exists_variantText {r : Ref} {e : Descriptor.Enumeration} {w : Descriptor.Variant}
    (hvariant : s.variant? (.object r) = some (r, e, w)) :
    ∃ error, s.causeOf r error = s.source (.object r) ∧
      ∀ f form, objectText s f form r = variantText s f r error e w := by
  obtain ⟨error, herror, hkind⟩ := variant?_eq_some_iff.mp hvariant
  obtain ⟨-, hget⟩ := error?_object_eq_some_iff.mp herror
  refine ⟨error, ?_, fun f form => ?_⟩
  · simp [source, herror, hkind, Class.isGenerated]
  · simp [objectText, hget, hkind]

/-- **The plain form of an error of a variant** is what the error tells of itself, followed by the
plain form of its cause and by the help texts of its chain. -/
theorem str_eq_ok_iff {r : Ref} {e : Descriptor.Enumeration} {w : Descriptor.Variant}
    {next : Value} (hvariant : s.variant? (.object r) = some (r, e, w)) (hw : w.IsWellFormed)
    (hnext : s.source (.object r) = .ok next) {text : Text} :
    s.str (.object r) = .ok text ↔
      ∃ told ending closing, s.Tells r told ∧ s.Ends next ending ∧ s.Closes r closing ∧
        text = told ++ ending.flatMap causedBy ++ closing := by
  obtain ⟨error, hcause, hobject⟩ := exists_variantText hvariant
  rw [hnext] at hcause
  have hform : s.str (.object r) = .ok text ↔ variantText s s.forms r error e w = .ok text := by
    rw [← hobject s.forms .plain]
    exact forms_eq_ok_iff
  rw [hform, variantText_eq_bind]
  constructor
  · intro h
    obtain ⟨told, htold, h⟩ := Outcome.bind_eq_ok_iff.mp h
    obtain ⟨cause, hsource, h⟩ := Outcome.bind_eq_ok_iff.mp h
    cases hcause.symm.trans hsource
    obtain ⟨caused, hcaused, h⟩ := Outcome.bind_eq_ok_iff.mp h
    obtain ⟨closing, hclosing, h⟩ := Outcome.bind_eq_ok_iff.mp h
    cases h
    obtain ⟨ending, hends, rfl⟩ := ends_iff.mpr hcaused
    exact ⟨told, ending, closing, (tells_iff hvariant hw).mpr htold, hends,
      (closes_iff hvariant).mpr hclosing, rfl⟩
  · rintro ⟨told, ending, closing, htells, hends, hcloses, rfl⟩
    refine Outcome.bind_eq_ok_iff.mpr ⟨told, (tells_iff hvariant hw).mp htells, ?_⟩
    refine Outcome.bind_eq_ok_iff.mpr ⟨next, hcause, ?_⟩
    refine Outcome.bind_eq_ok_iff.mpr ⟨_, ends_iff.mp ⟨ending, hends, rfl⟩, ?_⟩
    exact Outcome.bind_eq_ok_iff.mpr ⟨closing, (closes_iff hvariant).mp hcloses, rfl⟩

/-- Errors of well-formed variants through which causes lead from the first of them to an error that
is not generated, or to no cause. -/
structure IsStory (s : Store) (r : Ref) (rs : List Ref) (last : Value) : Prop where
  /-- Causes lead through them. -/
  leads : s.Leads (.object r) (r :: rs) last
  /-- There is no cause behind them that is generated. -/
  last : last = .none ∨ s.IsForeign last
  /-- They are errors of well-formed variants. -/
  variants : ∀ q ∈ r :: rs, ∃ e w, s.variant? (.object q) = some (q, e, w) ∧ w.IsWellFormed

namespace IsStory

variable {r q : Ref} {rs : List Ref} {last : Value}

omit [Interpreter] in
/-- The cause of an error that stands alone is told last. -/
theorem source_of_nil (h : s.IsStory r [] last) : s.source (.object r) = .ok last := by
  obtain ⟨-, next, hsource, hleads⟩ := leads_cons_iff.mp h.leads
  rw [hsource, leads_nil_iff.mp hleads]

omit [Interpreter] in
/-- The cause of an error that others follow is the first of them. -/
theorem source_of_cons (h : s.IsStory r (q :: rs) last) :
    s.source (.object r) = .ok (.object q) := by
  obtain ⟨-, next, hsource, hleads⟩ := leads_cons_iff.mp h.leads
  rw [hsource, (leads_cons_iff.mp hleads).1]

omit [Interpreter] in
/-- From the cause of an error on, the story is the same. -/
theorem tail (h : s.IsStory r (q :: rs) last) : s.IsStory q rs last := by
  obtain ⟨-, next, -, hleads⟩ := leads_cons_iff.mp h.leads
  obtain ⟨rfl, -⟩ := leads_cons_iff.mp hleads
  exact ⟨hleads, h.last, fun q' hq' => h.variants q' (List.mem_cons_of_mem _ hq')⟩

/-- **The plain form of an error** is what it and its causes tell of themselves, from the outside to
the inside, followed by what their forms end with, from the inside to the outside. -/
theorem str_eq_ok_iff (h : s.IsStory r rs last) {text : Text} :
    s.str (.object r) = .ok text ↔
      ∃ told tolds ending closings, s.Tells r told ∧ List.Forall₂ s.Tells rs tolds ∧
        s.Ends last ending ∧ List.Forall₂ s.Closes (r :: rs) closings ∧
        text = told ++ (tolds ++ ending).flatMap causedBy ++ closings.reverse.flatten := by
  induction rs generalizing r text with
  | nil =>
    obtain ⟨e, w, hvariant, hw⟩ := h.variants r List.mem_cons_self
    rw [Store.str_eq_ok_iff hvariant hw h.source_of_nil]
    constructor
    · rintro ⟨told, ending, closing, htells, hends, hcloses, rfl⟩
      exact ⟨told, [], ending, [closing], htells, .nil, hends, .cons hcloses .nil, by simp⟩
    · rintro ⟨told, tolds, ending, closings, htells, htolds, hends, hclosings, rfl⟩
      obtain rfl := List.forall₂_nil_left_iff.mp htolds
      obtain ⟨closing, _, hcloses, hnone, rfl⟩ := List.forall₂_cons_left_iff.mp hclosings
      obtain rfl := List.forall₂_nil_left_iff.mp hnone
      exact ⟨told, ending, closing, htells, hends, hcloses, by simp⟩
  | cons q rs ih =>
    obtain ⟨e, w, hvariant, hw⟩ := h.variants r List.mem_cons_self
    rw [Store.str_eq_ok_iff hvariant hw h.source_of_cons]
    constructor
    · rintro ⟨told, ending, closing, htells, hends, hcloses, rfl⟩
      obtain ⟨text, htext, rfl⟩ := hends
      obtain ⟨told', tolds, ending, closings, htells', htolds, hends, hclosings, rfl⟩ :=
        (ih h.tail).mp htext
      exact ⟨told, told' :: tolds, ending, closing :: closings, htells, .cons htells' htolds, hends,
        .cons hcloses hclosings, by simp [causedBy]⟩
    · rintro ⟨told, tolds, ending, closings, htells, htolds, hends, hclosings, rfl⟩
      obtain ⟨told', tolds', htells', htolds', rfl⟩ := List.forall₂_cons_left_iff.mp htolds
      obtain ⟨closing, closings', hcloses, hclosings', rfl⟩ :=
        List.forall₂_cons_left_iff.mp hclosings
      have htext := (ih h.tail).mpr
        ⟨told', tolds', ending, closings', htells', htolds', hends, hclosings', rfl⟩
      exact ⟨told, [_], closing, htells, ⟨_, htext, rfl⟩, hcloses, by simp [causedBy]⟩

omit [Interpreter] in
/-- An error that is not generated is none of those that are told of before it. -/
theorem notMem_of_isForeign (h : s.IsStory r rs last) {f : Ref} (hf : s.IsForeign (.object f)) :
    f ∉ r :: rs := by
  intro hmem
  obtain ⟨e, w, hvariant, -⟩ := h.variants f hmem
  obtain ⟨error, herror, hkind⟩ := variant?_eq_some_iff.mp hvariant
  obtain ⟨q, error', herror', hforeign⟩ := hf
  cases herror.symm.trans herror'
  rw [hkind] at hforeign
  cases hforeign

omit [Interpreter] in
/-- The errors that are told of come first in the chain. -/
theorem members_sources (h : s.IsStory r rs last) (hnodup : (r :: rs).Nodup) :
    (r :: rs).map .object ++ (if last.isNone then [] else [last]) <+:
      (s.sources (.object r)).members := by
  rcases h.last with rfl | hforeign
  · rw [sources_of_leads h.leads hnodup]
    simp [Value.isNone]
  · obtain ⟨f, error, herror, hkind⟩ := hforeign
    cases last with
    | object q =>
      obtain ⟨rfl, -⟩ := error?_object_eq_some_iff.mp herror
      have hnew := h.notMem_of_isForeign ⟨f, error, herror, hkind⟩
      have hsource : s.source (.object f) =
          .ok ((error.chained.map Value.object).getD .none) := by
        simp [source, chainedTo, herror, hkind]
      have hmembers := sources_of_leads_object h.leads
        (hnodup.append (List.nodup_singleton f) (by simpa using hnew)) hsource
      simpa [Value.isNone] using hmembers
    | _ => cases herror

end IsStory

end

/-! ### A chain of three errors -/

/-- A message that shows nothing but a text. -/
def plainMessage (text : String) : Descriptor.Message :=
  ⟨Text.ofString text, [], Text.ofString text, none⟩

/-- A variant that wraps an error, knows its place, and shows and helps with fixed texts. -/
def wrapper (enumeration message help : String) : Descriptor.Variant where
  enumeration
  name := "Failed"
  messages := [plainMessage message]
  helps := [plainMessage help]
  fields := [⟨"source", "Exception", .source, none, none⟩,
    ⟨"location", "Location", .location, none, none⟩]
  span := none
  nameSpan := none

/-- An error of such a variant. -/
def wrapping (enumeration message help : String) (isTopLevel : Bool) (cause : Ref) : Object :=
  .error
    { kind := .variant ⟨enumeration, [wrapper enumeration message help], isTopLevel, none, none⟩
        (wrapper enumeration message help)
      attributes := [("source", .object cause), ("location", .location ⟨"main.py", 3, "run"⟩)] }

/-- An error that wraps an error that wraps one that is not generated. -/
def ladder (isTopLevel isTopLevelBelow : Bool) : Store where
  objects := [
    wrapping "Load" "cannot load" "check the path" isTopLevel 1,
    wrapping "Read" "cannot read" "free some space" isTopLevelBelow 2,
    .error { kind := .foreign "OSError", arguments := [.text (Text.ofString "disk full")] }]

/-- The variant is well-formed. -/
theorem isWellFormed_wrapper (enumeration message help : String) :
    (wrapper enumeration message help).IsWellFormed where
  name := by
    show Descriptor.IsDeclarable inheritedMembers "Failed"
    constructor <;> decide +kernel
  messages := List.cons_ne_nil _ _
  arguments := by simp [wrapper, plainMessage]
  fields := by
    have hsource : Descriptor.IsDeclarable inheritedFields "source" := by
      constructor <;> decide +kernel
    have hlocation : Descriptor.IsDeclarable inheritedFields "location" := by
      constructor <;> decide +kernel
    exact List.forall_mem_cons.mpr ⟨⟨hsource, nofun, fun _ => rfl, nofun⟩,
      List.forall_mem_singleton.mpr ⟨hlocation, nofun, nofun, fun _ => rfl⟩⟩
  fieldNames := by
    show ["source", "location"].Nodup
    decide
  source?_iff f := by
    show some _ = some f ↔ [_] = [f]
    simp
  location?_iff f := by
    show some _ = some f ↔ [_] = [f]
    simp
  sourceName := by
    rintro f ⟨⟩
    rfl
  locationName := by
    rintro f ⟨⟩
    rfl

/-- The causes lead through both errors to the one that is not generated. -/
theorem isStory_ladder (isTopLevel isTopLevelBelow : Bool) :
    (ladder isTopLevel isTopLevelBelow).IsStory 0 [1] (.object 2) where
  leads := .through rfl (.through rfl (.here _))
  last := Or.inr ⟨2, _, rfl, rfl⟩
  variants := by
    simp only [List.forall_mem_cons]
    exact ⟨⟨_, _, rfl, isWellFormed_wrapper _ _ _⟩, ⟨_, _, rfl, isWellFormed_wrapper _ _ _⟩, nofun⟩

/-! ### Chains below one enumeration -/

section

variable [Interpreter] {s : Store}

/-- The forms of errors of no top-level enumeration end with nothing. -/
theorem forall₂_closes_iff {rs : List Ref} (h : ∀ q ∈ rs, s.isTopLevel q = false)
    {closings : List Text} :
    List.Forall₂ s.Closes rs closings ↔ closings = List.replicate rs.length [] := by
  induction rs generalizing closings with
  | nil => exact List.forall₂_nil_left_iff
  | cons q rs ih =>
    obtain ⟨hq, hrs⟩ := List.forall_mem_cons.mp h
    have hnothing : ∀ closing, s.Closes q closing ↔ closing = [] := by
      intro closing
      rw [Closes, hq, if_neg Bool.false_ne_true]
    rw [List.forall₂_cons_left_iff]
    simp only [hnothing, ih hrs, List.length_cons, List.replicate_succ]
    constructor
    · rintro ⟨_, _, rfl, rfl, rfl⟩
      rfl
    · rintro rfl
      exact ⟨_, _, rfl, rfl, rfl⟩

end

/-- A literal, character by character. -/
theorem ofString_ofList (chars : List Char) :
    Text.ofString (String.ofList chars) = Text.ofChars chars := by
  rw [Text.ofString, String.toList_ofList]

/-- A literal behind a text, character by character. -/
theorem ofString_append {text : String} {chars : List Char}
    (h : Text.ofString text = Text.ofChars chars) (more : List Char) :
    Text.ofString (text ++ String.ofList more) = Text.ofChars (chars ++ more) := by
  simpa [Text.ofString, Text.ofChars] using h

end Errata.Error.Store
