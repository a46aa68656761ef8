import Errata.Proofs.Error.Block

/-!
# Where errors were made

An error with a field for its place that is made without one holds the place of a call: that of the
innermost call, from the caller outwards, which is not one of the support code. It makes no
difference how the error is made, nor how many calls of the support code are in between.

* `IsPlaceOf`: which place a stack of calls is at, and `isPlaceOf_iff`: it is the one captured.
* `Making`: the ways of making an error without a place, and `Making.made?`: what they come to.
* `lookup_of_makeError`: what the class of a variant sets the field to.
* `lookup_of_assembled`: what it is handed by a selector or a function.
* **`made_at_place`**: in whichever of the ways an error is made, the field holds the place of the
  calls.
-/

namespace Errata.Error

open Descriptor (Enumeration Field Variant)
open Store (failing isWellFormed_wrapper mainFrame selecting wrapper)

/-! ### Places -/

/-- Whether calls are at a place: that of the innermost call outside the support code, or the
unknown place at line zero if there is none. -/
def IsPlaceOf (stack : List Frame) (place : Location) : Prop :=
  (∃ (inner : List Frame) (f : Frame) (outer : List Frame) (name : String),
      stack = inner ++ f :: outer ∧ (∀ g ∈ inner, g.origin = .support) ∧
      f.origin = .file name ∧ place = ⟨name, f.line, f.function⟩) ∨
    (∀ f ∈ stack, f.origin = .support) ∧ place = ⟨"<unknown>", 0, "<module>"⟩

/-- A call is at no place exactly if it is one of the support code. -/
theorem Frame.location?_eq_none_iff {f : Frame} : f.location? = none ↔ f.origin = .support := by
  unfold location?
  cases f.origin <;> simp

/-- **Calls are at one place**, which is the one that is captured. -/
theorem isPlaceOf_iff {stack : List Frame} {place : Location} :
    IsPlaceOf stack place ↔ place = (stack.findSome? Frame.location?).getD unknownLocation := by
  induction stack with
  | nil => simp [IsPlaceOf, unknownLocation]
  | cons f stack ih =>
    cases horigin : f.origin with
    | support =>
      have hnone : f.location? = none := Frame.location?_eq_none_iff.mpr horigin
      rw [List.findSome?_cons, hnone, ← ih]
      constructor
      · rintro (⟨inner, g, outer, name, heq, hinner, hg, rfl⟩ | ⟨hall, rfl⟩)
        · cases inner with
          | nil =>
            obtain ⟨rfl, rfl⟩ := List.cons.inj heq
            rw [horigin] at hg
            cases hg
          | cons h inner =>
            obtain ⟨rfl, rfl⟩ := List.cons.inj heq
            exact Or.inl ⟨inner, g, outer, name, rfl, (List.forall_mem_cons.mp hinner).2, hg, rfl⟩
        · exact Or.inr ⟨(List.forall_mem_cons.mp hall).2, rfl⟩
      · rintro (⟨inner, g, outer, name, rfl, hinner, hg, rfl⟩ | ⟨hall, rfl⟩)
        · exact Or.inl ⟨f :: inner, g, outer, name, rfl,
            List.forall_mem_cons.mpr ⟨horigin, hinner⟩, hg, rfl⟩
        · exact Or.inr ⟨List.forall_mem_cons.mpr ⟨horigin, hall⟩, rfl⟩
    | file name =>
      have hsome : f.location? = some ⟨name, f.line, f.function⟩ := by
        simp [Frame.location?, horigin]
      rw [List.findSome?_cons, hsome, Option.getD_some]
      constructor
      · rintro (⟨inner, g, outer, name', heq, hinner, hg, rfl⟩ | ⟨hall, -⟩)
        · cases inner with
          | nil =>
            obtain ⟨rfl, rfl⟩ := List.cons.inj heq
            rw [horigin] at hg
            cases hg
            rfl
          | cons h inner =>
            obtain ⟨rfl, rfl⟩ := List.cons.inj heq
            have hsupport := (List.forall_mem_cons.mp hinner).1
            rw [horigin] at hsupport
            cases hsupport
        · have hsupport := (List.forall_mem_cons.mp hall).1
          rw [horigin] at hsupport
          cases hsupport
      · rintro rfl
        exact Or.inl ⟨[], f, stack, name, rfl, by simp, horigin, rfl⟩

/-- The place of a caller is that of its calls. -/
theorem exists_capture {stack : List Frame} (h : stack ≠ []) :
    ∃ place, capture 0 stack = .ok place ∧ IsPlaceOf stack place := by
  refine ⟨_, ?_, isPlaceOf_iff.mpr rfl⟩
  rw [capture, if_pos (List.length_pos_iff.mpr h), List.drop_zero]

/-- A call of the support code does not change the place. -/
theorem capture_support {stack : List Frame} {place : Location} (h : capture 0 stack = .ok place) :
    capture 0 (supportFrame :: stack) = .ok place := by
  unfold capture at h ⊢
  split at h
  · cases h
    rw [if_pos (by simp)]
    rfl
  · cases h

/-! ### Ways of making an error -/

/-- A way of making an error. -/
inductive Making where
  /-- Calling the class of a variant with values for its fields. -/
  | call (values : List (String × Value))
  /-- Calling the function that makes errors of a variant. -/
  | function (name : String) (values : List (String × Value))
  /-- Binding a selector to what a failed operation left. -/
  | bound (x : Selector) (residual : Value)
  /-- Raising a value in a block under a selector. -/
  | context (selector : Value) (given : List Kind) (value : Value)
  /-- Raising a value in a block under a selector that is made only when it is needed. -/
  | withContext (selector : Value) (given : List Kind) (value : Value)
  /-- Asking for a value, with a selector in case that there is none. -/
  | ensure (value selector : Value)

/-- The error that comes of a way of making one, for a stack of calls that starts with the caller,
if there is any. -/
def Making.made? [Hierarchy] (m : Making) (s : Store) (home : String) (stack : List Frame)
    (e : Enumeration) (v : Variant) : Option (Ref × Store) :=
  match m with
  | call values => (makeError s stack e v values).toOption
  | function name values => (callConstructor s stack e v name values).toOption
  | bound x residual => (s.bind home stack x residual).toOption
  | context selector given value =>
    let exit := s.context home stack selector given (some value)
    exit.error.map fun r => (r, exit.store)
  | withContext selector given value =>
    let exit := (s.withContext home stack selector given (some value)).1
    exit.error.map fun r => (r, exit.store)
  | ensure value selector =>
    (s.ensure home stack value selector).toOption.bind fun (r, t) => r.map fun r => (r, t)

/-- Whether no place is handed on. Only the class itself has a parameter for the place. -/
def Making.IsPlaceless : Making → Prop
  | call values => (values.lookup locationField).getD .none = .none
  | _ => True

/-! ### What the field is set to -/

section

variable {s t : Store} {home : String} {stack : List Frame} {e : Enumeration} {v : Variant}
  {place : Location} {f : Field}

/-- An entry among those that were made for fields, one for each. -/
theorem lookup_of_forall₂ {k : Field → String} {P : Field → Value → Prop} {fields : List Field}
    {entries : List (String × Value)}
    (h : List.Forall₂ (fun g entry => entry.1 = k g ∧ P g entry.2) fields entries)
    (hf : f ∈ fields) (hk : ∀ g ∈ fields, k g = k f → g = f) :
    ∃ value, entries.lookup (k f) = some value ∧ P f value := by
  induction h with
  | nil => cases hf
  | cons hentry hrest ih =>
    next g entry fields entries =>
    obtain ⟨name, value⟩ := entry
    obtain ⟨rfl, hvalue⟩ := hentry
    by_cases hsame : k g = k f
    · obtain rfl := hk g List.mem_cons_self hsame
      exact ⟨value, List.lookup_cons_self, hvalue⟩
    · have hmem : f ∈ fields := by
        rcases List.mem_cons.mp hf with rfl | hmem
        · exact absurd rfl hsame
        · exact hmem
      rw [List.lookup_cons, beq_false_of_ne (Ne.symm hsame)]
      exact ih hmem fun g hg => hk g (List.mem_cons_of_mem _ hg)

/-- A name that stands for one which starts with no low line is that name. -/
theorem eq_of_privateName {owner name other : String} (h : privateName owner name = other)
    (hother : other.toList.head? ≠ some '_') : name = other := by
  by_contra hne
  have hprivate : IsPrivate owner name := by
    rw [IsPrivate, h]
    exact Ne.symm hne
  obtain ⟨hstart, hend, howner⟩ := isPrivate_iff.mp hprivate
  obtain ⟨c, rest, hrest⟩ := List.exists_cons_of_ne_nil howner
  rw [privateName_of_dropWhile hstart hend hrest] at h
  apply hother
  rw [← h]
  simp

/-- The field for the place is the only one that goes by its name in the class. -/
theorem eq_of_privateName_location (hv : v.IsWellFormed) (hf : v.location? = some f) :
    f.name = locationField ∧ privateName v.className f.name = locationField ∧
      ∀ g ∈ v.fields, privateName v.className g.name = privateName v.className f.name → g = f := by
  have hname : f.name = locationField := hv.locationName f hf
  have hpublic : locationField.startsWith "__" = false := by decide +kernel
  have hstands : privateName v.className f.name = locationField := by
    rw [hname]
    exact privateName_of_startsWith_eq_false hpublic v.className
  refine ⟨hname, hstands, ?_⟩
  intro g hg hsame
  have hgname : g.name = f.name := by
    rw [hname]
    exact eq_of_privateName (hsame.trans hstands) (by decide)
  exact List.inj_on_of_nodup_map hv.fieldNames hg (List.mem_of_find?_eq_some hf) hgname

/-- What the field for the place is set to: the value that is given, or else the place. -/
def placed (values : List (String × Value)) (place : Location) (name : String) : Value :=
  let value := (values.lookup name).getD .none
  if value.isNone then .location place else value

/-- What a run through fields sets them to. -/
theorem forall₂_of_foldlM_initialField (hplace : capture 0 stack = .ok place)
    {values : List (String × Value)} {fields : List Field}
    {state result : List (String × Value) × Option Ref}
    (h : fields.foldlM (fun state f => initialField s stack values state v f) state = .ok result) :
    ∃ set, result.1 = state.1 ++ set ∧
      List.Forall₂ (fun f entry => entry.1 = privateName v.className f.name ∧
        (f.role = .location → entry.2 = placed values place (privateName v.className f.name)))
        fields set := by
  have hcaller : capture 1 (generatedFrame "__init__" :: stack) = .ok place := by
    rw [capture_succ, hplace]
  induction fields generalizing state with
  | nil =>
    cases h
    exact ⟨[], (List.append_nil _).symm, List.Forall₂.nil⟩
  | cons f fields ih =>
    rw [List.foldlM_cons] at h
    obtain ⟨next, hnext, hrest⟩ := Outcome.bind_eq_ok_iff.mp h
    obtain ⟨set, hset, hentries⟩ := ih hrest
    have hstep : ∃ value, next.1 = state.1 ++ [(privateName v.className f.name, value)] ∧
        (f.role = .location → value = placed values place (privateName v.className f.name)) := by
      unfold initialField at hnext
      dsimp only at hnext
      split at hnext
      · next hrole =>
        obtain ⟨chained, -, hnext⟩ := Outcome.bind_eq_ok_iff.mp hnext
        cases hnext
        exact ⟨_, rfl, fun hlocation => by simp [hrole] at hlocation⟩
      · split at hnext
        · next hnone =>
          rw [hcaller] at hnext
          cases hnext
          exact ⟨_, rfl, fun _ => (if_pos hnone).symm⟩
        · next hgiven =>
          cases hnext
          exact ⟨_, rfl, fun _ => (if_neg hgiven).symm⟩
      · next hlocation =>
        cases hnext
        exact ⟨_, rfl, fun hrole => absurd hrole hlocation⟩
    obtain ⟨value, hvalue, hat⟩ := hstep
    refine ⟨(privateName v.className f.name, value) :: set, ?_, hentries.cons ⟨rfl, hat⟩⟩
    rw [hset, hvalue, List.append_assoc, List.singleton_append]

/-- **What the class of a variant sets the field for the place to.** -/
theorem lookup_of_makeError (hv : v.IsWellFormed) (hf : v.location? = some f)
    (hplace : capture 0 stack = .ok place) {values : List (String × Value)} {made : Ref × Store}
    (h : makeError s stack e v values = .ok made) :
    ∃ error, made = s.add (.error error) ∧
      error.attributes.lookup locationField = some (placed values place locationField) := by
  obtain ⟨-, hstands, honly⟩ := eq_of_privateName_location hv hf
  have hmem : f ∈ v.fields := List.mem_of_find?_eq_some hf
  have hrole : f.role = .location := by simpa using List.find?_some hf
  have hunit : v.isUnit = false := by simpa [Variant.isUnit] using List.ne_nil_of_mem hmem
  unfold makeError at h
  dsimp only at h
  rw [if_neg (by simp [hunit])] at h
  split at h
  · cases h
  · obtain ⟨⟨attributes, chained⟩, hrun, h⟩ := Outcome.bind_eq_ok_iff.mp h
    cases h
    obtain ⟨set, hset, hentries⟩ := forall₂_of_foldlM_initialField hplace hrun
    obtain rfl : attributes = set := hset
    obtain ⟨value, hvalue, hat⟩ := lookup_of_forall₂
      (P := fun f value => f.role = .location →
        value = placed values place (privateName v.className f.name)) hentries hmem honly
    rw [hstands] at hvalue hat
    exact ⟨_, rfl, hvalue.trans (congrArg some (hat hrole))⟩

/-- What the class is handed for the place by a selector or a function. -/
theorem lookup_of_assembled (hv : v.IsWellFormed) (hf : v.location? = some f)
    (hplace : capture 1 stack = .ok place) {valueOf : Field → Except Failure Value}
    {arguments : List (String × Value)} (h : assembled stack v valueOf = .ok arguments) :
    arguments.lookup locationField = some (.location place) := by
  have hname : f.name = locationField := hv.locationName f hf
  have hmem : f ∈ v.fields := List.mem_of_find?_eq_some hf
  have hrole : f.role = .location := by simpa using List.find?_some hf
  have hentries : List.Forall₂ (fun g entry => entry.1 = g.name ∧
      (g.role = .location → entry.2 = .location place)) v.fields arguments := by
    refine (Outcome.mapM_eq_ok_iff.mp h).imp fun g entry hentry => ?_
    by_cases hrole : g.role = .location
    · rw [if_pos hrole, hplace] at hentry
      cases hentry
      exact ⟨rfl, fun _ => rfl⟩
    · rw [if_neg hrole] at hentry
      obtain ⟨value, -, hentry⟩ := Outcome.bind_eq_ok_iff.mp hentry
      cases hentry
      exact ⟨rfl, fun hlocation => absurd hlocation hrole⟩
  obtain ⟨value, hvalue, hat⟩ := lookup_of_forall₂ (k := Field.name)
    (P := fun f value => f.role = .location → value = .location place) hentries hmem
    fun g hg hsame => List.inj_on_of_nodup_map hv.fieldNames hg hmem hsame
  rw [hname] at hvalue
  exact hvalue.trans (congrArg some (hat hrole))

/-- The class sets the field to what it is handed by a selector or a function. -/
theorem lookup_of_handed (hv : v.IsWellFormed) (hf : v.location? = some f) {function : String}
    {arguments : List (String × Value)}
    (harguments : arguments.lookup locationField = some (.location place)) {made : Ref × Store}
    (h : makeError s (generatedFrame function :: stack) e v arguments = .ok made) :
    ∃ error, made = s.add (.error error) ∧
      error.attributes.lookup locationField = some (.location place) := by
  obtain ⟨other, hother, -⟩ := exists_capture (List.cons_ne_nil (generatedFrame function) stack)
  obtain ⟨error, hmade, hlookup⟩ := lookup_of_makeError hv hf hother h
  refine ⟨error, hmade, hlookup.trans ?_⟩
  rw [placed, harguments]
  rfl

/-- **What a function sets the field for the place to.** -/
theorem lookup_of_callConstructor (hv : v.IsWellFormed) (hf : v.location? = some f)
    (hplace : capture 0 stack = .ok place) {name : String} {values : List (String × Value)}
    {made : Ref × Store} (h : callConstructor s stack e v name values = .ok made) :
    ∃ error, made = s.add (.error error) ∧
      error.attributes.lookup locationField = some (.location place) := by
  unfold callConstructor at h
  dsimp only at h
  split at h
  · cases h
  · obtain ⟨arguments, harguments, h⟩ := Outcome.bind_eq_ok_iff.mp h
    split at h
    · cases h
    · have hcaller : capture 1 (generatedFrame name :: stack) = .ok place := by
        rw [capture_succ, hplace]
      exact lookup_of_handed hv hf (lookup_of_assembled hv hf hcaller harguments) h

variable [Hierarchy]

/-- **What a bound selector sets the field for the place to.** -/
theorem lookup_of_bind (hv : v.IsWellFormed) (hf : v.location? = some f)
    (hplace : capture 0 stack = .ok place) {x : Selector} (hx : x.product = .variant e v)
    {residual : Value} {made : Ref × Store} (h : s.bind home stack x residual = .ok made) :
    ∃ error, made = s.add (.error error) ∧
      error.attributes.lookup locationField = some (.location place) := by
  obtain ⟨cause, -, h⟩ := Outcome.bind_eq_ok_iff.mp h
  rw [hx] at h
  dsimp only at h
  split at h
  · cases h
  · obtain ⟨arguments, harguments, h⟩ := Outcome.bind_eq_ok_iff.mp h
    obtain ⟨made, hmade, h⟩ := Outcome.bind_eq_ok_iff.mp h
    have hcaller : capture 1 (generatedFrame "bind" :: stack) = .ok place := by
      rw [capture_succ, hplace]
    obtain ⟨error, rfl, hlookup⟩ :=
      lookup_of_handed hv hf (lookup_of_assembled hv hf hcaller harguments) hmade
    cases h
    split
    · exact ⟨error, rfl, hlookup⟩
    · exact ⟨_, congrArg (Prod.mk s.size) (s.chain_add error cause), hlookup⟩

/-! ### Blocks of code -/

omit [Hierarchy] in
/-- A field of an error that was just made. -/
theorem attributeOf_add {error : ErrorObject} {name : String} {value : Value}
    (h : error.attributes.lookup name = some value) :
    (s.add (.error error)).2.attributeOf (.object s.size) name = .ok value := by
  simp only [Store.attributeOf, Store.error?_add, h]

omit [Hierarchy] in
/-- An error of the class of a variant is made by that class. -/
theorem kind_of_makeError {values : List (String × Value)} {made : Ref × Store}
    (h : makeError s stack e v values = .ok made) :
    ∃ error, made = s.add (.error error) ∧ error.kind = .variant e v := by
  unfold makeError at h
  dsimp only at h
  split at h
  · split at h
    · cases h
      exact ⟨_, rfl, rfl⟩
    · cases h
  · split at h
    · cases h
    · obtain ⟨_, -, h⟩ := Outcome.bind_eq_ok_iff.mp h
      cases h
      exact ⟨_, rfl, rfl⟩

/-- A selector that makes an error of a variant is one of the variant. -/
theorem product_of_bind {x : Selector} {residual : Value} {r : Ref}
    (h : s.bind home stack x residual = .ok (r, t))
    (hvariant : t.variant? (.object r) = some (r, e, v)) : x.product = .variant e v := by
  obtain ⟨found, hfound, hkind⟩ := Store.variant?_eq_some_iff.mp hvariant
  have hmade : ∀ {error : ErrorObject}, (r, t) = s.add (.error error) → found = error := by
    intro error heq
    obtain rfl : r = s.size := congrArg Prod.fst heq
    obtain rfl : t = (s.add (.error error)).2 := congrArg Prod.snd heq
    rw [s.error?_add] at hfound
    exact (Prod.mk.inj (Option.some.inj hfound)).2.symm
  obtain ⟨cause, -, h⟩ := Outcome.bind_eq_ok_iff.mp h
  split at h
  · obtain rfl := hmade (Except.ok.inj h).symm
    cases hkind
  · next e' v' hproduct =>
    dsimp only at h
    split at h
    · cases h
    · obtain ⟨arguments, -, h⟩ := Outcome.bind_eq_ok_iff.mp h
      obtain ⟨made, hcalled, h⟩ := Outcome.bind_eq_ok_iff.mp h
      obtain ⟨error, rfl, hclass⟩ := kind_of_makeError hcalled
      have hsame : found.kind = .variant e' v' := by
        split at h
        · obtain rfl := hmade (Except.ok.inj h).symm
          exact hclass
        · have hchained : (r, t) = s.add (.error { error with chained := cause }) :=
            (Except.ok.inj h).symm.trans (congrArg (Prod.mk s.size) (s.chain_add error cause))
          obtain rfl := hmade hchained
          exact hclass
      rw [hkind] at hsame
      cases hsame
      exact hproduct

omit [Hierarchy] in
/-- A failure is not an error of a variant. -/
theorem variant?_addFailure (s : Store) (failure : Failure) :
    (s.addFailure failure).2.variant? (.object s.size) = none := by
  rw [Store.addFailure, Store.variant?, Store.error?_add]

omit [Hierarchy] in
/-- A failure that leaves a block is not an error of a variant. -/
theorem variant?_exitWith {failure : Failure} {r : Ref} (h : s.exitWith failure = ⟨some r, t⟩) :
    t.variant? (.object r) = none := by
  have hr : s.size = r := Option.some.inj (congrArg Store.Exit.error h)
  have ht : (s.addFailure failure).2 = t := congrArg Store.Exit.store h
  subst hr ht
  exact variant?_addFailure s failure

/-- **What leaves a block as an error of a variant** is the original error, or what a selector of
the variant makes of it. -/
theorem turned_cases {selector : Value} {given : List Kind} {q r : Ref}
    (h : s.turned home stack selector given q = ⟨some r, t⟩)
    (hvariant : t.variant? (.object r) = some (r, e, v)) :
    (r = q ∧ t = s) ∨ ∃ x u, s.bind home (supportFrame :: stack) x (.object q) = .ok (r, u) ∧
      t = u.chain r (some q) := by
  have hfailure : ∀ {failure : Failure}, s.exitWith failure ≠ ⟨some r, t⟩ := by
    intro failure heq
    rw [variant?_exitWith heq] at hvariant
    cases hvariant
  unfold Store.turned at h
  split at h
  · exact absurd h hfailure
  · cases h
    exact Or.inl ⟨rfl, rfl⟩
  · dsimp only at h
    split at h
    · next made u hmade =>
      cases h
      obtain ⟨x, -, hmade⟩ := Outcome.bind_eq_ok_iff.mp hmade
      exact Or.inr ⟨x, u, hmade, rfl⟩
    · exact absurd h hfailure

omit [Hierarchy] in
/-- What an error is chained to does not change of which variant it is. -/
theorem variant?_chain (u : Store) (r : Ref) (c : Option Ref) :
    (u.chain r c).variant? (.object r) = u.variant? (.object r) := by
  unfold Store.chain
  split
  · next error herror =>
    have hlt : r < u.objects.length := (List.getElem?_eq_some_iff.mp herror).1
    have hnew : (u.put r (.error { error with chained := c })).get? r =
        some (.error { error with chained := c }) := by
      simp [Store.put, Store.get?, hlt]
    obtain ⟨kind, arguments, attributes, chained⟩ := error
    simp only [Store.variant?, Store.error?, hnew, herror]
    cases kind <;> rfl
  · rfl

/-- **How an error of a variant comes to be made**: the class of the variant is called, or the
function that makes its errors, or a selector of the variant is bound, and then the error may be
chained to the one that the selector was bound to. -/
theorem made_cases {m : Making} {r : Ref} (hmade : m.made? s home stack e v = some (r, t))
    (hvariant : t.variant? (.object r) = some (r, e, v)) (hnew : s.size ≤ r) :
    (∃ values, m = .call values ∧ makeError s stack e v values = .ok (r, t)) ∨
    (∃ name values, callConstructor s stack e v name values = .ok (r, t)) ∨
    ∃ (s' : Store) (stack' : List Frame) (x : Selector) (residual : Value) (u : Store),
      (stack' = stack ∨ stack' = supportFrame :: stack) ∧
      x.product = .variant e v ∧ s'.bind home stack' x residual = .ok (r, u) ∧
      (t = u ∨ ∃ q, residual = .object q ∧ t = u.chain r (some q)) := by
  -- the original error is no new one, and what is raised in place of no error is of no variant
  have hraised : ∀ value, (r, t) ≠ s.raised value := by
    intro value heq
    unfold Store.raised at heq
    split at heq
    · next q error herror =>
      cases heq
      obtain ⟨rfl, -⟩ := Store.error?_eq_some_iff.mp herror
      exact absurd (Store.lt_size_of_error? herror) (Nat.not_lt.mpr hnew)
    · cases heq
      cases hvariant.symm.trans (variant?_addFailure s .notAnError)
  have hturned : ∀ selector given value, (s.raised value).2.turned home stack selector given
      (s.raised value).1 = ⟨some r, t⟩ →
        ∃ (s' : Store) (stack' : List Frame) (x : Selector) (residual : Value) (u : Store),
          (stack' = stack ∨ stack' = supportFrame :: stack) ∧
          x.product = .variant e v ∧ s'.bind home stack' x residual = .ok (r, u) ∧
          (t = u ∨ ∃ q, residual = .object q ∧ t = u.chain r (some q)) := by
    intro selector given value hexit
    rcases turned_cases hexit hvariant with ⟨hr, ht⟩ | ⟨x, u, hbind, rfl⟩
    · exact absurd (Prod.ext hr ht) (hraised value)
    · rw [variant?_chain] at hvariant
      exact ⟨_, _, x, _, u, .inr rfl, product_of_bind hbind hvariant, hbind, .inr ⟨_, rfl, rfl⟩⟩
  cases m with
  | call values => exact .inl ⟨values, rfl, Outcome.toOption_eq_some_iff.mp hmade⟩
  | function name values => exact .inr (.inl ⟨name, values, Outcome.toOption_eq_some_iff.mp hmade⟩)
  | bound x residual =>
    have hbind := Outcome.toOption_eq_some_iff.mp hmade
    exact .inr (.inr ⟨s, stack, x, residual, t, .inl rfl, product_of_bind hbind hvariant, hbind,
      .inl rfl⟩)
  | context selector given value =>
    obtain ⟨q, hq, heq⟩ := Option.map_eq_some_iff.mp hmade
    cases heq
    have hexit : s.context home stack selector given (some value) =
        ⟨some r, (s.context home stack selector given (some value)).store⟩ := by
      rw [← hq]
    exact .inr (.inr (hturned selector given value hexit))
  | withContext selector given value =>
    obtain ⟨q, hq, heq⟩ := Option.map_eq_some_iff.mp hmade
    cases heq
    have hexit : (s.withContext home stack selector given (some value)).1 =
        ⟨some r, (s.withContext home stack selector given (some value)).1.store⟩ := by
      rw [← hq]
    generalize (s.withContext home stack selector given (some value)).1.store = t at *
    unfold Store.withContext at hexit
    dsimp only at hexit
    split at hexit
    · exact .inr (.inr (hturned selector given value hexit))
    · cases hexit
      exact absurd rfl (hraised value)
  | ensure value selector =>
    obtain ⟨⟨q, u⟩, hensured, heq⟩ := Option.bind_eq_some_iff.mp hmade
    obtain ⟨r', rfl, heq⟩ := Option.map_eq_some_iff.mp heq
    cases heq
    have hensured := Outcome.toOption_eq_some_iff.mp hensured
    unfold Store.ensure at hensured
    split at hensured
    · obtain ⟨x, -, hensured⟩ := Outcome.bind_eq_ok_iff.mp hensured
      obtain ⟨⟨q, w⟩, hbind, hensured⟩ := Outcome.bind_eq_ok_iff.mp hensured
      cases hensured
      exact .inr (.inr ⟨s, _, x, _, _, .inr rfl, product_of_bind hbind hvariant, hbind, .inl rfl⟩)
    · cases hensured

/-- What a selector sets the field for the place to, whatever the error is chained to afterwards. -/
theorem attributeOf_bind (hv : v.IsWellFormed) (hf : v.location? = some f)
    (hplace : capture 0 stack = .ok place) {x : Selector} (hx : x.product = .variant e v)
    {residual : Value} {r : Ref} {u : Store} (h : s.bind home stack x residual = .ok (r, u))
    (ht : t = u ∨ ∃ q, residual = .object q ∧ t = u.chain r (some q)) :
    t.attributeOf (.object r) locationField = .ok (.location place) := by
  obtain ⟨error, hadded, hlookup⟩ := lookup_of_bind hv hf hplace hx h
  obtain rfl : r = s.size := congrArg Prod.fst hadded
  obtain rfl : u = (s.add (.error error)).2 := congrArg Prod.snd hadded
  rcases ht with rfl | ⟨q, -, rfl⟩
  · exact attributeOf_add hlookup
  · rw [s.chain_add]
    exact attributeOf_add hlookup

/-- **An error that is made without a place** holds the place of the calls, in whichever of the ways
it is made: that of the innermost call outside the support code, from the caller outwards, or the
unknown place at line zero if there is none. -/
theorem made_at_place (hv : v.IsWellFormed) (hf : v.location? = some f) (hstack : stack ≠ [])
    {m : Making} (hplaceless : m.IsPlaceless) {r : Ref}
    (hmade : m.made? s home stack e v = some (r, t))
    (hvariant : t.variant? (.object r) = some (r, e, v)) (hnew : s.size ≤ r) :
    ∃ place, IsPlaceOf stack place ∧ t.attributeOf (.object r) f.name = .ok (.location place) := by
  obtain ⟨place, hplace, hat⟩ := exists_capture hstack
  refine ⟨place, hat, ?_⟩
  rw [hv.locationName f hf]
  rcases made_cases hmade hvariant hnew with ⟨values, rfl, hcalled⟩ | ⟨name, values, hcalled⟩ |
    ⟨s', stack', x, residual, u, hstack', hx, hbind, ht⟩
  · obtain ⟨error, hadded, hlookup⟩ := lookup_of_makeError hv hf hplace hcalled
    cases hadded
    refine attributeOf_add (hlookup.trans ?_)
    have hnone : (values.lookup locationField).getD .none = .none := hplaceless
    rw [placed, hnone]
    rfl
  · obtain ⟨error, hadded, hlookup⟩ := lookup_of_callConstructor hv hf hplace hcalled
    cases hadded
    exact attributeOf_add hlookup
  · have hplace' : capture 0 stack' = .ok place := by
      rcases hstack' with rfl | rfl
      · exact hplace
      · exact capture_support hplace
    exact attributeOf_bind hv hf hplace' hx hbind ht

end

set_option maxRecDepth 4000 in
/-- An error that is made in a block has the place of the block, and one that is made by calls of
the support code alone has the unknown place. -/
theorem made_at_place_block :
    (∃ r t, (Making.context (.object 1) [] (.object 0)).made? (selecting "PermissionError") "job"
        [supportFrame, mainFrame] failing (wrapper "Job" "failed" "retry") = some (r, t) ∧
      t.attributeOf (.object r) "location" = .ok (.location ⟨"main.py", 3, "main"⟩)) ∧
    ∃ r t, (Making.call [("source", .none)]).made? ⟨[]⟩ "job" [supportFrame, supportFrame] failing
        (wrapper "Job" "failed" "retry") = some (r, t) ∧
      t.attributeOf (.object r) "location" = .ok (.location ⟨"<unknown>", 0, "<module>"⟩) := by
  have hwell := isWellFormed_wrapper "Job" "failed" "retry"
  constructor
  · obtain ⟨t, ht, hvariant⟩ : ∃ t, (Making.context (.object 1) [] (.object 0)).made?
        (selecting "PermissionError") "job" [supportFrame, mainFrame] failing
        (wrapper "Job" "failed" "retry") = some (2, t) ∧
        t.variant? (.object 2) = some (2, failing, wrapper "Job" "failed" "retry") :=
      ⟨_, by with_unfolding_all rfl, by decide +kernel⟩
    obtain ⟨place, hplace, hat⟩ := made_at_place hwell rfl (by simp) (m := .context _ _ _) trivial
      ht hvariant (by decide)
    obtain rfl := isPlaceOf_iff.mp hplace
    exact ⟨2, t, ht, hat⟩
  · obtain ⟨t, ht, hvariant⟩ : ∃ t, (Making.call [("source", .none)]).made? ⟨[]⟩ "job"
        [supportFrame, supportFrame] failing (wrapper "Job" "failed" "retry") = some (0, t) ∧
        t.variant? (.object 0) = some (0, failing, wrapper "Job" "failed" "retry") :=
      ⟨_, by with_unfolding_all rfl, by decide +kernel⟩
    have hplaceless : (Making.call [("source", .none)]).IsPlaceless := rfl
    obtain ⟨place, hplace, hat⟩ :=
      made_at_place hwell rfl (by simp) hplaceless ht hvariant (by decide)
    obtain rfl := isPlaceOf_iff.mp hplace
    exact ⟨0, t, ht, hat⟩

end Errata.Error
