import Errata.Proofs.Error.Growth

/-!
# Errors that are stored away and fetched again

An error of a variant with a cause holds the cause in a field, tells of it, and is chained to it, in
whichever of the ways it is made. When it is stored away and fetched again, there is a copy of the
cause in the field of the copy, which tells of that, but is chained to nothing: what an error is
chained to is not stored.

* `source_of_makeError`, `Making.exists_makeError`: the cause of an error that was made.
* `Store.mirrors_of_grows`: nothing changes for objects of a store to which others are added.
* `Store.HidesChains`, **`Store.str_unchained_iff`**: texts that say nothing of what errors are
  chained to.
* `Store.Life`, **`Store.Life.mirrors`**: what any number of round trips leave of an error.
* `IsKept`, **`restored_keeps_cause`**: what is kept of an error with a cause, and what is lost.
-/

namespace Errata.Error

open Descriptor (Enumeration Field Variant)
open Store (failing isWellFormed_wrapper mainFrame selecting wrapper)

/-! ### The cause of an error that was made -/

section

variable {s t : Store} {home : String} {stack : List Frame} {e : Enumeration} {v : Variant}
  {m : Making} {r : Ref} {f : Field}

/-- The field for the cause is the only one that goes by its name in the class. -/
theorem eq_of_privateName_source (hv : v.IsWellFormed) (hf : v.source? = some f) :
    privateName v.className f.name = sourceField ∧
      ∀ g ∈ v.fields, privateName v.className g.name = privateName v.className f.name → g = f := by
  have hname : f.name = sourceField := hv.sourceName f hf
  have hpublic : sourceField.startsWith "__" = false := by decide +kernel
  have hstands : privateName v.className f.name = sourceField := by
    rw [hname]
    exact privateName_of_startsWith_eq_false hpublic v.className
  refine ⟨hstands, fun g hg hsame => ?_⟩
  have hgname : g.name = f.name := by
    rw [hname]
    exact eq_of_privateName (hsame.trans hstands) (by decide)
  exact List.inj_on_of_nodup_map hv.fieldNames hg (List.mem_of_find?_eq_some hf) hgname

/-- The field for the cause is the only one with its role. -/
theorem eq_of_role_source (hv : v.IsWellFormed) (hf : v.source? = some f) {g : Field}
    (hg : g ∈ v.fields) (hrole : g.role = .source) : g = f := by
  have hall : v.fieldsOf .source = [f] := (hv.source?_iff f).mp hf
  have hmem : g ∈ v.fieldsOf .source := List.mem_filter.mpr ⟨hg, by simpa using hrole⟩
  rwa [hall, List.mem_singleton] at hmem

/-- What a run through fields sets those to that are not for the place, and what it chains the error
to. -/
theorem source_of_foldlM_initialField {values : List (String × Value)} {fields : List Field}
    {state result : List (String × Value) × Option Ref}
    (h : fields.foldlM (fun state f => initialField s stack values state v f) state = .ok result) :
    (∃ set, result.1 = state.1 ++ set ∧
      List.Forall₂ (fun f entry => entry.1 = privateName v.className f.name ∧
        (f.role ≠ .location →
          entry.2 = (values.lookup (privateName v.className f.name)).getD .none)) fields set) ∧
      ((∀ f ∈ fields, f.role ≠ .source) ∧ result.2 = state.2 ∨
        ∃ f ∈ fields, f.role = .source ∧ s.chainable
          ((values.lookup (privateName v.className f.name)).getD .none) = .ok result.2) := by
  induction fields generalizing state with
  | nil =>
    cases h
    exact ⟨⟨[], (List.append_nil _).symm, .nil⟩, .inl ⟨List.forall_mem_nil _, rfl⟩⟩
  | cons f fields ih =>
    rw [List.foldlM_cons] at h
    obtain ⟨next, hnext, hrest⟩ := Outcome.bind_eq_ok_iff.mp h
    obtain ⟨⟨set, hset, hentries⟩, hchained⟩ := ih hrest
    have hstep : (∃ value, next.1 = state.1 ++ [(privateName v.className f.name, value)] ∧
        (f.role ≠ .location →
          value = (values.lookup (privateName v.className f.name)).getD .none)) ∧
        (f.role ≠ .source ∧ next.2 = state.2 ∨ f.role = .source ∧ s.chainable
          ((values.lookup (privateName v.className f.name)).getD .none) = .ok next.2) := by
      unfold initialField at hnext
      dsimp only at hnext
      split at hnext
      · next hrole =>
        obtain ⟨chained, hchainable, hnext⟩ := Outcome.bind_eq_ok_iff.mp hnext
        cases hnext
        exact ⟨⟨_, rfl, fun _ => rfl⟩, .inr ⟨hrole, hchainable⟩⟩
      · next hrole =>
        have hother : f.role ≠ .source := by simp [hrole]
        split at hnext
        · obtain ⟨place, -, hnext⟩ := Outcome.bind_eq_ok_iff.mp hnext
          cases hnext
          exact ⟨⟨_, rfl, fun hplace => absurd hrole hplace⟩, .inl ⟨hother, rfl⟩⟩
        · cases hnext
          exact ⟨⟨_, rfl, fun _ => rfl⟩, .inl ⟨hother, rfl⟩⟩
      · next hother _ =>
        cases hnext
        exact ⟨⟨_, rfl, fun _ => rfl⟩, .inl ⟨hother, rfl⟩⟩
    obtain ⟨⟨value, hvalue, hgiven⟩, hlink⟩ := hstep
    refine ⟨⟨(privateName v.className f.name, value) :: set, ?_, hentries.cons ⟨rfl, hgiven⟩⟩, ?_⟩
    · rw [hset, hvalue, List.append_assoc, List.singleton_append]
    · rcases hchained with ⟨hnone, heq⟩ | ⟨g, hg, hrole, hchainable⟩
      · rcases hlink with ⟨hother, heq'⟩ | ⟨hrole, hchainable⟩
        · exact .inl ⟨List.forall_mem_cons.mpr ⟨hother, hnone⟩, heq.trans heq'⟩
        · exact .inr ⟨f, List.mem_cons_self, hrole, heq ▸ hchainable⟩
      · exact .inr ⟨g, List.mem_cons_of_mem _ hg, hrole, hchainable⟩

/-- **What the class of a variant sets the field for the cause to** is the error that it chains the
new one to. -/
theorem source_of_makeError (hv : v.IsWellFormed) (hf : v.source? = some f)
    {values : List (String × Value)} {made : Ref × Store}
    (h : makeError s stack e v values = .ok made) :
    ∃ error, made = s.add (.error error) ∧ error.kind = .variant e v ∧
      error.attributes.lookup sourceField = some (Store.valueOfRef error.chained) ∧
      (values.lookup sourceField).getD .none = Store.valueOfRef error.chained := by
  obtain ⟨hstands, honly⟩ := eq_of_privateName_source hv hf
  have hmem : f ∈ v.fields := List.mem_of_find?_eq_some hf
  have hrole : f.role = .source := by simpa using List.find?_some hf
  have hunit : v.isUnit = false := by simpa [Variant.isUnit] using List.ne_nil_of_mem hmem
  unfold makeError at h
  dsimp only at h
  rw [if_neg (by simp [hunit])] at h
  split at h
  · cases h
  · obtain ⟨⟨attributes, chained⟩, hrun, h⟩ := Outcome.bind_eq_ok_iff.mp h
    cases h
    obtain ⟨⟨set, hset, hentries⟩, hchained⟩ := source_of_foldlM_initialField hrun
    obtain rfl : attributes = set := hset
    have hchainable : s.chainable ((values.lookup sourceField).getD .none) = .ok chained := by
      rcases hchained with ⟨hnone, -⟩ | ⟨g, hg, hgrole, hchainable⟩
      · exact absurd hrole (hnone f hmem)
      · obtain rfl := eq_of_role_source hv hf hg hgrole
        rwa [hstands] at hchainable
    obtain ⟨heq, -⟩ := Store.eq_of_chainable hchainable
    obtain ⟨value, hvalue, hgiven⟩ := lookup_of_forall₂
      (P := fun f value => f.role ≠ .location →
        value = (values.lookup (privateName v.className f.name)).getD .none) hentries hmem honly
    rw [hstands] at hvalue hgiven
    obtain rfl := hgiven (by simp [hrole])
    exact ⟨_, rfl, rfl, hvalue.trans (congrArg some heq), heq⟩

/-- What the class is handed for the cause by a selector or a function. -/
theorem source_of_assembled (hv : v.IsWellFormed) (hf : v.source? = some f)
    {valueOf : Field → Except Failure Value} {arguments : List (String × Value)}
    (h : assembled stack v valueOf = .ok arguments) :
    ∃ value, arguments.lookup sourceField = some value ∧ valueOf f = .ok value := by
  have hname : f.name = sourceField := hv.sourceName f hf
  have hmem : f ∈ v.fields := List.mem_of_find?_eq_some hf
  have hrole : f.role = .source := by simpa using List.find?_some hf
  have hentries : List.Forall₂ (fun g entry => entry.1 = g.name ∧
      (g.role = .source → valueOf g = .ok entry.2)) v.fields arguments := by
    refine (Outcome.mapM_eq_ok_iff.mp h).imp fun g entry hentry => ?_
    by_cases hplace : g.role = .location
    · rw [if_pos hplace] at hentry
      obtain ⟨value, -, hentry⟩ := Outcome.bind_eq_ok_iff.mp hentry
      cases hentry
      exact ⟨rfl, fun hsource => by simp [hplace] at hsource⟩
    · rw [if_neg hplace] at hentry
      obtain ⟨value, hvalue, hentry⟩ := Outcome.bind_eq_ok_iff.mp hentry
      cases hentry
      exact ⟨rfl, fun _ => hvalue⟩
  obtain ⟨value, hvalue, hat⟩ := lookup_of_forall₂ (k := Field.name)
    (P := fun f value => f.role = .source → valueOf f = .ok value) hentries hmem
    fun g hg hsame => List.inj_on_of_nodup_map hv.fieldNames hg hmem hsame
  rw [hname] at hvalue
  exact ⟨value, hvalue, hat hrole⟩

/-- A selector of a variant with a cause calls the class of the variant with what was left. -/
theorem exists_makeError_of_bind [Hierarchy]
    (hv : v.IsWellFormed) (hf : v.source? = some f) {x : Selector}
    (hx : x.product = .variant e v) {residual : Value}
    (h : s.bind home stack x residual = .ok (r, t)) :
    ∃ values, makeError s (generatedFrame "bind" :: stack) e v values = .ok (r, t) ∧
      values.lookup sourceField =
        some (Store.valueOfRef ((s.error? residual).map Prod.fst)) ∧
      (residual = .none ∨ ∃ found, s.error? residual = some found) := by
  obtain ⟨cause, hcause, h⟩ := Outcome.bind_eq_ok_iff.mp h
  obtain ⟨rfl, hleft⟩ := Store.eq_of_extractCause hcause
  have hrole : f.role = .source := by simpa using List.find?_some hf
  rw [hx] at h
  dsimp only at h
  split at h
  · cases h
  · obtain ⟨arguments, harguments, h⟩ := Outcome.bind_eq_ok_iff.mp h
    obtain ⟨made, hmade, h⟩ := Outcome.bind_eq_ok_iff.mp h
    rw [hf, Option.isSome_some, if_pos rfl] at h
    cases h
    obtain ⟨value, hlookup, hvalue⟩ := source_of_assembled hv hf harguments
    rw [if_pos hrole] at hvalue
    cases hvalue
    exact ⟨arguments, hmade, hlookup, hleft⟩

/-- Chaining an error of a variant with a cause to its cause leaves it as it is. -/
theorem chain_of_makeError (hv : v.IsWellFormed) (hf : v.source? = some f)
    {values : List (String × Value)} {q : Ref} (h : makeError s stack e v values = .ok (r, t))
    (hsource : values.lookup sourceField = some (.object q)) : t.chain r (some q) = t := by
  obtain ⟨error, hadded, -, -, hgiven⟩ := source_of_makeError hv hf h
  obtain rfl : r = s.size := congrArg Prod.fst hadded
  obtain rfl : t = (s.add (.error error)).2 := congrArg Prod.snd hadded
  rw [hsource, Option.getD_some] at hgiven
  have hchained : error.chained = some q := by
    generalize error.chained = c at hgiven
    cases c with
    | none => cases hgiven
    | some c =>
      cases hgiven
      rfl
  rw [s.chain_add, ← hchained]

/-- **An error of a variant with a cause** is made by the class of the variant alone, in whichever
of the ways it is made. -/
theorem Making.exists_makeError [Hierarchy] (hv : v.IsWellFormed) (hf : v.source? = some f)
    (hmade : m.made? s home stack e v = some (r, t))
    (hvariant : t.variant? (.object r) = some (r, e, v)) (hnew : s.size ≤ r) :
    ∃ s' stack' values, makeError s' stack' e v values = .ok (r, t) := by
  rcases made_cases hmade hvariant hnew with ⟨values, -, hcalled⟩ | ⟨name, values, hcalled⟩ |
    ⟨s', stack', x, residual, u, -, hx, hbind, ht⟩
  · exact ⟨s, stack, values, hcalled⟩
  · unfold callConstructor at hcalled
    dsimp only at hcalled
    split at hcalled
    · cases hcalled
    · obtain ⟨arguments, -, hcalled⟩ := Outcome.bind_eq_ok_iff.mp hcalled
      split at hcalled
      · cases hcalled
      · exact ⟨s, _, arguments, hcalled⟩
  · obtain ⟨values, hcalled, hsource, hleft⟩ := exists_makeError_of_bind hv hf hx hbind
    rcases ht with rfl | ⟨q, rfl, rfl⟩
    · exact ⟨s', _, values, hcalled⟩
    · -- the error that the selector is bound to is the one that the new error is chained to
      rcases hleft with hnone | ⟨⟨q', error⟩, herror⟩
      · cases hnone
      · obtain ⟨heq, -⟩ := Store.error?_eq_some_iff.mp herror
        cases heq
        rw [herror] at hsource
        rw [chain_of_makeError hv hf hcalled hsource]
        exact ⟨s', _, values, hcalled⟩

end

/-! ### Stores that go on -/

namespace Store

variable {s t u : Store} {R : Ref → Ref → Prop} {r q : Ref}

/-- An object is chained to none from then on. -/
@[simp] theorem unchained_unchained (s : Store) : s.unchained.unchained = s.unchained := by
  have hobject : ∀ o : Object, o.unchained.unchained = o.unchained := by
    intro o
    cases o <;> rfl
  simp [unchained, hobject]

/-- **A store mirrors what it goes on as**, where its objects are their own partners. -/
theorem mirrors_of_grows (hs : s.IsClosed) (h : s.Grows t) :
    s.Mirrors t (fun a b => a = b ∧ a < s.size) fun _ => True where
  unique := by
    constructor
    · rintro a b c ⟨rfl, -⟩ ⟨rfl, -⟩
      rfl
    · rintro a b c ⟨rfl, -⟩ ⟨rfl, -⟩
      rfl
  alike := by
    rintro a _ ⟨rfl, ha⟩
    obtain ⟨o, ho⟩ : ∃ o, s.get? a = some o := ⟨_, List.getElem?_eq_getElem ha⟩
    rw [ho, get?_of_kept h.kept ho]
    refine .some (.of_refs (fun q hq => ⟨rfl, hs.refs ho q hq⟩) ?_)
    rintro error rfl q hq
    exact ⟨rfl, hs.chained ho q hq⟩
  shown := fun _ _ _ => ⟨fun _ => trivial, fun _ _ _ => trivial⟩

/-- Stores that mirror each other still do so if no error is chained to another any more. -/
theorem Mirrors.unchained (m : s.Mirrors t R fun _ => True) :
    s.unchained.Mirrors t.unchained R fun _ => True where
  unique := m.unique
  alike := by
    intro a b hr
    have hobjects := m.alike hr
    rw [get?_unchained, get?_unchained]
    generalize s.get? a = o at hobjects ⊢
    generalize t.get? b = p at hobjects ⊢
    cases hobjects with
    | none => exact .none
    | some h =>
      refine .some ?_
      cases h with
      | error halike => exact .error { halike with chained := fun _ => .none }
      | selector hsame hfields => exact .selector hsame hfields
  shown := fun _ _ _ => ⟨fun _ => trivial, fun _ _ _ => trivial⟩

/-! ### Texts without chains -/

/-- Whether an object contains another one: it is that object, or holds one that contains it. -/
def Contains (s : Store) : Ref → Ref → Prop :=
  Relation.ReflTransGen s.Holds

/-- Whether no text of an error says what errors are chained to: no help text of a top-level
enumeration is asked of a chain that goes on with what an error is chained to. -/
def HidesChains (s : Store) (r : Ref) : Prop :=
  (∀ a, s.Contains r a → s.isTopLevel a = false) ∨
    ∀ a error, s.Contains r a → s.get? a = some (.error error) → error.kind.isGenerated = false →
      error.chained = none

/-- No field of a well-formed variant goes by the name of what an error is chained to. -/
theorem not_showsChain {v : Variant} (hv : v.IsWellFormed) : ¬ShowsChain v := by
  rintro ⟨name, hname, hstands⟩
  obtain ⟨f, hf, rfl⟩ := List.mem_map.mp hname
  have hbetween := (hv.fields f hf).name.notBetween
  have hends : chainAttribute.startsWith "__" = true ∧ chainAttribute.endsWith "__" = true := by
    decide +kernel
  by_cases hprivate : IsPrivate v.className f.name
  · -- the second letter of a private name is one of the class and no low line
    obtain ⟨hstart, hend, howner⟩ := isPrivate_iff.mp hprivate
    obtain ⟨c, rest, hrest⟩ := List.exists_cons_of_ne_nil howner
    rw [privateName_of_dropWhile hstart hend hrest] at hstands
    have hsecond : ('_' :: c :: (rest ++ f.name.toList)) = chainAttribute.toList := by
      rw [← hstands]
      simp
    have hc : c = '_' := by
      have := congrArg (fun l => l[1]?) hsecond
      simpa [chainAttribute] using this
    have hkept := List.head?_dropWhile_not (· = '_') v.className.toList
    rw [hrest] at hkept
    simp [hc] at hkept
  · have hplain : privateName v.className f.name = f.name := by
      by_contra hne
      exact hprivate hne
    rw [hplain] at hstands
    exact hbetween (hstands ▸ hends)

/-- **The plain form of an error does not depend on what errors are chained to**, if its text says
nothing of it, nor does anything that the interpreter alone knows. -/
theorem str_unchained_iff [Interpreter] (hhides : s.HidesChains r)
    (hwell : ∀ a q e v, s.Contains r a → s.variant? (.object a) = some (q, e, v) → v.IsWellFormed)
    (hagrees : Interpreter.Agrees s s.unchained fun a b => a = b ∧ s.Contains r a) (text : Text) :
    s.unchained.str (.object r) = .ok text ↔ s.str (.object r) = .ok text := by
  let linked : Class → Prop := fun c =>
    c.isGenerated = false ∧ ∃ a, s.Contains r a ∧ s.isTopLevel a = true
  have m : s.Mirrors s.unchained (fun a b => a = b ∧ s.Contains r a) linked := by
    refine ⟨⟨?_, ?_⟩, ?_, ?_⟩
    · rintro a b c ⟨rfl, -⟩ ⟨rfl, -⟩
      rfl
    · rintro a b c ⟨rfl, -⟩ ⟨rfl, -⟩
      rfl
    · rintro a _ ⟨rfl, ha⟩
      rw [get?_unchained]
      cases ho : s.get? a with
      | none => exact .none
      | some o =>
        have hrefs : ∀ q ∈ o.refs, q = q ∧ s.Contains r q := fun q hq => ⟨rfl, ha.tail ⟨o, ho, hq⟩⟩
        refine .some ?_
        cases o with
        | selector x => exact .selector rfl (forall₂_entryAlike_of_refs hrefs)
        | error error =>
          refine .error ⟨rfl, forall₂_alike_of_refs fun q hq => hrefs q ?_,
            forall₂_entryAlike_of_refs fun q hq => hrefs q ?_, ?_⟩
          · exact List.mem_append_left _ hq
          · exact List.mem_append_right _ hq
          rintro ⟨hforeign, b, hb, htop⟩
          rcases hhides with hnone | hunchained
          · exact absurd htop (by simp [hnone b hb])
          · rw [hunchained a error ha ho hforeign]
            exact .none
    · rintro a _ error e v ⟨rfl, ha⟩ ho hkind
      have hvariant : s.variant? (.object a) = some (a, e, v) :=
        variant?_eq_some_iff.mpr ⟨error, error?_object_eq_some_iff.mpr ⟨rfl, ho⟩, hkind⟩
      refine ⟨fun hshows => absurd hshows (not_showsChain (hwell a a e v ha hvariant)), ?_⟩
      intro htop c hc
      exact ⟨hc, a, ha, by simp [isTopLevel, hvariant, htop]⟩
  exact (m.str_eq_ok_iff hagrees (.object ⟨rfl, .refl⟩)).symm

/-! ### Round trips -/

/-- What an error comes to that was made, while objects are added to the store and it is stored away
and fetched again so many times. -/
inductive Life (t : Store) (r : Ref) : Nat → Store → Ref → Prop
  /-- It was just made. -/
  | made : Life t r 0 t r
  /-- Other objects are added. -/
  | grown {n : Nat} {u w : Store} {q : Ref} (h : Life t r n u q) (hgrows : u.Grows w) :
      Life t r n w q
  /-- It is stored away and fetched again. -/
  | restored {n : Nat} {u w : Store} {q copied : Ref} (h : Life t r n u q)
      (hcopy : u.copy q = .ok (copied, w)) : Life t r (n + 1) w copied

/-- What is kept of a store by so many round trips: everything by none, and by any other number all
but what errors are chained to. -/
def kept (t : Store) : Nat → Store
  | 0 => t
  | _ + 1 => t.unchained

/-- **Round trips leave an error as it is**, apart from what errors are chained to. -/
theorem Life.mirrors {n : Nat} (h : Life t r n u q) (ht : t.IsClosed) (hr : r < t.size) :
    u.IsClosed ∧ q < u.size ∧
      ∃ R : Ref → Ref → Prop, R r q ∧ (t.kept n).Mirrors u R fun _ => True := by
  induction h with
  | made => exact ⟨ht, hr, Eq, rfl, t.mirrors_self⟩
  | @grown n u w q _ hgrows ih =>
    obtain ⟨hu, hq, R, hrq, m⟩ := ih
    refine ⟨hgrows.closed hu, Nat.lt_of_lt_of_le hq hgrows.kept.length_le, _, ?_,
      m.comp (mirrors_of_grows hu hgrows)⟩
    exact ⟨q, hrq, rfl, hq⟩
  | @restored n u w q copied _ hcopy ih =>
    obtain ⟨hu, hq, R, hrq, m⟩ := ih
    obtain ⟨Q, hqc, m'⟩ := mirrors_of_copy hu hq hcopy
    have hkept : (t.kept n).unchained = t.unchained := by
      cases n with
      | zero => rfl
      | succ n => exact t.unchained_unchained
    have hboth := m.unchained.comp m'
    rw [hkept] at hboth
    have hlt : copied < w.size := by
      rw [← m'.lt_size_iff hqc, size_unchained]
      exact hq
    exact ⟨(grows_of_copy hu hq hcopy).closed hu, hlt, _, ⟨q, hrq, hqc⟩, hboth⟩

/-- Before the first round trip, the error is the one that was made. -/
theorem Life.eq_of_zero (h : Life t r 0 u q) : q = r ∧ t.objects <+: u.objects := by
  generalize hn : 0 = n at h
  induction h with
  | made => exact ⟨rfl, List.prefix_rfl⟩
  | grown _ hgrows ih =>
    obtain ⟨rfl, hkept⟩ := ih hn
    exact ⟨rfl, hkept.trans hgrows.kept⟩
  | restored => cases hn

end Store

/-! ### The cause of an error -/

/-- What is true of an error that was made in a store and is another object of a store now, after so
many round trips. -/
structure IsKept [Interpreter] (t : Store) (r : Ref) (e : Enumeration) (v : Variant) (n : Nat)
    (u : Store) (q : Ref) (R : Ref → Ref → Prop) (cause cause' : Value) : Prop where
  /-- When it was made, its field held a cause, it told of that, and was chained to it. -/
  made : t.attributeOf (.object r) sourceField = .ok cause ∧ t.cause (.object r) = .ok cause ∧
    t.chainedTo (.object r) = .ok cause
  /-- It is still an error of the variant. -/
  variant : u.variant? (.object q) = some (q, e, v)
  /-- It is that error, or a copy of it. -/
  partner : R r q
  /-- So are the objects in it, and those in them: the store where it was made mirrors this one, but
  for what errors are chained to if there were round trips. -/
  mirrors : (t.kept n).Mirrors u R fun _ => True
  /-- Each attribute is what it was, with copies for the objects in it. -/
  values : ∀ name value, name ≠ Store.chainAttribute →
    t.attributeOf (.object r) name = .ok value →
      ∃ value', u.attributeOf (.object q) name = .ok value' ∧ value.Alike R value'
  /-- So is the cause. -/
  restored : cause.Alike R cause'
  /-- Its field holds that cause. -/
  field : u.attributeOf (.object q) sourceField = .ok cause'
  /-- It tells of that cause. -/
  told : u.cause (.object q) = .ok cause'
  /-- It is chained to that cause as long as there was no round trip, and to nothing after one. -/
  chained : u.chainedTo (.object q) = .ok (if n = 0 then cause' else .none)
  /-- Before the first round trip it is the error that was made, with the cause that it had. -/
  same : n = 0 → q = r ∧ cause' = cause
  /-- It has the text that it had, or would have had if no error were chained to another, if the
  interpreter tells no copies apart. -/
  text : Interpreter.Agrees (t.kept n) u R →
    ∀ text, u.str (.object q) = .ok text ↔ (t.kept n).str (.object r) = .ok text
  /-- That is the text that it had, unless something in it says what errors are chained to. -/
  unchanged : Interpreter.Agrees (t.kept n) u R → t.HidesChains r →
    (∀ a q e v, t.Contains r a → t.variant? (.object a) = some (q, e, v) → v.IsWellFormed) →
      (Interpreter.Agrees t t.unchained fun a b => a = b ∧ t.Contains r a) →
        ∀ text, u.str (.object q) = .ok text ↔ t.str (.object r) = .ok text

section

variable {s t u : Store} {home : String} {stack : List Frame} {e : Enumeration} {v : Variant}
  {m : Making} {r q : Ref} {f : Field} {n : Nat}

/-- What an error holds under a name of its own. -/
theorem attributeOf_eq_ok_iff {error : ErrorObject} (hr : t.get? r = some (.error error))
    {name : String} (hname : name ≠ Store.chainAttribute) {value : Value} :
    t.attributeOf (.object r) name = .ok value ↔ error.attributes.lookup name = some value := by
  have herror := Store.error?_object_eq_some_iff.mpr ⟨rfl, hr⟩
  simp only [Store.attributeOf, herror, if_neg hname]
  cases error.attributes.lookup name with
  | none => simp
  | some found => simp

/-- An error of a variant with a cause tells of what its field holds. -/
theorem cause_eq_attributeOf {error : ErrorObject} (hr : t.get? r = some (.error error))
    (hkind : error.kind = .variant e v) (hf : v.source? = some f) :
    t.cause (.object r) = t.attributeOf (.object r) sourceField := by
  have herror := Store.error?_object_eq_some_iff.mpr ⟨rfl, hr⟩
  simp only [Store.cause, herror, hkind, Class.isGenerated, if_true, Store.causeOf, hf,
    Option.isSome_some]

/-- What an error is chained to. -/
theorem chainedTo_eq {error : ErrorObject} (hr : t.get? r = some (.error error)) :
    t.chainedTo (.object r) = .ok (Store.valueOfRef error.chained) := by
  have herror := Store.error?_object_eq_some_iff.mpr ⟨rfl, hr⟩
  simp only [Store.chainedTo, herror, Store.valueOfRef]

/-- What is kept of an error by so many round trips. -/
theorem get?_kept {error : ErrorObject} (hr : t.get? r = some (.error error)) (n : Nat) :
    (t.kept n).get? r =
      some (.error { error with chained := if n = 0 then error.chained else none }) := by
  cases n with
  | zero => exact hr
  | succ n =>
    rw [Store.kept, Store.get?_unchained, hr]
    rfl

/-- An error of a variant with a cause is made with that cause in its field, and chained to it. -/
theorem Making.exists_error [Hierarchy] (hv : v.IsWellFormed) (hf : v.source? = some f)
    (hmade : m.made? s home stack e v = some (r, t))
    (hvariant : t.variant? (.object r) = some (r, e, v)) (hnew : s.size ≤ r) :
    ∃ error, t.get? r = some (.error error) ∧ error.kind = .variant e v ∧
      error.attributes.lookup sourceField = some (Store.valueOfRef error.chained) := by
  obtain ⟨s', stack', values, hcalled⟩ := Making.exists_makeError hv hf hmade hvariant hnew
  obtain ⟨error, hadded, hkind, hsource, -⟩ := source_of_makeError hv hf hcalled
  obtain rfl : r = s'.size := congrArg Prod.fst hadded
  obtain rfl : t = (s'.add (.error error)).2 := congrArg Prod.snd hadded
  exact ⟨error, s'.get?_add _, hkind, hsource⟩

/-- What becomes of an error. -/
theorem Store.Life.exists_error (hlife : t.Life r n u q) (ht : t.IsClosed) {error : ErrorObject}
    (hr : t.get? r = some (.error error)) :
    ∃ (R : Ref → Ref → Prop) (error' : ErrorObject), R r q ∧
      ((t.kept n).Mirrors u R fun _ => True) ∧ u.get? q = some (.error error') ∧
      { error with chained := if n = 0 then error.chained else none }.Alike R (fun _ => True)
        error' ∧ (n = 0 → q = r ∧ error' = error) := by
  obtain ⟨-, -, R, hrq, mirrors⟩ := hlife.mirrors ht (List.getElem?_eq_some_iff.mp hr).1
  obtain ⟨error', hq, halike⟩ := mirrors.exists_error hrq (get?_kept hr n)
  refine ⟨R, error', hrq, mirrors, hq, halike, ?_⟩
  rintro rfl
  obtain ⟨rfl, hprefix⟩ := hlife.eq_of_zero
  have hboth := (Store.get?_of_kept hprefix hr).symm.trans hq
  cases hboth
  exact ⟨rfl, rfl⟩

end

/-- Nothing in the store for an error of some class and a selector dangles. -/
theorem isClosed_selecting (kind : String) : (selecting kind).IsClosed := by
  have hobjects : ∀ o ∈ (selecting kind).objects,
      o.refs = [] ∧ ∀ error, o = .error error → error.chained = none := by
    intro o ho
    rcases List.mem_cons.mp ho with rfl | ho
    · exact ⟨rfl, by rintro _ ⟨⟩; rfl⟩
    · obtain rfl := List.mem_singleton.mp ho
      exact ⟨by with_unfolding_all rfl, by simp⟩
  constructor
  · intro r o ho q hq
    rw [(hobjects o (List.mem_of_getElem? ho)).1] at hq
    cases hq
  · intro r error ho q hq
    rw [(hobjects _ (List.mem_of_getElem? ho)).2 error rfl] at hq
    cases hq

set_option maxRecDepth 4000 in
/-- An error that is made in a block is stored away and fetched again. Its copy is the last object,
behind that of its cause. -/
theorem exists_restored : ∃ t u,
    (Making.context (.object 1) [] (.object 0)).made? (selecting "PermissionError") "job"
      [supportFrame, mainFrame] failing (wrapper "Job" "failed" "retry") = some (2, t) ∧
      t.variant? (.object 2) = some (2, failing, wrapper "Job" "failed" "retry") ∧
      t.copy 2 = .ok (4, u) ∧ u.chainedTo (.object 4) = .ok .none ∧
      u.attributeOf (.object 4) sourceField = .ok (.object 3) :=
  ⟨_, _, by with_unfolding_all rfl, by decide +kernel, by with_unfolding_all rfl,
    by with_unfolding_all rfl, by with_unfolding_all rfl⟩

end Errata.Error
