import Errata.Error.Chain
import Errata.Proofs.Outcome
import Mathlib.Logic.Relation
import Mathlib.Logic.Relator

/-!
# Stores that mirror each other

Two values are alike if they are the same but for the objects in them, which are related; two
objects are alike if they are of one class and hold values that are alike. A store mirrors another
along a relation that pairs off objects that are alike. Nothing is said of objects without a
partner.

* `Value.Alike`, `ErrorObject.Alike`, `Object.Alike`: values and objects that are alike.
* `Value.Alike.read_eq`, `map_eq_of_forall₂_alike`: what values that are alike have in common.
* `Value.refs`, `Object.refs`: the objects in values and in objects; what holds of them makes a
  value or an object like itself.
* **`Store.Mirrors`**: stores of which one mirrors the other.
* `Store.mirrors_self`, **`Store.Mirrors.symm`**, **`Store.Mirrors.comp`**: mirroring is an
  equivalence.
* `Store.Mirrors.error?_alike`, `Store.Mirrors.lt_size_iff`, `Store.Mirrors.mem_iff`: what partners
  have in common.
-/

namespace Errata.Error

variable {R : Ref → Ref → Prop}

/-! ### Values and objects that are alike -/

/-- Whether two values are alike: the same but for the objects in them, which are related. -/
inductive Value.Alike (R : Ref → Ref → Prop) : Value → Value → Prop
  /-- Related objects are alike. -/
  | object {a b : Ref} (h : R a b) : Alike R (.object a) (.object b)
  /-- Lists are alike if their entries are, one by one. -/
  | list {vs ws : List Value} (h : List.Forall₂ (Alike R) vs ws) : Alike R (.list vs) (.list ws)
  /-- Any other value is like itself. -/
  | plain {v : Value} (hobject : ∀ r, v ≠ .object r) (hlist : ∀ vs, v ≠ .list vs) : Alike R v v

/-- Whether two entries are alike: they have the same name, and values that are alike. -/
def EntryAlike (R : Ref → Ref → Prop) (a b : String × Value) : Prop :=
  a.1 = b.1 ∧ a.2.Alike R b.2

/-- Whether two errors are alike: they are of one class, and were made with values that are alike
and have attributes that are alike. If anything of such a class shows what it is chained to, they
are chained to related errors. -/
structure ErrorObject.Alike (R : Ref → Ref → Prop) (linked : Class → Prop) (e f : ErrorObject) :
    Prop where
  /-- They are of one class. -/
  kind : e.kind = f.kind
  /-- They were made with values that are alike. -/
  arguments : List.Forall₂ (Value.Alike R) e.arguments f.arguments
  /-- Their attributes are alike. -/
  attributes : List.Forall₂ (EntryAlike R) e.attributes f.attributes
  /-- They are chained to related errors, or both to none. -/
  chained : linked e.kind → Option.Rel R e.chained f.chained

/-- Whether two objects are alike. -/
inductive Object.Alike (R : Ref → Ref → Prop) (linked : Class → Prop) : Object → Object → Prop
  /-- Errors that are alike. -/
  | error {e f : ErrorObject} (h : e.Alike R linked f) : Alike R linked (.error e) (.error f)
  /-- Selectors of one class with values that are alike. -/
  | selector {x y : Selector} (hsame : { x with fields := [] } = { y with fields := [] })
      (h : List.Forall₂ (EntryAlike R) x.fields y.fields) :
      Alike R linked (.selector x) (.selector y)

/-- Whether the errors of a variant show what they are chained to by way of a field with that name.
-/
def ShowsChain (v : Descriptor.Variant) : Prop :=
  ∃ name ∈ v.fieldNames, privateName v.className name = Store.chainAttribute

/-- Whether one store mirrors another along a relation between their objects: the relation pairs
objects off, and objects that it relates are alike. -/
structure Store.Mirrors (s t : Store) (R : Ref → Ref → Prop) (linked : Class → Prop) : Prop where
  /-- Each object has one partner at most. -/
  unique : Relator.BiUnique R
  /-- Partners are alike. -/
  alike : ∀ {a b : Ref}, R a b → Option.Rel (Object.Alike R linked) (s.get? a) (t.get? b)
  /-- What a form shows of chaining is kept: a variant with a field of that name shows it, and the
  help texts of a top-level enumeration are those of a chain, which goes on behind an error that is
  not generated with what that is chained to. -/
  shown : ∀ {a b : Ref} {error : ErrorObject} {e : Descriptor.Enumeration} {v : Descriptor.Variant},
    R a b → s.get? a = some (.error error) → error.kind = .variant e v →
      (ShowsChain v → linked error.kind) ∧
        (e.isTopLevel = true → ∀ c : Class, c.isGenerated = false → linked c)

/-- Values of entries that are alike are alike. -/
theorem lookup_alike {entries entries' : List (String × Value)}
    (h : List.Forall₂ (EntryAlike R) entries entries') (name : String) :
    Option.Rel (Value.Alike R) (entries.lookup name) (entries'.lookup name) := by
  induction h with
  | nil => exact .none
  | @cons a b entries entries' hfirst _ ih =>
    obtain ⟨key, v⟩ := a
    obtain ⟨_, w⟩ := b
    obtain ⟨rfl, halike⟩ := hfirst
    rw [List.lookup_cons, List.lookup_cons]
    cases name == key with
    | true => exact .some halike
    | false => exact ih

/-- What can be read off values that are alike is the same, if it is off objects and off lists. -/
theorem Value.Alike.read_eq {α : Type} {read : Value → α} {a : α}
    (hobject : ∀ r, read (.object r) = a) (hlist : ∀ vs, read (.list vs) = a) {v w : Value}
    (h : v.Alike R w) : read v = read w := by
  cases h with
  | object => rw [hobject, hobject]
  | list => rw [hlist, hlist]
  | plain => rfl

/-- Whether a value is missing is seen of any value that is like it. -/
theorem Value.Alike.isNone_eq {v w : Value} (h : v.Alike R w) : v.isNone = w.isNone :=
  h.read_eq (fun _ => rfl) fun _ => rfl

/-- Whether a value is a number is seen of any value that is like it. -/
theorem Value.Alike.isNumber_eq {v w : Value} (h : v.Alike R w) : v.isNumber = w.isNumber :=
  h.read_eq (fun _ => rfl) fun _ => rfl

/-- Values that are alike are the same string, or none. -/
theorem Value.Alike.text?_eq {v w : Value} (h : v.Alike R w) : v.text? = w.text? :=
  h.read_eq (fun _ => rfl) fun _ => rfl

/-- Values that are alike are the same integer, or none. -/
theorem Value.Alike.int?_eq {v w : Value} (h : v.Alike R w) : v.int? = w.int? :=
  h.read_eq (fun _ => rfl) fun _ => rfl

/-- The items of values that are alike are alike. -/
theorem Value.Alike.items {v w : Value} (h : v.Alike R w) :
    List.Forall₂ (Value.Alike R) (v.items?.getD []) (w.items?.getD []) := by
  cases h with
  | object => exact .nil
  | list hvs => exact hvs
  | @plain v _ hlist =>
    cases v with
    | list vs => exact absurd rfl (hlist vs)
    | _ => exact .nil

/-- What can be read off values that are alike, one by one. -/
theorem map_eq_of_forall₂_alike {α : Type} {read : Value → α}
    (hread : ∀ {v w : Value}, v.Alike R w → read v = read w) {vs ws : List Value}
    (h : List.Forall₂ (Value.Alike R) vs ws) : vs.map read = ws.map read := by
  induction h with
  | nil => rfl
  | cons hv _ ih => rw [List.map_cons, List.map_cons, hread hv, ih]

/-! ### Turning relations around and joining them -/

mutual

/-- The objects in a value. -/
def Value.refs : Value → List Ref
  | .object r => [r]
  | .list items => Value.allRefs items
  | _ => []

/-- The objects in values. -/
def Value.allRefs : List Value → List Ref
  | [] => []
  | v :: rest => v.refs ++ Value.allRefs rest

end

/-- The objects in an object. -/
def Object.refs : Object → List Ref
  | .error e => Value.allRefs e.arguments ++ Value.allRefs (e.attributes.map Prod.snd)
  | .selector x => Value.allRefs (x.fields.map Prod.snd)

variable {Q : Ref → Ref → Prop} {linked : Class → Prop}

mutual

/-- A value is like itself if the objects in it are their own partners. -/
theorem Value.Alike.of_refs {v : Value} (h : ∀ r ∈ v.refs, R r r) : v.Alike R v := by
  cases v with
  | object r => exact .object (h r (by simp [Value.refs]))
  | list vs => exact .list (forall₂_alike_of_refs (by simpa [Value.refs] using h))
  | _ => exact .plain nofun nofun

/-- Values are like themselves if the objects in them are their own partners. -/
theorem forall₂_alike_of_refs {vs : List Value} (h : ∀ r ∈ Value.allRefs vs, R r r) :
    List.Forall₂ (Value.Alike R) vs vs := by
  cases vs with
  | nil => exact .nil
  | cons v vs =>
    simp only [Value.allRefs, List.mem_append] at h
    exact .cons (Value.Alike.of_refs fun r hr => h r (.inl hr))
      (forall₂_alike_of_refs fun r hr => h r (.inr hr))

end

mutual

/-- Values that are alike along a relation are alike the other way round. -/
theorem Value.Alike.symm {v w : Value} (h : v.Alike R w) : w.Alike (flip R) v := by
  cases h with
  | object hr => exact .object hr
  | list hvs => exact .list (forall₂_alike_symm hvs)
  | plain hobject hlist => exact .plain hobject hlist

/-- Lists of values that are alike along a relation are alike the other way round. -/
theorem forall₂_alike_symm {vs ws : List Value} (h : List.Forall₂ (Value.Alike R) vs ws) :
    List.Forall₂ (Value.Alike (flip R)) ws vs := by
  cases h with
  | nil => exact .nil
  | cons hv hvs => exact .cons hv.symm (forall₂_alike_symm hvs)

end

mutual

/-- Values that are alike along a relation are so along any that relates more. -/
theorem Value.Alike.mono (hsub : ∀ a b, R a b → Q a b) {v w : Value} (h : v.Alike R w) :
    v.Alike Q w := by
  cases h with
  | object hr => exact .object (hsub _ _ hr)
  | list hvs => exact .list (forall₂_alike_mono hsub hvs)
  | plain hobject hlist => exact .plain hobject hlist

/-- Lists of values that are alike along a relation are so along any that relates more. -/
theorem forall₂_alike_mono (hsub : ∀ a b, R a b → Q a b) {vs ws : List Value}
    (h : List.Forall₂ (Value.Alike R) vs ws) : List.Forall₂ (Value.Alike Q) vs ws := by
  cases h with
  | nil => exact .nil
  | cons hv hvs => exact .cons (hv.mono hsub) (forall₂_alike_mono hsub hvs)

end

mutual

/-- Values that are alike along one relation and then along another are so along both. -/
theorem Value.Alike.comp {v w x : Value} (h : v.Alike R w) (h' : w.Alike Q x) :
    v.Alike (Relation.Comp R Q) x := by
  cases h with
  | object hr =>
    cases h' with
    | object hq => exact .object ⟨_, hr, hq⟩
    | plain hobject => exact absurd rfl (hobject _)
  | list hvs =>
    cases h' with
    | list hws => exact .list (forall₂_alike_comp hvs hws)
    | plain _ hlist => exact absurd rfl (hlist _)
  | plain hobject hlist =>
    cases h' with
    | object => exact absurd rfl (hobject _)
    | list => exact absurd rfl (hlist _)
    | plain => exact .plain hobject hlist

/-- Lists of values that are alike along one relation and then along another are so along both. -/
theorem forall₂_alike_comp {vs ws xs : List Value} (h : List.Forall₂ (Value.Alike R) vs ws)
    (h' : List.Forall₂ (Value.Alike Q) ws xs) :
    List.Forall₂ (Value.Alike (Relation.Comp R Q)) vs xs := by
  cases h with
  | nil =>
    cases h'
    exact .nil
  | cons hv hvs =>
    cases h' with
    | cons hw hws => exact .cons (hv.comp hw) (forall₂_alike_comp hvs hws)

end

/-- The objects in values are those in each of them. -/
theorem mem_allRefs_iff {vs : List Value} {r : Ref} :
    r ∈ Value.allRefs vs ↔ ∃ v ∈ vs, r ∈ v.refs := by
  induction vs with
  | nil => simp [Value.allRefs]
  | cons v vs ih => simp [Value.allRefs, ih]

mutual

/-- What is in a value has a partner in any value that is like it. -/
theorem Value.Alike.exists_partner {v w : Value} (h : v.Alike R w) {r : Ref} (hr : r ∈ v.refs) :
    ∃ q, R r q := by
  cases h with
  | object hq =>
    obtain rfl : r = _ := by simpa [Value.refs] using hr
    exact ⟨_, hq⟩
  | list hvs => exact exists_partner_of_forall₂ hvs (by simpa [Value.refs] using hr)
  | plain hobject hlist =>
    cases v with
    | object r => exact absurd rfl (hobject r)
    | list vs => exact absurd rfl (hlist vs)
    | _ => simp [Value.refs] at hr

/-- What is in values has a partner in values that are like them. -/
theorem exists_partner_of_forall₂ {vs ws : List Value} (h : List.Forall₂ (Value.Alike R) vs ws)
    {r : Ref} (hr : r ∈ Value.allRefs vs) : ∃ q, R r q := by
  cases h with
  | nil => simp [Value.allRefs] at hr
  | cons hv hvs =>
    rw [Value.allRefs, List.mem_append] at hr
    rcases hr with hr | hr
    · exact hv.exists_partner hr
    · exact exists_partner_of_forall₂ hvs hr

end

/-- Entries are like themselves if the objects in them are their own partners. -/
theorem forall₂_entryAlike_of_refs {entries : List (String × Value)}
    (h : ∀ r ∈ Value.allRefs (entries.map Prod.snd), R r r) :
    List.Forall₂ (EntryAlike R) entries entries := by
  refine List.forall₂_same.mpr fun entry hentry => ⟨rfl, Value.Alike.of_refs fun r hr => ?_⟩
  exact h r (mem_allRefs_iff.mpr ⟨entry.2, List.mem_map_of_mem hentry, hr⟩)

/-- An object is like itself if the objects in it, and those it is chained to, are their own
partners. -/
theorem Object.Alike.of_refs {o : Object} (h : ∀ r ∈ o.refs, R r r)
    (hchained : ∀ e, o = .error e → ∀ r ∈ e.chained, R r r) : o.Alike R linked o := by
  cases o with
  | error e =>
    simp only [Object.refs, List.mem_append] at h
    refine .error ⟨rfl, forall₂_alike_of_refs fun r hr => h r (.inl hr),
      forall₂_entryAlike_of_refs fun r hr => h r (.inr hr), fun _ => ?_⟩
    have hself := hchained e rfl
    cases hc : e.chained with
    | none => exact .none
    | some c => exact .some (hself c hc)
  | selector x => exact .selector rfl (forall₂_entryAlike_of_refs h)

/-- Related values are alike the other way round. -/
theorem forall₂_entryAlike_symm {entries entries' : List (String × Value)}
    (h : List.Forall₂ (EntryAlike R) entries entries') :
    List.Forall₂ (EntryAlike (flip R)) entries' entries :=
  (h.imp fun _ _ hab => ⟨hab.1.symm, hab.2.symm⟩).flip

/-- Entries that are alike along one relation and then along another are so along both. -/
theorem forall₂_entryAlike_comp {as bs cs : List (String × Value)}
    (h : List.Forall₂ (EntryAlike R) as bs) (h' : List.Forall₂ (EntryAlike Q) bs cs) :
    List.Forall₂ (EntryAlike (Relation.Comp R Q)) as cs := by
  induction h generalizing cs with
  | nil =>
    cases h'
    exact .nil
  | cons hab _ ih =>
    cases h' with
    | cons hbc hrest => exact .cons ⟨hab.1.trans hbc.1, hab.2.comp hbc.2⟩ (ih hrest)

/-- The values of entries that are alike are alike. -/
theorem forall₂_values {entries entries' : List (String × Value)}
    (h : List.Forall₂ (EntryAlike R) entries entries') :
    List.Forall₂ (Value.Alike R) (entries.map Prod.snd) (entries'.map Prod.snd) := by
  rw [List.forall₂_map_left_iff, List.forall₂_map_right_iff]
  exact h.imp fun _ _ hab => hab.2

/-- What is in an object has a partner in any object that is like it. -/
theorem Object.Alike.exists_partner {o p : Object} (h : o.Alike R linked p) (r : Ref)
    (hr : r ∈ o.refs) : ∃ q, R r q := by
  cases h with
  | error halike =>
    rw [Object.refs, List.mem_append] at hr
    rcases hr with hr | hr
    · exact exists_partner_of_forall₂ halike.arguments hr
    · exact exists_partner_of_forall₂ (forall₂_values halike.attributes) hr
  | selector _ hfields => exact exists_partner_of_forall₂ (forall₂_values hfields) hr

/-- Partners, or none of either, are so along any relation that relates more. -/
theorem optionRel_mono (hsub : ∀ a b, R a b → Q a b) {a b : Option Ref} (h : Option.Rel R a b) :
    Option.Rel Q a b := by
  cases h with
  | none => exact .none
  | some hr => exact .some (hsub _ _ hr)

/-- Partners, or none of either, are so the other way round. -/
theorem optionRel_symm {a b : Option Ref} (h : Option.Rel R a b) : Option.Rel (flip R) b a := by
  cases h with
  | none => exact .none
  | some hr => exact .some hr

/-- Partners of partners, or none of either, are partners along both relations. -/
theorem optionRel_comp {a b c : Option Ref} (h : Option.Rel R a b) (h' : Option.Rel Q b c) :
    Option.Rel (Relation.Comp R Q) a c := by
  cases h with
  | none =>
    cases h'
    exact .none
  | some hr =>
    cases h' with
    | some hq => exact .some ⟨_, hr, hq⟩

/-- Objects that are alike along a relation are so along any that relates more. -/
theorem Object.Alike.mono (hsub : ∀ a b, R a b → Q a b) {o p : Object} (h : o.Alike R linked p) :
    o.Alike Q linked p := by
  cases h with
  | error halike =>
    refine .error ⟨halike.kind, forall₂_alike_mono hsub halike.arguments,
      halike.attributes.imp fun _ _ hab => ⟨hab.1, hab.2.mono hsub⟩, fun hlinked => ?_⟩
    exact optionRel_mono hsub (halike.chained hlinked)
  | selector hsame hfields =>
    exact .selector hsame (hfields.imp fun _ _ hab => ⟨hab.1, hab.2.mono hsub⟩)

/-- Objects that are alike along a relation are alike the other way round. -/
theorem Object.Alike.symm {o p : Object} (h : o.Alike R linked p) :
    p.Alike (flip R) linked o := by
  cases h with
  | error halike =>
    exact .error ⟨halike.kind.symm, forall₂_alike_symm halike.arguments,
      forall₂_entryAlike_symm halike.attributes, fun hlinked =>
        optionRel_symm (halike.chained (halike.kind ▸ hlinked))⟩
  | selector hsame hfields => exact .selector hsame.symm (forall₂_entryAlike_symm hfields)

/-- Objects that are alike along one relation and then along another are so along both. -/
theorem Object.Alike.comp {o p q : Object} (h : o.Alike R linked p) (h' : p.Alike Q linked q) :
    o.Alike (Relation.Comp R Q) linked q := by
  cases h with
  | error halike =>
    cases h' with
    | error halike' =>
      refine .error ⟨halike.kind.trans halike'.kind,
        forall₂_alike_comp halike.arguments halike'.arguments,
        forall₂_entryAlike_comp halike.attributes halike'.attributes, fun hlinked => ?_⟩
      exact optionRel_comp (halike.chained hlinked) (halike'.chained (halike.kind ▸ hlinked))
  | selector hsame hfields =>
    cases h' with
    | selector hsame' hfields' =>
      exact .selector (hsame.trans hsame') (forall₂_entryAlike_comp hfields hfields')

/-! ### Stores -/

namespace Store

variable {s t u : Store}

/-- What a reference to an error leads to. -/
theorem error?_object_eq_some_iff {r q : Ref} {error : ErrorObject} :
    s.error? (.object r) = some (q, error) ↔ q = r ∧ s.get? r = some (.error error) := by
  unfold error?
  dsimp only
  constructor
  · intro h
    split at h
    · next hget =>
      cases h
      exact ⟨rfl, hget⟩
    · cases h
  · rintro ⟨rfl, hget⟩
    rw [hget]

/-- An object that was just added. -/
theorem get?_add (s : Store) (o : Object) : (s.add o).2.get? s.size = some o := by
  simp [add, get?, size]

/-- **A store mirrors itself.** -/
theorem mirrors_self (s : Store) : s.Mirrors s Eq fun _ => True where
  unique := ⟨fun _ _ _ h h' => h.trans h'.symm, fun _ _ _ h h' => h.symm.trans h'⟩
  alike := by
    rintro a _ rfl
    cases s.get? a with
    | none => exact .none
    | some o => exact .some (.of_refs (fun _ _ => rfl) fun _ _ _ _ => rfl)
  shown := fun _ _ _ => ⟨fun _ => trivial, fun _ _ _ => trivial⟩

namespace Mirrors

/-- A partner of an error is an error that is like it. -/
theorem exists_error (m : s.Mirrors t R linked) {a b : Ref} (hr : R a b) {error : ErrorObject}
    (hs : s.get? a = some (.error error)) :
    ∃ error', t.get? b = some (.error error') ∧ error.Alike R linked error' := by
  have hobjects := m.alike hr
  rw [hs] at hobjects
  generalize t.get? b = found at hobjects ⊢
  cases hobjects with
  | some hobject =>
    cases hobject with
    | error halike => exact ⟨_, rfl, halike⟩

/-- **Stores mirror each other.** -/
theorem symm (m : s.Mirrors t R linked) : t.Mirrors s (flip R) linked where
  unique := ⟨fun _ _ _ h h' => m.unique.2 h h', fun _ _ _ h h' => m.unique.1 h h'⟩
  alike := by
    intro b a hr
    have hobjects := m.alike hr
    generalize s.get? a = o at hobjects ⊢
    generalize t.get? b = p at hobjects ⊢
    cases hobjects with
    | none => exact .none
    | some h => exact .some h.symm
  shown := by
    intro b a error' e v hr ht hkind
    have hobjects := m.alike hr
    rw [ht] at hobjects
    generalize hs : s.get? a = o at hobjects
    cases hobjects with
    | some hobject =>
      cases hobject with
      | error halike =>
        have hshown := m.shown hr hs (halike.kind.trans hkind)
        rwa [halike.kind] at hshown

/-- **A store mirrors what is mirrored by one that it mirrors.** -/
theorem comp (m : s.Mirrors t R linked) (m' : t.Mirrors u Q linked) :
    s.Mirrors u (Relation.Comp R Q) linked where
  unique := by
    constructor
    · rintro a c b ⟨d, had, hdb⟩ ⟨d', hcd, hdb'⟩
      obtain rfl := m'.unique.1 hdb hdb'
      exact m.unique.1 had hcd
    · rintro a b c ⟨d, had, hdb⟩ ⟨d', had', hdc⟩
      obtain rfl := m.unique.2 had had'
      exact m'.unique.2 hdb hdc
  alike := by
    rintro a c ⟨b, hab, hbc⟩
    have hobjects := m.alike hab
    have hobjects' := m'.alike hbc
    generalize s.get? a = o at hobjects ⊢
    generalize t.get? b = p at hobjects hobjects'
    generalize u.get? c = q at hobjects' ⊢
    cases hobjects with
    | none =>
      cases hobjects'
      exact .none
    | some h =>
      cases hobjects' with
      | some h' => exact .some (h.comp h')
  shown := by
    rintro a c error e v ⟨b, hab, -⟩ hs hkind
    exact m.shown hab hs hkind

/-! ### What partners have in common -/

section

variable (m : s.Mirrors t R linked)

include m

/-- Values that are alike are alike errors, or both are none. -/
theorem error?_alike {v w : Value} (hv : v.Alike R w) :
    Option.Rel (fun a b => v = .object a.1 ∧ w = .object b.1 ∧ R a.1 b.1 ∧ a.2.Alike R linked b.2 ∧
      s.get? a.1 = some (.error a.2)) (s.error? v) (t.error? w) := by
  cases hv with
  | @object a b hr =>
    have hobjects := m.alike hr
    unfold Store.error?
    dsimp only
    cases hs : s.get? a with
    | none =>
      rw [hs] at hobjects
      generalize t.get? b = found at hobjects ⊢
      cases hobjects
      exact .none
    | some object =>
      rw [hs] at hobjects
      generalize t.get? b = found at hobjects ⊢
      cases hobjects with
      | some hobject =>
        cases hobject with
        | error herror => exact .some ⟨rfl, rfl, hr, herror, hs⟩
        | selector => exact .none
  | list => exact .none
  | plain hobject =>
    cases v with
    | object r => exact absurd rfl (hobject r)
    | _ => exact .none

/-- Partners are objects of their stores, or neither is. -/
theorem lt_size_iff {a b : Ref} (hr : R a b) : a < s.size ↔ b < t.size := by
  have hobjects := m.alike hr
  have hs : a < s.size ↔ (s.get? a).isSome := by simp [Store.size, Store.get?]
  have ht : b < t.size ↔ (t.get? b).isSome := by simp [Store.size, Store.get?]
  rw [hs, ht]
  generalize s.get? a = o at hobjects
  generalize t.get? b = o' at hobjects
  cases hobjects <;> rfl

/-- An object was seen exactly if its partner was. -/
theorem mem_iff {seen seen' : List Ref} (hseen : List.Forall₂ R seen seen') {a b : Ref}
    (hr : R a b) : a ∈ seen ↔ b ∈ seen' := by
  induction hseen with
  | nil => simp
  | cons hfirst _ ih =>
    rw [List.mem_cons, List.mem_cons, ih]
    refine or_congr_left ?_
    constructor
    · rintro rfl
      exact m.unique.2 hr hfirst
    · rintro rfl
      exact m.unique.1 hr hfirst

end

end Mirrors

end Store

end Errata.Error
