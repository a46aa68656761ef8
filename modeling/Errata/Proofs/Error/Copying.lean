import Errata.Error.Copy
import Errata.Proofs.Error.Alike

/-!
# Copies are alike

A copy of an error has copies of all objects in it, of each object one. Apart from what errors are
chained to, which is not copied, a store with copies mirrors itself: the copied objects are the
partners of their copies. Copies are only ever added behind the objects that are there, and an
object is copied after those in it, so none of the copied objects holds itself.

* `Store.Holds`, `Store.IsClosed`: which objects are in others, and stores without dangling
  references.
* `Store.unchained`: a store in which no error is chained to another.
* `Copying.IsSound`, `Copying.Grows`: what is kept while copies are made.
* `Copying.IsSound.not_holds_self`: no copied object holds itself.
* `isCopier_copyObject`: **each step of copying keeps it**.
* **`Store.mirrors_of_copy`**: what the copy of an error is.
-/

namespace Errata.Error

open Relation (ReflTransGen TransGen)

/-! ### Stores without chains -/

/-- An object that is chained to none. -/
def Object.unchained : Object → Object
  | .error e => .error { e with chained := none }
  | .selector x => .selector x

/-- The objects in an object do not depend on what it is chained to. -/
@[simp] theorem Object.refs_unchained (o : Object) : o.unchained.refs = o.refs := by
  cases o <;> rfl

/-- What is like an object that is chained to none is chained to none as well. -/
theorem Object.Alike.chained_eq_none {R : Ref → Ref → Prop} {o : Object} {e : ErrorObject}
    (h : o.unchained.Alike R (fun _ => True) (.error e)) : e.chained = none := by
  cases o with
  | error f =>
    cases h with
    | error halike =>
      have hchained := halike.chained trivial
      generalize e.chained = c at hchained ⊢
      cases hchained
      rfl
  | selector => cases h

namespace Store

/-- A store in which no error is chained to another one. -/
def unchained (s : Store) : Store :=
  ⟨s.objects.map Object.unchained⟩

/-- What errors are chained to does not change their number. -/
@[simp] theorem size_unchained (s : Store) : s.unchained.size = s.size := by
  simp [unchained, size]

/-- The objects of a store without chains. -/
@[simp] theorem get?_unchained (s : Store) (r : Ref) :
    s.unchained.get? r = (s.get? r).map Object.unchained := by
  simp [unchained, get?]

/-! ### Objects in objects -/

/-- Whether an object holds another one. -/
def Holds (s : Store) (a b : Ref) : Prop :=
  ∃ o, s.get? a = some o ∧ b ∈ o.refs

/-- Whether all references in a store are to its objects. -/
structure IsClosed (s : Store) : Prop where
  /-- The objects in objects are objects of the store. -/
  refs : ∀ {r o}, s.get? r = some o → ∀ q ∈ o.refs, q < s.size
  /-- So are those that errors are chained to. -/
  chained : ∀ {r e}, s.get? r = some (.error e) → ∀ q ∈ e.chained, q < s.size

/-- Whether a store goes on as another one: objects are added behind its own, and no reference
dangles if none did before. -/
structure Grows (s t : Store) : Prop where
  /-- Its objects are left as they are. -/
  kept : s.objects <+: t.objects
  /-- All references are to objects, if they were. -/
  closed : s.IsClosed → t.IsClosed

/-- A store that does not change. -/
theorem Grows.refl (s : Store) : s.Grows s :=
  ⟨List.prefix_rfl, id⟩

/-- A store that goes on twice. -/
theorem Grows.trans {s t u : Store} (h : s.Grows t) (h' : t.Grows u) : s.Grows u :=
  ⟨h.kept.trans h'.kept, fun hs => h'.closed (h.closed hs)⟩

/-- What stands in a store stands in any that only has more objects. -/
theorem get?_of_kept {s t : Store} (h : s.objects <+: t.objects) {r : Ref} {o : Object}
    (ho : s.get? r = some o) : t.get? r = some o := by
  obtain ⟨more, hmore⟩ := h
  rw [get?, ← hmore, List.getElem?_append_left (List.getElem?_eq_some_iff.mp ho).1]
  exact ho

end Store

/-! ### Copies that were made -/

namespace Copying

variable {s : Store} {c d : Copying} {P Q : Ref → Prop}

/-- Whether an object was copied to another one. -/
def Pairs (c : Copying) (a b : Ref) : Prop :=
  (a, b) ∈ c.copies

/-- What is true while copies of objects of a store are made. -/
structure IsSound (s : Store) (c : Copying) : Prop where
  /-- The objects of the store are left as they are. -/
  kept : s.objects <+: c.store.objects
  /-- Of each object there is one copy, and each copy is of one object. -/
  unique : Relator.BiUnique c.Pairs
  /-- Copied objects are objects of the store, and copies are objects. -/
  bound : ∀ {a b}, c.Pairs a b → a < s.size ∧ b < c.store.size
  /-- All new objects are copies. -/
  copied : ∀ {b}, s.size ≤ b → b < c.store.size → ∃ a, c.Pairs a b
  /-- A copy is like its object, but chained to none. What is in it was copied before. -/
  alike : ∀ {a b}, c.Pairs a b → Option.Rel
    (Object.Alike (fun p q => c.Pairs p q ∧ q < b) fun _ => True)
    (s.unchained.get? a) (c.store.get? b)

/-- How copying goes on, where the objects with a property and all objects in them may be copied. -/
structure Grows (s : Store) (P : Ref → Prop) (c d : Copying) : Prop where
  /-- What is true while copies are made still is. -/
  sound : d.IsSound s
  /-- The objects made so far are left as they are. -/
  kept : c.store.objects <+: d.store.objects
  /-- The copies made so far are known. -/
  pairs : ∀ {a b}, c.Pairs a b → d.Pairs a b
  /-- No other objects were copied. -/
  fresh : ∀ {a b}, d.Pairs a b → c.Pairs a b ∨ ∃ r, P r ∧ ReflTransGen s.Holds r a

/-- Copying that does nothing. -/
theorem Grows.refl (h : c.IsSound s) : c.Grows s P c :=
  ⟨h, List.prefix_rfl, id, Or.inl⟩

/-- Copying that goes on twice. -/
theorem Grows.trans {e : Copying} (h : c.Grows s P d) (h' : d.Grows s Q e) :
    c.Grows s (fun r => P r ∨ Q r) e where
  sound := h'.sound
  kept := h.kept.trans h'.kept
  pairs := fun hab => h'.pairs (h.pairs hab)
  fresh := by
    intro a b hab
    rcases h'.fresh hab with hab | ⟨r, hr, hreach⟩
    · exact (h.fresh hab).imp_right fun ⟨r, hr, hreach⟩ => ⟨r, .inl hr, hreach⟩
    · exact .inr ⟨r, .inr hr, hreach⟩

/-- Copying that may copy more objects. -/
theorem Grows.mono (h : c.Grows s P d) (hsub : ∀ r, P r → Q r) : c.Grows s Q d :=
  { h with
    fresh := fun hab => (h.fresh hab).imp_right fun ⟨r, hr, hreach⟩ => ⟨r, hsub r hr, hreach⟩ }

/-- What is in a copied object was copied before. -/
theorem IsSound.exists_before (h : c.IsSound s) {a a' b : Ref} (hab : c.Pairs a b)
    (hholds : s.Holds a a') : ∃ b', b' < b ∧ c.Pairs a' b' := by
  obtain ⟨o, ho, hmem⟩ := hholds
  have hobjects := h.alike hab
  rw [Store.get?_unchained, ho] at hobjects
  generalize c.store.get? b = p at hobjects
  cases hobjects with
  | some halike =>
    obtain ⟨b', hpair, hlt⟩ := halike.exists_partner a' (o.refs_unchained.symm ▸ hmem)
    exact ⟨b', hlt, hpair⟩

/-- **No copied object holds itself**, directly or through others: its copy would have been made
before itself. -/
theorem IsSound.not_holds_self (h : c.IsSound s) {a b : Ref} (hab : c.Pairs a b) :
    ¬TransGen s.Holds a a := by
  have hbefore : ∀ {a' : Ref}, TransGen s.Holds a a' → ∀ {b : Ref}, c.Pairs a b →
      ∃ b', b' < b ∧ c.Pairs a' b' := by
    intro a' hreach
    induction hreach with
    | single hholds => exact fun hab => h.exists_before hab hholds
    | tail _ hholds ih =>
      intro b hab
      obtain ⟨b', hlt, hab'⟩ := ih hab
      obtain ⟨b'', hlt', hab''⟩ := h.exists_before hab' hholds
      exact ⟨b'', Nat.lt_trans hlt' hlt, hab''⟩
  intro hself
  induction b using Nat.strongRecOn with
  | ind b ih =>
    obtain ⟨b', hlt, hab'⟩ := hbefore hself hab
    exact ih b' hlt hab'

/-! ### Steps of copying -/

/-- Whether a way of copying objects copies those of a store. -/
def IsCopier (s : Store) (copy : Copying → Ref → Except Failure (Ref × Copying)) : Prop :=
  ∀ {c : Copying} {r copied : Ref} {d : Copying}, c.IsSound s → r < s.size →
    copy c r = .ok (copied, d) → d.Pairs r copied ∧ c.Grows s (· = r) d

variable {copy : Copying → Ref → Except Failure (Ref × Copying)}

mutual

/-- The copy of a value is like it. -/
theorem alike_of_copyValue (hcopy : IsCopier s copy) {c d : Copying} (hc : c.IsSound s)
    {v copied : Value}
    (hv : ∀ r ∈ v.refs, r < s.size) (h : copyValue copy c v = .ok (copied, d)) :
    v.Alike d.Pairs copied ∧ c.Grows s (· ∈ v.refs) d := by
  cases v with
  | object r =>
    rw [copyValue] at h
    obtain ⟨⟨q, e⟩, hq, h⟩ := Outcome.bind_eq_ok_iff.mp h
    cases h
    obtain ⟨hpair, hgrows⟩ := hcopy hc (hv r (by simp [Value.refs])) hq
    exact ⟨.object hpair, hgrows.mono fun _ heq => by simp [Value.refs, heq]⟩
  | list vs =>
    rw [copyValue] at h
    obtain ⟨⟨ws, e⟩, hws, h⟩ := Outcome.bind_eq_ok_iff.mp h
    cases h
    rw [Value.refs] at hv ⊢
    obtain ⟨halike, hgrows⟩ := alike_of_copyValues hcopy hc hv hws
    exact ⟨.list halike, hgrows⟩
  | _ =>
    simp only [copyValue, Except.ok.injEq, Prod.mk.injEq] at h
    obtain ⟨rfl, rfl⟩ := h
    exact ⟨.plain nofun nofun, Grows.refl hc⟩

/-- The copies of values are like them. -/
theorem alike_of_copyValues (hcopy : IsCopier s copy) {c d : Copying} (hc : c.IsSound s)
    {vs copied : List Value} (hvs : ∀ r ∈ Value.allRefs vs, r < s.size)
    (h : copyValues copy c vs = .ok (copied, d)) :
    List.Forall₂ (Value.Alike d.Pairs) vs copied ∧ c.Grows s (· ∈ Value.allRefs vs) d := by
  cases vs with
  | nil =>
    rw [copyValues] at h
    cases h
    exact ⟨.nil, Grows.refl hc⟩
  | cons v vs =>
    rw [copyValues] at h
    simp only [Value.allRefs, List.mem_append] at hvs ⊢
    obtain ⟨⟨w, e⟩, hw, h⟩ := Outcome.bind_eq_ok_iff.mp h
    obtain ⟨⟨ws, e'⟩, hws, h⟩ := Outcome.bind_eq_ok_iff.mp h
    cases h
    obtain ⟨halike, hgrows⟩ := alike_of_copyValue hcopy hc (fun r hr => hvs r (.inl hr)) hw
    obtain ⟨halikes, hgrows'⟩ :=
      alike_of_copyValues hcopy hgrows.sound (fun r hr => hvs r (.inr hr)) hws
    exact ⟨.cons (halike.mono fun _ _ => hgrows'.pairs) halikes, hgrows.trans hgrows'⟩

end

/-- The copies of entries are like them. -/
theorem alike_of_copyEntries (hcopy : IsCopier s copy) (hc : c.IsSound s)
    {entries copied : List (String × Value)}
    (hentries : ∀ r ∈ Value.allRefs (entries.map Prod.snd), r < s.size)
    (h : copyEntries copy c entries = .ok (copied, d)) :
    List.Forall₂ (EntryAlike d.Pairs) entries copied ∧
      c.Grows s (· ∈ Value.allRefs (entries.map Prod.snd)) d := by
  obtain ⟨⟨values, e⟩, hvalues, h⟩ := Outcome.bind_eq_ok_iff.mp h
  cases h
  obtain ⟨halike, hgrows⟩ := alike_of_copyValues hcopy hc hentries hvalues
  refine ⟨?_, hgrows⟩
  clear hvalues hentries hgrows h
  generalize hvs : entries.map Prod.snd = vs at halike
  induction halike generalizing entries with
  | nil =>
    obtain rfl := List.map_eq_nil_iff.mp hvs
    exact .nil
  | cons hfirst _ ih =>
    obtain ⟨entry, rest, rfl, rfl, hrest⟩ := List.map_eq_cons_iff.mp hvs
    exact .cons ⟨rfl, hfirst⟩ (ih hrest)

/-- Copying an object, once copies of all that is in it were made. -/
theorem grows_add {r : Ref} {o p : Object} (hc : ∀ q, ¬c.Pairs r q) (ho : s.get? r = some o)
    (hgrows : c.Grows s (· ∈ o.refs) d) (halike : o.unchained.Alike d.Pairs (fun _ => True) p) :
    c.Grows s (· = r)
      { store := (d.store.add p).2, copies := (r, d.store.size) :: d.copies } := by
  have hsound := hgrows.sound
  have hr : r < s.size := (List.getElem?_eq_some_iff.mp ho).1
  have hreach : ∀ {a b}, d.Pairs a b → c.Pairs a b ∨ TransGen s.Holds r a := by
    intro a b hab
    refine (hgrows.fresh hab).imp_right ?_
    rintro ⟨q, hq, hqa⟩
    exact .head' ⟨o, ho, hq⟩ hqa
  have hnew : ∀ q, ¬d.Pairs r q := by
    intro q hq
    rcases hreach hq with hq' | hself
    · exact hc q hq'
    · exact hsound.not_holds_self hq hself
  have hpairs : ∀ {a b}, Pairs { d with copies := (r, d.store.size) :: d.copies } a b ↔
      a = r ∧ b = d.store.size ∨ d.Pairs a b := by
    intro a b
    simp [Pairs]
  have hkept : d.store.objects <+: (d.store.add p).2.objects := ⟨[p], rfl⟩
  have hsize : (d.store.add p).2.size = d.store.size + 1 := by simp [Store.add, Store.size]
  constructor
  · constructor
    · exact hsound.kept.trans hkept
    · constructor
      · rintro a a' b hab hab'
        rcases hpairs.mp hab with ⟨ha, hb⟩ | hab <;> rcases hpairs.mp hab' with ⟨ha', hb'⟩ | hab'
        · exact ha.trans ha'.symm
        · exact absurd (hsound.bound hab').2 (by simp [hb])
        · exact absurd (hsound.bound hab).2 (by simp [hb'])
        · exact hsound.unique.1 hab hab'
      · rintro a b b' hab hab'
        rcases hpairs.mp hab with ⟨ha, hb⟩ | hab <;> rcases hpairs.mp hab' with ⟨ha', hb'⟩ | hab'
        · exact hb.trans hb'.symm
        · exact absurd (ha ▸ hab') (hnew b')
        · exact absurd (ha' ▸ hab) (hnew b)
        · exact hsound.unique.2 hab hab'
    · intro a b hab
      rw [hsize]
      rcases hpairs.mp hab with ⟨rfl, rfl⟩ | hab
      · exact ⟨hr, Nat.lt_succ_self _⟩
      · exact ⟨(hsound.bound hab).1, Nat.lt_succ_of_lt (hsound.bound hab).2⟩
    · intro b hold hb
      rw [hsize] at hb
      rcases Nat.lt_succ_iff_lt_or_eq.mp hb with hb | rfl
      · obtain ⟨a, hab⟩ := hsound.copied hold hb
        exact ⟨a, hpairs.mpr (.inr hab)⟩
      · exact ⟨r, hpairs.mpr (.inl ⟨rfl, rfl⟩)⟩
    · intro a b hab
      rcases hpairs.mp hab with ⟨rfl, rfl⟩ | hab
      · rw [Store.get?_unchained, ho, Store.get?_add]
        refine .some (halike.mono fun p q hpq => ⟨hpairs.mpr (.inr hpq), (hsound.bound hpq).2⟩)
      · have hobjects := hsound.alike hab
        have hat : (d.store.add p).2.get? b = d.store.get? b := by
          obtain ⟨-, hlt⟩ := hsound.bound hab
          exact List.getElem?_append_left hlt
        rw [hat]
        generalize s.unchained.get? a = o' at hobjects ⊢
        generalize d.store.get? b = p' at hobjects ⊢
        cases hobjects with
        | none => exact .none
        | some h => exact .some (h.mono fun p q hpq => ⟨hpairs.mpr (.inr hpq.1), hpq.2⟩)
  · exact hgrows.kept.trans hkept
  · exact fun hab => hpairs.mpr (.inr (hgrows.pairs hab))
  · intro a b hab
    rcases hpairs.mp hab with ⟨rfl, rfl⟩ | hab
    · exact .inr ⟨_, rfl, .refl⟩
    · exact (hreach hab).imp_right fun h => ⟨_, rfl, h.to_reflTransGen⟩

/-- **Each step of copying** copies an object with all in it. -/
theorem isCopier_copyObject (hs : s.IsClosed) (depth : Nat) : IsCopier s (copyObject depth) := by
  induction depth with
  | zero =>
    intro c r copied d hc hr h
    rw [copyObject] at h
    cases h
  | succ depth ih =>
    intro c r copied d hc hr h
    rw [copyObject] at h
    split at h
    · next q hq =>
      cases h
      exact ⟨mem_of_lookup hq, Grows.refl hc⟩
    · next hnone =>
      have hfirst : ∀ q, ¬c.Pairs r q := by
        intro q hq
        obtain ⟨found, hfound⟩ := exists_lookup_of_mem hq
        cases hnone.symm.trans hfound
      obtain ⟨o, ho⟩ : ∃ o, s.get? r = some o := ⟨_, List.getElem?_eq_getElem hr⟩
      rw [Store.get?_of_kept hc.kept ho] at h
      cases o with
      | error e =>
        dsimp only at h
        obtain ⟨⟨arguments, c'⟩, harguments, h⟩ := Outcome.bind_eq_ok_iff.mp h
        obtain ⟨⟨attributes, c''⟩, hattributes, h⟩ := Outcome.bind_eq_ok_iff.mp h
        cases h
        have hrefs := hs.refs ho
        simp only [Object.refs, List.mem_append] at hrefs
        obtain ⟨halike, hgrows⟩ :=
          alike_of_copyValues ih hc (fun q hq => hrefs q (.inl hq)) harguments
        obtain ⟨halike', hgrows'⟩ :=
          alike_of_copyEntries ih hgrows.sound (fun q hq => hrefs q (.inr hq)) hattributes
        refine ⟨List.mem_cons_self, grows_add hfirst ho ?_ ?_⟩
        · exact (hgrows.trans hgrows').mono fun q hq => List.mem_append.mpr hq
        · exact .error ⟨rfl, forall₂_alike_mono (fun _ _ => hgrows'.pairs) halike, halike',
            fun _ => .none⟩
      | selector x =>
        dsimp only at h
        obtain ⟨⟨fields, c'⟩, hfields, h⟩ := Outcome.bind_eq_ok_iff.mp h
        cases h
        obtain ⟨halike, hgrows⟩ := alike_of_copyEntries ih hc (hs.refs ho) hfields
        exact ⟨List.mem_cons_self, grows_add hfirst ho hgrows (.selector rfl halike)⟩

end Copying

/-! ### Copies -/

namespace Store

variable {s t : Store} {r q : Ref}

/-- Nothing was copied yet. -/
theorem isSound_start (s : Store) : Copying.IsSound s { store := s } where
  kept := List.prefix_rfl
  unique := ⟨nofun, nofun⟩
  bound := nofun
  copied := fun hold hb => absurd hb (Nat.not_lt.mpr hold)
  alike := nofun

/-- A copy is made by adding objects. -/
theorem grows_of_copy (hs : s.IsClosed) (hr : r < s.size) (h : s.copy r = .ok (q, t)) :
    s.Grows t := by
  obtain ⟨⟨copied, c⟩, hcopy, h⟩ := Outcome.bind_eq_ok_iff.mp h
  cases h
  have hsound := (Copying.isCopier_copyObject hs s.size (isSound_start s) hr hcopy).2.sound
  have hsize : s.size ≤ c.store.size := hsound.kept.length_le
  -- an object is an old one or the copy of one
  have hcases : ∀ {b p}, c.store.get? b = some p → s.get? b = some p ∨
      ∃ o : Object, o.unchained.Alike c.Pairs (fun _ => True) p := by
    intro b p hp
    rcases Nat.lt_or_ge b s.size with hb | hb
    · obtain ⟨o, ho⟩ : ∃ o, s.get? b = some o := ⟨_, List.getElem?_eq_getElem hb⟩
      rw [get?_of_kept hsound.kept ho] at hp
      exact .inl (hp ▸ ho)
    · obtain ⟨a, hab⟩ := hsound.copied hb (List.getElem?_eq_some_iff.mp hp).1
      have hobjects := hsound.alike hab
      rw [hp, get?_unchained] at hobjects
      generalize s.get? a = o at hobjects
      cases o with
      | none => cases hobjects
      | some o =>
        cases hobjects with
        | some halike => exact .inr ⟨o, halike.mono fun _ _ hpq => hpq.1⟩
  refine ⟨hsound.kept, fun _ => ⟨?_, ?_⟩⟩
  · intro b p hp q' hq'
    rcases hcases hp with hp | ⟨o, halike⟩
    · exact Nat.lt_of_lt_of_le (hs.refs hp q' hq') hsize
    · obtain ⟨a', hpair⟩ := halike.symm.exists_partner q' hq'
      exact (hsound.bound hpair).2
  · intro b e hp q' hq'
    rcases hcases hp with hp | ⟨o, halike⟩
    · exact Nat.lt_of_lt_of_le (hs.chained hp q' hq') hsize
    · rw [halike.chained_eq_none] at hq'
      cases hq'

/-- **The copy of an error**: apart from what errors are chained to, the store mirrors the new one,
where the error is the partner of its copy. -/
theorem mirrors_of_copy (hs : s.IsClosed) (hr : r < s.size) (h : s.copy r = .ok (q, t)) :
    ∃ R : Ref → Ref → Prop, R r q ∧ s.unchained.Mirrors t R fun _ => True := by
  obtain ⟨⟨copied, c⟩, hcopy, h⟩ := Outcome.bind_eq_ok_iff.mp h
  cases h
  obtain ⟨hpair, hgrows⟩ := Copying.isCopier_copyObject hs s.size (isSound_start s) hr hcopy
  have hsound := hgrows.sound
  refine ⟨c.Pairs, hpair, hsound.unique, ?_, ?_⟩
  · intro a b hab
    have hobjects := hsound.alike hab
    generalize s.unchained.get? a = o at hobjects ⊢
    generalize c.store.get? b = p at hobjects ⊢
    cases hobjects with
    | none => exact .none
    | some h => exact .some (h.mono fun _ _ hpq => hpq.1)
  · exact fun _ _ _ => ⟨fun _ => trivial, fun _ _ _ => trivial⟩

end Store

end Errata.Error
