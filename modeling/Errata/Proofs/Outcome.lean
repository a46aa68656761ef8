import Mathlib.Data.List.Forall2

/-!
# Computations that may fail

What a successful computation says about its steps. A step that fails makes the whole fail, so a
result of a sequence of steps is a result of each of them.

* `bind_eq_ok_iff`, `map_eq_ok_iff`: **a result of two steps** is a result of the second on a result
  of the first.
* `run_bind`: the same where the steps share a state.
* `mapM_eq_ok_iff`: **the results of a computation on every entry of a list** are its results on
  the entries, in order.
* `flatMap_of_mapM`: what is gathered from the results is gathered from the entries.
* `mapM_eq_error_iff`: it fails on the first entry on which it has no result.
* `of_foldlM`: what each step of a run preserves holds of its result.
* `Le`: whether a computation has every result of another one.
* `Follows`: whether each result of a computation has a counterpart among those of another one;
  **`Follows.bind`**, `Follows.mapM`: steps that do make a whole that does.
-/

namespace Errata.Outcome

variable {α β ε ε' σ : Type}

/-! ### Two steps -/

/-- A result of two steps. -/
theorem bind_eq_ok_iff {x : Except ε α} {f : α → Except ε β} {b : β} :
    x.bind f = .ok b ↔ ∃ a, x = .ok a ∧ f a = .ok b := by
  cases x <;> simp [Except.bind]

/-- A result of a computation that is changed afterwards. -/
theorem map_eq_ok_iff {x : Except ε α} {f : α → β} {b : β} :
    x.map f = .ok b ↔ ∃ a, x = .ok a ∧ f a = b := by
  cases x <;> simp [Except.map]

/-- The image of an outcome is a failure exactly if the outcome is that failure. -/
theorem map_eq_error_iff {x : Except ε α} {f : α → β} {e : ε} :
    x.map f = .error e ↔ x = .error e := by
  cases x <;> simp [Except.map]

/-- Handing on what a computation made does not change whether it has a result. -/
theorem exists_bind_pure_iff {x : Except ε α} {f : α → β} :
    (∃ b, (x >>= fun a => pure (f a)) = .ok b) ↔ ∃ a, x = .ok a := by
  cases x <;> simp [bind, Except.bind, pure, Except.pure]

/-- A result is kept where errors are changed. -/
@[simp] theorem mapError_ok (f : ε → ε') (a : α) :
    (Except.ok a : Except ε α).mapError f = .ok a := rfl

/-- An error is changed. -/
@[simp] theorem mapError_error (f : ε → ε') (e : ε) :
    (Except.error e : Except ε α).mapError f = .error (f e) := rfl

/-- A result is not lost where errors are changed, and none is made of an error. -/
theorem mapError_eq_ok_iff {x : Except ε α} {f : ε → ε'} {a : α} :
    x.mapError f = .ok a ↔ x = .ok a := by
  cases x <;> simp [Except.mapError]

/-- A result is what is left of a computation when errors are forgotten. -/
theorem toOption_eq_some_iff {x : Except ε α} {a : α} : x.toOption = some a ↔ x = .ok a := by
  cases x <;> simp [Except.toOption]

/-- Two steps that may fail and share a state, run one after the other. -/
theorem run_bind (x : ExceptT ε (StateM σ) α) (f : α → ExceptT ε (StateM σ) β) (s : σ) :
    (x >>= f).run.run s =
      match x.run.run s with
      | (.ok a, s') => (f a).run.run s'
      | (.error e, s') => (.error e, s') := by
  show (StateT.bind x (ExceptT.bindCont f)) s = _
  simp only [StateT.bind, ExceptT.run, StateT.run]
  rcases x s with ⟨e | a, s'⟩ <;> rfl

/-! ### Lists -/

/-- The results on the entries of a list, one entry more. -/
theorem mapM_cons_eq_ok_iff {f : α → Except ε β} {a : α} {as : List α} {bs : List β} :
    (a :: as).mapM f = .ok bs ↔
      ∃ b rest, f a = .ok b ∧ as.mapM f = .ok rest ∧ bs = b :: rest := by
  rw [List.mapM_cons]
  cases f a with
  | error e => simp [bind, Except.bind]
  | ok b =>
    cases as.mapM f with
    | error e => simp [bind, Except.bind]
    | ok rest => simp [bind, Except.bind, pure, Except.pure, eq_comm]

/-- The results on the entries of a list are those of the entries, in order. -/
theorem mapM_eq_ok_iff {f : α → Except ε β} {as : List α} {bs : List β} :
    as.mapM f = .ok bs ↔ List.Forall₂ (fun a b => f a = .ok b) as bs := by
  induction as generalizing bs with
  | nil => simp [pure, Except.pure, eq_comm]
  | cons a as ih =>
    rw [mapM_cons_eq_ok_iff]
    constructor
    · rintro ⟨b, rest, hb, hrest, rfl⟩
      exact .cons hb (ih.mp hrest)
    · intro h
      cases h with
      | cons hb hrest => exact ⟨_, _, hb, ih.mpr hrest, rfl⟩

/-- Results on the entries of a list that are changed one by one. -/
theorem mapM_bind_pure_eq_ok_iff {γ : Type} {f : α → Except ε β} {g : β → γ} {as : List α}
    {cs : List γ} :
    (as.mapM fun a => f a >>= fun b => pure (g b)) = .ok cs ↔
      ∃ bs, as.mapM f = .ok bs ∧ cs = bs.map g := by
  induction as generalizing cs with
  | nil => simp [pure, Except.pure, eq_comm]
  | cons a as ih =>
    rw [mapM_cons_eq_ok_iff]
    constructor
    · rintro ⟨c, rest, hc, hrest, rfl⟩
      obtain ⟨b, hb, hc⟩ := bind_eq_ok_iff.mp hc
      obtain ⟨bs, hbs, rfl⟩ := ih.mp hrest
      cases hc
      exact ⟨b :: bs, mapM_cons_eq_ok_iff.mpr ⟨b, bs, hb, hbs, rfl⟩, rfl⟩
    · rintro ⟨bs, hbs, rfl⟩
      obtain ⟨b, rest, hb, hrest, rfl⟩ := mapM_cons_eq_ok_iff.mp hbs
      exact ⟨g b, rest.map g, bind_eq_ok_iff.mpr ⟨b, hb, rfl⟩, ih.mpr ⟨rest, hrest, rfl⟩, rfl⟩

/-- A result on an entry of a list is the result on some entry. -/
theorem exists_of_mem_mapM {f : α → Except ε β} {as : List α} {bs : List β}
    (h : as.mapM f = .ok bs) {b : β} (hb : b ∈ bs) : ∃ a ∈ as, f a = .ok b := by
  rw [mapM_eq_ok_iff] at h
  induction h with
  | nil => exact absurd hb List.not_mem_nil
  | cons hfirst _ ih =>
    rcases List.mem_cons.mp hb with rfl | hb
    · exact ⟨_, List.mem_cons_self, hfirst⟩
    · obtain ⟨a, ha, hf⟩ := ih hb
      exact ⟨a, List.mem_cons_of_mem _ ha, hf⟩

/-- The result on an entry of a list is one of the results. -/
theorem exists_mem_of_mapM {f : α → Except ε β} {as : List α} {bs : List β}
    (h : as.mapM f = .ok bs) {a : α} (ha : a ∈ as) : ∃ b ∈ bs, f a = .ok b := by
  rw [mapM_eq_ok_iff] at h
  induction h with
  | nil => cases ha
  | @cons first b as bs hfirst hrest ih =>
    rcases List.mem_cons.mp ha with rfl | ha
    · exact ⟨b, List.mem_cons_self, hfirst⟩
    · obtain ⟨b', hb', hmade⟩ := ih ha
      exact ⟨b', List.mem_cons_of_mem _ hb', hmade⟩

/-- The results on the entries of a list are those on some entry. -/
theorem mem_of_mapM_iff {f : α → Except ε β} {as : List α} {bs : List β}
    (h : as.mapM f = .ok bs) {b : β} : b ∈ bs ↔ ∃ a ∈ as, f a = .ok b := by
  constructor
  · exact exists_of_mem_mapM h
  · rintro ⟨a, ha, hb⟩
    obtain ⟨b', hmem, hb'⟩ := exists_mem_of_mapM h ha
    rw [hb] at hb'
    cases hb'
    exact hmem

/-- What is gathered from the results on the entries of a list is gathered from the entries, if that
holds of each of them. -/
theorem flatMap_of_mapM {γ : Type} {f : α → Except ε β} {as : List α} {bs : List β}
    (h : as.mapM f = .ok bs) {g : β → List γ} {k : α → List γ}
    (hg : ∀ a ∈ as, ∀ b, f a = .ok b → g b = k a) : bs.flatMap g = as.flatMap k := by
  rw [mapM_eq_ok_iff] at h
  induction h with
  | nil => rfl
  | cons hfirst _ ih =>
    rw [List.flatMap_cons, List.flatMap_cons, hg _ List.mem_cons_self _ hfirst,
      ih fun a ha => hg a (List.mem_cons_of_mem _ ha)]

/-- What holds of one of the results on the entries of a list holds of one of the entries, if the
one says of each entry what the other says of its result. -/
theorem exists_mem_iff_of_mapM {f : α → Except ε β} {as : List α} {bs : List β} {P : β → Prop}
    {Q : α → Prop} (h : as.mapM f = .ok bs) (hone : ∀ a ∈ as, ∀ b, f a = .ok b → (P b ↔ Q a)) :
    (∃ b ∈ bs, P b) ↔ ∃ a ∈ as, Q a := by
  rw [mapM_eq_ok_iff] at h
  induction h with
  | nil => simp
  | cons hfirst _ ih =>
    rw [List.forall_mem_cons] at hone
    rw [List.exists_mem_cons_iff, List.exists_mem_cons_iff, hone.1 _ hfirst, ih hone.2]

/-- A computation on every entry of a list has a result exactly if it has one on each. -/
theorem exists_mapM_iff {f : α → Except ε β} {as : List α} :
    (∃ bs, as.mapM f = .ok bs) ↔ ∀ a ∈ as, ∃ b, f a = .ok b := by
  induction as with
  | nil => exact ⟨fun _ _ hm => absurd hm List.not_mem_nil, fun _ => ⟨[], rfl⟩⟩
  | cons a as ih =>
    rw [List.forall_mem_cons, ← ih]
    constructor
    · rintro ⟨bs, hbs⟩
      obtain ⟨b, rest, hb, hrest, -⟩ := mapM_cons_eq_ok_iff.mp hbs
      exact ⟨⟨b, hb⟩, rest, hrest⟩
    · rintro ⟨⟨b, hb⟩, rest, hrest⟩
      exact ⟨b :: rest, mapM_cons_eq_ok_iff.mpr ⟨b, rest, hb, hrest, rfl⟩⟩

/-- The first entry of a list on which a computation fails. -/
theorem mapM_eq_error_iff {f : α → Except ε β} {as : List α} {e : ε} :
    as.mapM f = .error e ↔
      ∃ before a after, as = before ++ a :: after ∧ (∀ b ∈ before, ∃ r, f b = .ok r) ∧
        f a = .error e := by
  induction as with
  | nil => simp [pure, Except.pure]
  | cons first rest ih =>
    rw [List.mapM_cons]
    constructor
    · intro h
      cases hfirst : f first with
      | error e' =>
        rw [hfirst] at h
        cases h
        exact ⟨[], first, rest, rfl, by simp, hfirst⟩
      | ok r =>
        rw [hfirst] at h
        cases hrest : rest.mapM f with
        | error e' =>
          rw [hrest] at h
          cases h
          obtain ⟨before, a, after, rfl, hbefore, ha⟩ := ih.mp hrest
          exact ⟨first :: before, a, after, rfl, by simpa using ⟨⟨r, hfirst⟩, hbefore⟩, ha⟩
        | ok rs =>
          rw [hrest] at h
          cases h
    · rintro ⟨before, a, after, heq, hbefore, ha⟩
      cases before with
      | nil =>
        obtain ⟨rfl, rfl⟩ := List.cons.inj heq
        rw [ha]
        rfl
      | cons b before =>
        obtain ⟨rfl, rfl⟩ := List.cons.inj heq
        rw [List.forall_mem_cons] at hbefore
        obtain ⟨⟨r, hr⟩, hbefore⟩ := hbefore
        have hrest := ih.mpr ⟨before, a, after, rfl, hbefore, ha⟩
        rw [List.append_eq] at hrest
        rw [hr]
        show (List.mapM f (before ++ a :: after) >>= fun rest => pure (r :: rest)) = _
        rw [hrest]
        rfl

/-- What every step of a run through a list preserves holds of its result. -/
theorem of_foldlM {f : β → α → Except ε β} {P : β → Prop} {as : List α}
    (hstep : ∀ a ∈ as, ∀ b b', P b → f b a = .ok b' → P b') {b b' : β} (hb : P b)
    (h : as.foldlM f b = .ok b') : P b' := by
  induction as generalizing b with
  | nil =>
    cases h
    exact hb
  | cons a as ih =>
    rw [List.foldlM_cons] at h
    obtain ⟨c, hc, h⟩ := bind_eq_ok_iff.mp h
    rw [List.forall_mem_cons] at hstep
    exact ih hstep.2 (hstep.1 b c hb hc) h

/-! ### Computations with more results -/

/-- Whether every result of a computation is one of another. -/
def Le (x y : Except ε α) : Prop :=
  ∀ a, x = .ok a → y = .ok a

/-- A failure has no results to be had. -/
theorem Le.of_error (e : ε) (x : Except ε α) : Le (.error e) x :=
  nofun

/-! ### Computations with related results -/

/-- Whether every result of a computation is related to one of another. -/
def Follows (P : α → β → Prop) (x : Except ε α) (y : Except ε β) : Prop :=
  ∀ a, x = .ok a → ∃ b, y = .ok b ∧ P a b

/-- A computation has every result of another exactly if the results follow as they are. -/
theorem follows_eq_iff {x y : Except ε α} : Follows Eq x y ↔ Le x y := by
  refine forall₂_congr fun a _ => ?_
  constructor
  · rintro ⟨b, hb, rfl⟩
    exact hb
  · exact fun h => ⟨a, h, rfl⟩

namespace Follows

variable {α' β' : Type} {P : α → α' → Prop} {Q : β → β' → Prop}

/-- Related results follow from each other. -/
theorem of_ok {a : α} {a' : α'} (h : P a a') : Follows P (.ok a : Except ε α) (.ok a') := by
  rintro _ ⟨⟩
  exact ⟨a', rfl, h⟩

/-- The results of a computation follow from themselves. -/
theorem refl (x : Except ε α) : Follows Eq x x :=
  fun a h => ⟨a, h, rfl⟩

/-- A failure has no results that would have to follow. -/
theorem of_error (e : ε) (y : Except ε α') : Follows P (.error e) y :=
  nofun

/-- The results of two steps follow if those of each step do. -/
theorem bind {x : Except ε α} {y : Except ε α'} {f : α → Except ε β} {g : α' → Except ε β'}
    (h : Follows P x y) (hf : ∀ a a', P a a' → Follows Q (f a) (g a')) :
    Follows Q (x >>= f) (y >>= g) := by
  intro b hb
  obtain ⟨a, ha, hb⟩ := bind_eq_ok_iff.mp hb
  obtain ⟨a', ha', hrelated⟩ := h a ha
  obtain ⟨b', hb', hresult⟩ := hf a a' hrelated b hb
  exact ⟨b', bind_eq_ok_iff.mpr ⟨a', ha', hb'⟩, hresult⟩

/-- The results of two steps follow if those of the first do, and those of the second on results of
the first. -/
theorem bind_of_eq {x : Except ε α} {y : Except ε α'} {f : α → Except ε β}
    {g : α' → Except ε β'} (h : Follows P x y)
    (hf : ∀ a a', x = .ok a → y = .ok a' → P a a' → Follows Q (f a) (g a')) :
    Follows Q (x >>= f) (y >>= g) := by
  intro b hb
  obtain ⟨a, ha, hb⟩ := bind_eq_ok_iff.mp hb
  obtain ⟨a', ha', hrelated⟩ := h a ha
  obtain ⟨b', hb', hresult⟩ := hf a a' ha ha' hrelated b hb
  exact ⟨b', bind_eq_ok_iff.mpr ⟨a', ha', hb'⟩, hresult⟩

/-- Results follow if both computations have related results or none. -/
theorem of_toOption {x : Except ε α} {y : Except ε α'}
    (h : Option.Rel P x.toOption y.toOption) : Follows P x y := by
  rintro a rfl
  cases y with
  | ok b =>
    cases h with
    | some hab => exact ⟨b, rfl, hab⟩
  | error e => cases h

/-- Results that follow still do after they were changed. -/
theorem map {x : Except ε α} {y : Except ε α'} {f : α → β} {g : α' → β'} (h : Follows P x y)
    (hf : ∀ a a', P a a' → Q (f a) (g a')) : Follows Q (x.map f) (y.map g) := by
  intro b hb
  obtain ⟨a, ha, rfl⟩ := map_eq_ok_iff.mp hb
  obtain ⟨a', ha', hrelated⟩ := h a ha
  exact ⟨g a', map_eq_ok_iff.mpr ⟨a', ha', rfl⟩, hf a a' hrelated⟩

/-- Results follow whatever is made of failures. -/
theorem mapError {x : Except ε α} {y : Except ε α'} (h : Follows P x y) {f g : ε → ε'} :
    Follows P (x.mapError f) (y.mapError g) := by
  intro a ha
  obtain ⟨b, hb, hab⟩ := h a (mapError_eq_ok_iff.mp ha)
  exact ⟨b, mapError_eq_ok_iff.mpr hb, hab⟩

/-- The results on the entries of a list follow if they do on each. -/
theorem mapM {f : α → Except ε β} {g : α' → Except ε β'} {as : List α} {as' : List α'}
    (h : List.Forall₂ P as as') (hf : ∀ a a', P a a' → Follows Q (f a) (g a')) :
    Follows (List.Forall₂ Q) (as.mapM f) (as'.mapM g) := by
  induction h with
  | nil => exact of_ok .nil
  | cons hfirst _ ih =>
    rw [List.mapM_cons, List.mapM_cons]
    refine (hf _ _ hfirst).bind fun b b' hb => ih.bind fun bs bs' hbs => ?_
    exact of_ok (.cons hb hbs)

end Follows

end Errata.Outcome
