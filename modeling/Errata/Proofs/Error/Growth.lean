import Errata.Proofs.Error.Copying
import Errata.Proofs.Error.Place

/-!
# Makings add to a store

However an error is made, the objects that are there stay as they are: at most a failure and an
error are added behind them, and only the new error is chained. None of the new objects refers to
anything that is not in the store.

* `Value.IsWithin`, `AreWithin`: values of which all objects are objects of a store.
* `Store.grows_add`, `Store.Grows.chain`: adding an object and chaining one that was added.
* `Store.grows_of_makeError`, `Store.grows_of_bind`, `Store.grows_turned`: what calls, selectors and
  blocks of code add.
* **`Making.grows`**: making an error adds objects, in whichever of the ways it is made.
-/

namespace Errata.Error

open Descriptor (Enumeration Field Variant)

/-! ### What makings add -/

/-- Whether all objects in a value are objects of a store. -/
def Value.IsWithin (s : Store) (v : Value) : Prop :=
  ∀ r ∈ v.refs, r < s.size

/-- Whether all objects in the values of entries are objects of a store. -/
def AreWithin (s : Store) (entries : List (String × Value)) : Prop :=
  ∀ entry ∈ entries, entry.2.IsWithin s

namespace Store

variable {s t : Store} {home : String} {stack : List Frame} {e : Enumeration} {v : Variant}
  {x : Selector} {r q : Ref}

/-- A value that is looked up is within the store if all values are. -/
theorem isWithin_lookup {entries : List (String × Value)} (h : AreWithin s entries)
    (name : String) : ((entries.lookup name).getD .none).IsWithin s := by
  cases hlookup : entries.lookup name with
  | none => simp [Value.IsWithin, Value.refs]
  | some value => exact h _ (mem_of_lookup hlookup)

/-- The objects in values of entries that are within the store are objects of the store. -/
theorem lt_size_of_areWithin {entries : List (String × Value)} (h : AreWithin s entries) {q : Ref}
    (hq : q ∈ Value.allRefs (entries.map Prod.snd)) : q < s.size := by
  obtain ⟨value, hvalue, hq⟩ := mem_allRefs_iff.mp hq
  obtain ⟨entry, hentry, rfl⟩ := List.mem_map.mp hvalue
  exact h entry hentry q hq

/-- What is held by an object of a store without dangling references is within the store. -/
theorem IsClosed.areWithin (hs : s.IsClosed) (hx : s.get? r = some (.selector x)) :
    AreWithin s x.fields := by
  intro entry hentry q hq
  exact hs.refs hx q (mem_allRefs_iff.mpr ⟨entry.2, List.mem_map_of_mem hentry, hq⟩)

/-- So is what a selector of such a store holds. -/
theorem areWithin_of_asSelector (hs : s.IsClosed) {value : Value} {wanted : String}
    (h : s.asSelector value wanted = .ok x) : AreWithin s x.fields := by
  unfold asSelector at h
  split at h
  · next y hy =>
    cases h
    cases value with
    | object r =>
      unfold selector? at hy
      dsimp only at hy
      split at hy
      · next hget =>
        cases hy
        exact hs.areWithin hget
      · cases hy
    | _ => cases hy
  · cases h

/-- A store grows by an object that refers to its objects. -/
theorem grows_add {o : Object} (hrefs : ∀ q ∈ o.refs, q < s.size)
    (hchained : ∀ e, o = .error e → ∀ q ∈ e.chained, q < s.size) : s.Grows (s.add o).2 := by
  have hsize : (s.add o).2.size = s.size + 1 := by simp [add, size]
  have hcases : ∀ {r p}, (s.add o).2.get? r = some p → s.get? r = some p ∨ p = o := by
    intro r p hp
    rcases Nat.lt_or_ge r s.size with hr | hr
    · left
      rw [← hp]
      exact (List.getElem?_append_left hr).symm
    · have hlast : (s.objects ++ [o])[r]? = some p := hp
      rw [List.getElem?_append_right hr] at hlast
      right
      obtain ⟨hlt, h⟩ := List.getElem?_eq_some_iff.mp hlast
      simpa using h.symm
  refine ⟨⟨[o], rfl⟩, fun hs => ⟨?_, ?_⟩⟩
  · intro r p hp q hq
    rw [hsize]
    rcases hcases hp with hp | rfl
    · exact Nat.lt_succ_of_lt (hs.refs hp q hq)
    · exact Nat.lt_succ_of_lt (hrefs q hq)
  · intro r e hp q hq
    rw [hsize]
    rcases hcases hp with hp | heq
    · exact Nat.lt_succ_of_lt (hs.chained hp q hq)
    · exact Nat.lt_succ_of_lt (hchained e heq.symm q hq)

/-- A store still grows if an error that was added is chained to another one. -/
theorem Grows.chain (h : s.Grows t) (hr : s.size ≤ r) {cause : Option Ref}
    (hcause : ∀ q ∈ cause, q < t.size) : s.Grows (t.chain r cause) := by
  unfold Store.chain
  split
  · next e he =>
    have hsize : (t.put r (.error { e with chained := cause })).size = t.size := by
      simp [put, size]
    have hat : ∀ {i : Ref}, (t.put r (.error { e with chained := cause })).get? i =
        if i = r then some (.error { e with chained := cause }) else t.get? i := by
      intro i
      have hlt : r < t.objects.length := (List.getElem?_eq_some_iff.mp he).1
      simp only [put, get?, List.getElem?_set, eq_comm (a := i)]
      split <;> simp [*]
    constructor
    · obtain ⟨more, hmore⟩ := h.kept
      refine ⟨more.set (r - s.size) (.error { e with chained := cause }), ?_⟩
      show _ = t.objects.set r _
      rw [← hmore, List.set_append_right _ _ hr]
      rfl
    · intro hs
      have ht := h.closed hs
      constructor
      · intro i o ho q hq
        rw [hsize]
        rw [hat] at ho
        split at ho
        · cases ho
          exact ht.refs he q hq
        · exact ht.refs ho q hq
      · intro i e' ho q hq
        rw [hsize]
        rw [hat] at ho
        split at ho
        · cases ho
          exact hcause q hq
        · exact ht.chained ho q hq
  · exact h

/-- A failure refers to nothing. -/
theorem grows_addFailure (s : Store) (f : Failure) : s.Grows (s.addFailure f).2 := by
  apply grows_add
  · simp [Object.refs, Value.allRefs, Value.refs]
  · rintro _ ⟨⟩
    simp

/-- What an error may be chained to is a value, namely an error of the store or nothing. -/
theorem eq_of_chainable {value : Value} {c : Option Ref} (h : s.chainable value = .ok c) :
    value = valueOfRef c ∧ ∀ q ∈ c, q < s.size := by
  unfold chainable at h
  split at h
  · next hnone =>
    cases h
    cases value with
    | none => exact ⟨rfl, nofun⟩
    | _ => cases hnone
  · split at h
    · next q error herror =>
      cases h
      obtain ⟨rfl, -⟩ := error?_eq_some_iff.mp herror
      refine ⟨rfl, ?_⟩
      rintro _ ⟨⟩
      exact lt_size_of_error? herror
    · cases h

/-- **An error that the class of a variant makes** is added, and refers to nothing that was not
handed to the class. -/
theorem grows_of_makeError {values : List (String × Value)} (hvalues : AreWithin s values)
    (h : makeError s stack e v values = .ok (r, t)) : s.Grows t := by
  unfold makeError at h
  dsimp only at h
  split at h
  · split at h
    · cases h
      exact grows_add (by simp [Object.refs, Value.allRefs]) (by rintro _ ⟨⟩; simp)
    · cases h
  · split at h
    · cases h
    · obtain ⟨⟨attributes, chained⟩, hrun, h⟩ := Outcome.bind_eq_ok_iff.mp h
      cases h
      have hset : AreWithin s attributes ∧ ∀ q ∈ chained, q < s.size := by
        refine Outcome.of_foldlM (P := fun state => AreWithin s state.1 ∧ ∀ q ∈ state.2, q < s.size)
          ?_ ⟨fun _ h => absurd h List.not_mem_nil, by simp⟩ hrun
        rintro f - ⟨attributes, chained⟩ next ⟨hattributes, hchained⟩ hnext
        have hadd : ∀ {name value}, Value.IsWithin s value →
            AreWithin s (attributes ++ [(name, value)]) := by
          intro name value hvalue entry hentry
          rcases List.mem_append.mp hentry with hentry | hentry
          · exact hattributes entry hentry
          · obtain rfl := List.mem_singleton.mp hentry
            exact hvalue
        have hvalue := isWithin_lookup hvalues (privateName v.className f.name)
        unfold initialField at hnext
        dsimp only at hnext
        split at hnext
        · obtain ⟨c, hc, hnext⟩ := Outcome.bind_eq_ok_iff.mp hnext
          cases hnext
          exact ⟨hadd hvalue, (eq_of_chainable hc).2⟩
        · split at hnext
          · obtain ⟨place, -, hnext⟩ := Outcome.bind_eq_ok_iff.mp hnext
            cases hnext
            exact ⟨hadd (by simp [Value.IsWithin, Value.refs]), hchained⟩
          · cases hnext
            exact ⟨hadd hvalue, hchained⟩
        · cases hnext
          exact ⟨hadd hvalue, hchained⟩
      apply grows_add
      · intro q hq
        exact lt_size_of_areWithin hset.1 (by simpa [Object.refs, Value.allRefs] using hq)
      · rintro _ ⟨⟩
        exact hset.2

/-- What the class of a variant is handed on behalf of another caller is within the store. -/
theorem areWithin_assembled {valueOf : Field → Except Failure Value}
    (hvalueOf : ∀ f value, valueOf f = .ok value → value.IsWithin s)
    {arguments : List (String × Value)} (h : assembled stack v valueOf = .ok arguments) :
    AreWithin s arguments := by
  intro entry hentry
  obtain ⟨f, -, hf⟩ := Outcome.exists_of_mem_mapM h hentry
  split at hf
  · obtain ⟨place, -, hf⟩ := Outcome.bind_eq_ok_iff.mp hf
    cases hf
    simp [Value.IsWithin, Value.refs]
  · obtain ⟨value, hvalue, hf⟩ := Outcome.bind_eq_ok_iff.mp hf
    cases hf
    exact hvalueOf f value hvalue

/-- What is extracted is the error that was left, if one was. -/
theorem eq_of_extractCause [Hierarchy] {residual : Value} {cause : Option Ref}
    (h : s.extractCause home x residual = .ok cause) :
    cause = (s.error? residual).map Prod.fst ∧
      (residual = .none ∨ ∃ found, s.error? residual = some found) := by
  unfold extractCause at h
  cases hcause : x.causeType with
  | none =>
    rw [hcause] at h
    cases h
  | some causeType =>
    simp only [hcause] at h
    obtain ⟨shape, hshape, h⟩ := Outcome.bind_eq_ok_iff.mp h
    split at h
    · cases h
      refine ⟨rfl, ?_⟩
      unfold shapeOf at hshape
      split at hshape
      · next hnone =>
        left
        cases residual with
        | none => rfl
        | _ => cases hnone
      · split at hshape
        · cases hshape
        · next herror => exact .inr ⟨_, herror⟩
    · cases h

/-- **An error that a selector makes** is added. -/
theorem grows_of_bind [Hierarchy] (hx : AreWithin s x.fields) {residual : Value}
    (h : s.bind home stack x residual = .ok (r, t)) : s.Grows t := by
  obtain ⟨cause, hcause, h⟩ := Outcome.bind_eq_ok_iff.mp h
  obtain ⟨rfl, -⟩ := eq_of_extractCause hcause
  have hfound : ∀ q ∈ (s.error? residual).map Prod.fst, q < s.size := by
    intro q hq
    obtain ⟨⟨_, error⟩, herror, rfl⟩ := Option.map_eq_some_iff.mp hq
    obtain ⟨rfl, -⟩ := error?_eq_some_iff.mp herror
    exact lt_size_of_error? herror
  split at h
  · cases h
    apply grows_add
    · simp [Object.refs, Value.allRefs, Value.refs]
    · rintro _ ⟨⟩
      exact hfound
  · next e v hproduct =>
    dsimp only at h
    split at h
    · cases h
    · obtain ⟨arguments, harguments, h⟩ := Outcome.bind_eq_ok_iff.mp h
      obtain ⟨⟨made, u⟩, hmade, h⟩ := Outcome.bind_eq_ok_iff.mp h
      have hwithin : AreWithin s arguments := by
        refine areWithin_assembled (fun f value hvalue => ?_) harguments
        split at hvalue
        · cases hvalue
          intro q hq
          generalize (s.error? residual).map Prod.fst = cause at hq hfound
          cases cause with
          | none => simp [valueOfRef, Value.refs] at hq
          | some c =>
            obtain rfl : q = c := by simpa [valueOfRef, Value.refs] using hq
            exact hfound q rfl
        · cases hvalue
          exact isWithin_lookup hx _
      have hgrows := grows_of_makeError hwithin hmade
      cases h
      split
      · exact hgrows
      · obtain ⟨error, hadded⟩ := eq_add_of_makeError hmade
        have hnew : made = s.size := congrArg Prod.fst hadded
        refine hgrows.chain hnew.ge fun q hq => ?_
        exact Nat.lt_of_lt_of_le (hfound q hq) hgrows.kept.length_le

/-- An error that the function of a variant makes is added. -/
theorem grows_of_callConstructor {name : String} {values : List (String × Value)}
    (hvalues : AreWithin s values) (h : callConstructor s stack e v name values = .ok (r, t)) :
    s.Grows t := by
  unfold callConstructor at h
  dsimp only at h
  split at h
  · cases h
  · obtain ⟨arguments, harguments, h⟩ := Outcome.bind_eq_ok_iff.mp h
    split at h
    · cases h
    · refine grows_of_makeError (areWithin_assembled (fun f value hvalue => ?_) harguments) h
      cases hvalue
      exact isWithin_lookup hvalues f.name

/-- What is raised is an error of a store that may have grown. -/
theorem grows_raised (s : Store) (value : Value) :
    s.Grows (s.raised value).2 ∧ (s.raised value).1 < (s.raised value).2.size := by
  unfold raised
  split
  · next herror =>
    obtain ⟨rfl, -⟩ := error?_eq_some_iff.mp herror
    exact ⟨Grows.refl s, lt_size_of_error? herror⟩
  · exact ⟨s.grows_addFailure _, by simp [addFailure, add, size]⟩

/-- What leaves a block of code has been added. -/
theorem grows_turned [Hierarchy]
    (hs : s.IsClosed) (home : String) (stack : List Frame) (selector : Value)
    (given : List Kind) (hq : q < s.size) :
    s.Grows (s.turned home stack selector given q).store := by
  unfold turned
  split
  · exact s.grows_addFailure _
  · exact Grows.refl s
  · dsimp only
    split
    · next made u hmade =>
      obtain ⟨x, hx, hmade⟩ := Outcome.bind_eq_ok_iff.mp hmade
      have hgrows := grows_of_bind (areWithin_of_asSelector hs hx) hmade
      obtain ⟨error, hadded⟩ := eq_add_of_bind hmade
      have hnew : made = s.size := congrArg Prod.fst hadded
      refine hgrows.chain hnew.ge ?_
      rintro _ ⟨⟩
      exact Nat.lt_of_lt_of_le hq hgrows.kept.length_le
    · exact s.grows_addFailure _

end Store

/-- Whether all values that are handed on are within a store. -/
def Making.IsWithin (s : Store) : Making → Prop
  | call values | function _ values => AreWithin s values
  | bound x _ => AreWithin s x.fields
  | _ => True

section

variable {s t : Store} {home : String} {stack : List Frame} {e : Enumeration} {v : Variant}
  {m : Making} {r : Ref} {f : Field}

/-- **Making an error adds objects**, and leaves those that are there as they are. -/
theorem Making.grows [Hierarchy] (hs : s.IsClosed) (hm : m.IsWithin s)
    (h : m.made? s home stack e v = some (r, t)) : s.Grows t := by
  cases m with
  | call values => exact Store.grows_of_makeError hm (Outcome.toOption_eq_some_iff.mp h)
  | function name values =>
    exact Store.grows_of_callConstructor hm (Outcome.toOption_eq_some_iff.mp h)
  | bound x residual => exact Store.grows_of_bind hm (Outcome.toOption_eq_some_iff.mp h)
  | context selector given value =>
    obtain ⟨q, -, heq⟩ := Option.map_eq_some_iff.mp h
    cases heq
    obtain ⟨hraised, hq⟩ := s.grows_raised value
    exact hraised.trans (Store.grows_turned (hraised.closed hs) home stack selector given hq)
  | withContext selector given value =>
    obtain ⟨q, -, heq⟩ := Option.map_eq_some_iff.mp h
    cases heq
    obtain ⟨hraised, hq⟩ := s.grows_raised value
    unfold Store.withContext
    dsimp only
    split
    · exact hraised.trans (Store.grows_turned (hraised.closed hs) home stack selector given hq)
    · exact hraised
  | ensure value selector =>
    obtain ⟨⟨q, u⟩, hensured, heq⟩ := Option.bind_eq_some_iff.mp h
    obtain ⟨r', rfl, heq⟩ := Option.map_eq_some_iff.mp heq
    cases heq
    have hensured := Outcome.toOption_eq_some_iff.mp hensured
    unfold Store.ensure at hensured
    split at hensured
    · obtain ⟨x, hx, hensured⟩ := Outcome.bind_eq_ok_iff.mp hensured
      obtain ⟨⟨q, w⟩, hbind, hensured⟩ := Outcome.bind_eq_ok_iff.mp hensured
      cases hensured
      exact Store.grows_of_bind (Store.areWithin_of_asSelector hs hx) hbind
    · cases hensured

end

end Errata.Error
