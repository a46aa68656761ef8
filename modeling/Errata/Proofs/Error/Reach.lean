import Errata.Proofs.Error.Circle
import Mathlib.Data.List.Chain
import Mathlib.Tactic.IntervalCases

/-!
# Errors that causes lead to

Where every cause is an error, following causes from an error ends in one of two ways: at an error
without a cause, or at one whose cause was met before. No error is left out in the second case
either, since whatever that cause leads to was met as well. So the chain of an error holds the
errors that causes lead to, each of them once.

* `Store.HasCause`: whether one error is the cause of another.
* `Store.IsLinked`: stores in which every cause is an error.
* `Store.exists_sourcesFrom`: the rest of a chain from an error on, where some errors were met.
* `mem_of_reflTransGen`: a row that leads nowhere else holds all that it leads to.
* `Store.eq_nil_iff_endsAt`: no error but the last of a chain is one at which following causes ends.
* **`Store.sources_reach`**: the chain of an error in such a store.
-/

namespace Errata.Error

open Relation (ReflTransGen)

namespace Store

variable {s : Store} {r : Ref}

/-! ### Causes -/

/-- Whether an error has another one for its cause. -/
def HasCause (s : Store) (r q : Ref) : Prop :=
  s.source (.object r) = .ok (.object q)

/-- Whether an object is an error. -/
def IsError (s : Store) (r : Ref) : Prop :=
  ∃ e, s.error? (.object r) = some (r, e)

/-- Whether every error of a store has no cause or has an error for its cause. -/
def IsLinked (s : Store) : Prop :=
  ∀ r, s.IsError r →
    s.source (.object r) = .ok .none ∨ ∃ q, s.HasCause r q ∧ s.IsError q

/-- An error has one cause at most. -/
theorem HasCause.unique {q q' : Ref} (h : s.HasCause r q) (h' : s.HasCause r q') : q = q' := by
  cases h.symm.trans h'
  rfl

/-- An error has no cause if it has none. -/
theorem not_hasCause_of_none {q : Ref} (h : s.source (.object r) = .ok .none) :
    ¬s.HasCause r q := fun hcause => by cases h.symm.trans hcause

/-! ### Following causes -/

/-- How following causes ends at an error, where some errors were met: it has no cause, or one that
was met before. -/
def EndsAt (s : Store) (met : List Ref) (last : Ref) : Prop :=
  s.source (.object last) = .ok .none ∨ ∃ q ∈ met, s.HasCause last q

/-- Meeting more errors leaves the ends. -/
theorem EndsAt.mono {met more : List Ref} {last : Ref} (h : s.EndsAt met last)
    (hsub : met ⊆ more) : s.EndsAt more last :=
  h.imp_right fun ⟨q, hq, hcause⟩ => ⟨q, hsub hq, hcause⟩

/-- **The rest of a chain** from an error on that was not met before. Each of the errors in it is
the cause of the one before it, up to an end. -/
theorem exists_sourcesFrom (h : s.IsLinked) (seen : List Ref) (r : Ref) (hr : s.IsError r)
    (hseen : r ∉ seen) :
    ∃ rest, s.sourcesFrom seen (.object r) = ⟨(r :: rest).map .object, none⟩ ∧
      (r :: rest).IsChain s.HasCause ∧
      s.EndsAt (seen ++ r :: rest) ((r :: rest).getLast (List.cons_ne_nil _ _)) := by
  induction hn : unseen s.size seen using Nat.strongRecOn generalizing seen r with
  | ind n ih =>
    obtain ⟨e, he⟩ := hr
    rcases h r ⟨e, he⟩ with hnone | ⟨q, hcause, hq⟩
    · refine ⟨[], ?_, .singleton r, .inl hnone⟩
      rw [sourcesFrom_object hseen hnone, sourcesFrom]
      rfl
    rw [sourcesFrom_object hseen hcause]
    by_cases hmet : q ∈ r :: seen
    · refine ⟨[], ?_, .singleton r, .inr ⟨q, ?_, hcause⟩⟩
      · rw [sourcesFrom, dif_neg fun hnew => hnew.2 hmet]
        rfl
      · simpa [or_comm] using hmet
    · have hfewer := unseen_cons_lt (lt_size_of_error? he) hseen
      obtain ⟨rest, heq, hchain, hend⟩ := ih _ (hn ▸ hfewer) (r :: seen) q hq hmet rfl
      refine ⟨q :: rest, ?_, .cons_cons hcause hchain, ?_⟩
      · rw [heq]
        rfl
      · rw [List.getLast_cons (List.cons_ne_nil q rest)]
        exact hend.mono (by simp)

end Store

/-! ### What a row of errors leads to -/

section Rows

variable {α : Type} {R : α → α → Prop} {as : List α} {a b : α}

/-- Every entry of a chain but the last is related to another one. -/
theorem exists_mem_of_isChain (h : as.IsChain R) (ha : a ∈ as) :
    as.getLast? = some a ∨ ∃ b ∈ as, R a b := by
  obtain ⟨front, back, rfl⟩ := List.append_of_mem ha
  cases back with
  | nil => exact .inl (by simp)
  | cons b back =>
    refine .inr ⟨b, by simp, ?_⟩
    exact (List.isChain_cons_cons.mp h.right_of_append).1

/-- **A row that leads nowhere else** holds all that its entries lead to. -/
theorem mem_of_reflTransGen (hclosed : ∀ a ∈ as, ∀ b, R a b → b ∈ as) (ha : a ∈ as)
    (h : ReflTransGen R a b) : b ∈ as := by
  induction h with
  | refl => exact ha
  | tail _ hstep ih => exact hclosed _ ih _ hstep

/-- The first entry of a chain leads to all of them. -/
theorem reflTransGen_of_isChain (h : (a :: as).IsChain R) (hb : b ∈ a :: as) :
    ReflTransGen R a b :=
  h.induction (ReflTransGen R a ·) _ (fun _ _ hstep hlead => hlead.tail hstep) (fun _ => .refl) b hb

end Rows

namespace Store

variable {s : Store} {r : Ref}

/-- A chain of errors that ends leads nowhere else. -/
theorem mem_of_hasCause {rs : List Ref} {last : Ref} (hchain : rs.IsChain s.HasCause)
    (hlast : rs.getLast? = some last) (hend : s.EndsAt rs last) :
    ∀ p ∈ rs, ∀ q, s.HasCause p q → q ∈ rs := by
  intro p hp q hcause
  rcases exists_mem_of_isChain hchain hp with hp | ⟨q', hmem, hcause'⟩
  · cases hlast.symm.trans hp
    rcases hend with hnone | ⟨q', hmem, hcause'⟩
    · exact absurd hcause (not_hasCause_of_none hnone)
    · rwa [hcause.unique hcause']
  · rwa [hcause.unique hcause']

/-- In a chain of errors that ends and holds none twice, an error is the last exactly if following
causes ends at it. -/
theorem eq_nil_iff_endsAt {front back : List Ref} {p last : Ref}
    (hchain : (front ++ p :: back).IsChain s.HasCause) (hnodup : (front ++ p :: back).Nodup)
    (hlast : (front ++ p :: back).getLast? = some last)
    (hend : s.EndsAt (front ++ p :: back) last) : back = [] ↔ s.EndsAt (front ++ [p]) p := by
  constructor
  · rintro rfl
    rw [List.getLast?_concat, Option.some_inj] at hlast
    rwa [hlast] at hend ⊢
  · intro hp
    cases back with
    | nil => rfl
    | cons q back =>
      have hcause : s.HasCause p q := (List.isChain_cons_cons.mp hchain.right_of_append).1
      rcases hp with hnone | ⟨q', hmem, hcause'⟩
      · exact absurd hcause (not_hasCause_of_none hnone)
      · -- the cause stands behind the error, so it was not met before
        rw [List.append_cons] at hnodup
        obtain rfl := hcause.unique hcause'
        exact absurd List.mem_cons_self (List.disjoint_of_nodup_append hnodup hmem)

/-- **The chain of an error** in a store in which every cause is an error, whatever circles there
are. It is told without a failure and starts with the error itself. No error is in it twice, and
each is the cause of the one before it. An error is the last of it exactly if it has no cause, or
one that is in the chain already. So the errors in it are those that causes lead to. -/
theorem sources_reach (h : s.IsLinked) (hr : s.IsError r) :
    ∃ rs : List Ref, s.sources (.object r) = ⟨rs.map .object, none⟩ ∧
      rs.Nodup ∧ rs.head? = some r ∧ rs.IsChain s.HasCause ∧
      (∀ front p back, rs = front ++ p :: back → (back = [] ↔ s.EndsAt (front ++ [p]) p)) ∧
      ∀ q, q ∈ rs ↔ ReflTransGen s.HasCause r q := by
  obtain ⟨rest, heq, hchain, hend⟩ := exists_sourcesFrom h [] r hr List.not_mem_nil
  obtain ⟨last, hlast, hend⟩ : ∃ last, (r :: rest).getLast? = some last ∧
      s.EndsAt (r :: rest) last :=
    ⟨_, List.getLast?_eq_some_getLast (List.cons_ne_nil r rest), hend⟩
  have hnodup : (r :: rest).Nodup := by
    have hmembers := s.nodup_sources (.object r)
    rw [sources, heq] at hmembers
    exact hmembers.of_map _
  refine ⟨r :: rest, heq, hnodup, rfl, hchain, ?_, fun q => ⟨?_, ?_⟩⟩
  · intro front p back hsplit
    rw [hsplit] at hchain hnodup hlast hend
    exact eq_nil_iff_endsAt hchain hnodup hlast hend
  · exact reflTransGen_of_isChain hchain
  · exact mem_of_reflTransGen (mem_of_hasCause hchain hlast hend) List.mem_cons_self

/-- An error in front of a circle of two, one of them generated and the other not. -/
def beforeCircle : Store :=
  ⟨[.error { kind := .foreign "ValueError", chained := some 1 },
    wrapping "Job" "failed" "retry" true 2,
    .error { kind := .foreign "KeyError", chained := some 1 }]⟩

/-- Every cause in it is an error. -/
theorem isLinked_beforeCircle : beforeCircle.IsLinked := by
  rintro r ⟨e, he⟩
  have hr : r < 3 := lt_size_of_error? he
  interval_cases r
  · exact .inr ⟨1, rfl, _, rfl⟩
  · exact .inr ⟨2, rfl, _, rfl⟩
  · exact .inr ⟨1, rfl, _, rfl⟩

/-- The chain goes once around the circle, and holds all three errors. -/
theorem sources_reach_circle :
    ∃ rs : List Ref, beforeCircle.sources (.object 0) = ⟨rs.map .object, none⟩ ∧
      rs.Nodup ∧ rs.head? = some 0 ∧ 0 ∈ rs ∧ 1 ∈ rs ∧ 2 ∈ rs := by
  obtain ⟨rs, heq, hnodup, hhead, -, -, hreach⟩ :=
    sources_reach isLinked_beforeCircle (r := 0) ⟨_, rfl⟩
  have hfirst : beforeCircle.HasCause 0 1 := rfl
  have hsecond : beforeCircle.HasCause 1 2 := rfl
  exact ⟨rs, heq, hnodup, hhead, (hreach 0).mpr .refl, (hreach 1).mpr (.single hfirst),
    (hreach 2).mpr ((ReflTransGen.single hfirst).tail hsecond)⟩

end Store

end Errata.Error
