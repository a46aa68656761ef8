import Errata.Proofs.Message.Segment
import Mathlib.Algebra.Group.Nat.Even

/-!
# Closing braces that stand alone

A closing brace in the text of a literal has to be doubled. Whether it is, is found out from the
template, where a placeholder that takes a second closing brace along leaves nothing. So closing
braces on both sides of such a placeholder come together, and count as one run. A specification in
which a brace opens reaches over text that follows the placeholder, with the closing braces in it.
Before the first such specification every other closing brace that stands alone is a fault.

* `IsRun`: the maximal runs of closing braces, with the placeholders among them that leave nothing.
* `isSome_readInStep_iff`: segments are read one by one if the closing braces of each run are even
  in number.
* **`compile_runs`**: an odd number of closing braces in a run is the fault of the literal.
* `not_compile_runs`: two closing braces that stand alone, with a placeholder between them.
-/

namespace Errata.Placeholder

open Outcome
open Template (items)

/-! ### Runs -/

/-- Whether segments are a maximal run of closing braces, with the placeholders among them that
leave nothing. -/
structure IsRun (segs front run back : List Segment) : Prop where
  /-- What stands before and behind it. -/
  split : segs = front ++ (run ++ back)
  /-- It consists of such segments. -/
  closes : ∀ s ∈ run, s.Closes
  /-- It does not go on to the left. -/
  before : ∀ s, front.getLast? = some s → ¬s.Closes
  /-- It does not go on to the right. -/
  behind : ∀ s, back.head? = some s → ¬s.Closes

/-- The closing braces in a run. -/
def closeCount (run : List Segment) : Nat :=
  run.count (.plain (.char '}'))

/-- A segment that does not belong to a run is read by itself. -/
theorem isSome_readInStep_cons {s : Segment} (hs : ¬s.Closes) (more : List Segment) :
    (readInStep false (s :: more)).isSome = (readInStep false more).isSome := by
  cases s with
  | plain c =>
    have hc : c ≠ .char '}' := fun hc => hs (Or.inl (congrArg _ hc))
    rw [readInStep, if_neg hc, if_neg Bool.false_ne_true, Option.isSome_map]
  | swallowed => exact absurd (Or.inr rfl) hs
  | brace => exact Option.isSome_map ..
  | shown format => exact Option.isSome_map ..
  | field argument format => exact Option.isSome_map ..

/-- **A run is read** if its closing braces, with one that is owed before it, are even in number. -/
theorem isSome_readInStep_run {run more : List Segment} (hrun : ∀ s ∈ run, s.Closes)
    (hmore : ∀ s, more.head? = some s → ¬s.Closes) (owed : Bool) :
    (readInStep owed (run ++ more)).isSome =
      (decide (Even (closeCount run + owed.toNat)) && (readInStep false more).isSome) := by
  induction run generalizing owed with
  | nil =>
    cases owed with
    | false => simp [closeCount]
    | true =>
      rw [List.nil_append, readInStep_owed hmore]
      simp [closeCount]
  | cons s run ih =>
    obtain ⟨hs, hmembers⟩ := List.forall_mem_cons.mp hrun
    rcases hs with rfl | rfl
    · have hcount : closeCount (.plain (.char '}') :: run) = closeCount run + 1 :=
        List.count_cons_self
      rw [List.cons_append, readInStep, if_pos rfl, hcount]
      cases owed with
      | false => simpa using ih hmembers true
      | true =>
        have hsame : Even (closeCount run + 1 + true.toNat) ↔
            Even (closeCount run + false.toNat) := by
          simp [Nat.even_add_one]
        rw [if_pos rfl, Option.isSome_map, ih hmembers false, decide_eq_decide.mpr hsame]
    · have hcount : closeCount (.swallowed :: run) = closeCount run :=
        List.count_cons_of_ne (by decide)
      rw [hcount]
      exact ih hmembers owed

/-- What cannot be read is not read behind segments that end no run. -/
theorem readInStep_append_eq_none {front more : List Segment} (owed : Bool)
    (hempty : front = [] → owed = false) (hfront : ∀ s, front.getLast? = some s → ¬s.Closes)
    (hmore : readInStep false more = none) : readInStep owed (front ++ more) = none := by
  induction front generalizing owed with
  | nil =>
    rw [hempty rfl]
    exact hmore
  | cons s front ih =>
    -- the last segment ends no run, so nothing is owed behind it
    have hrest : ∀ owed', (s.Closes ∨ owed' = false) →
        readInStep owed' (front ++ more) = none := by
      intro owed' h
      refine ih owed' (fun hnil => ?_) fun t ht => hfront t ?_
      · subst hnil
        exact h.resolve_left (hfront s rfl)
      · cases front with
        | nil => cases ht
        | cons _ _ => exact ht
    have hfalse := hrest false (Or.inr rfl)
    rw [List.cons_append]
    cases s with
    | swallowed => exact hrest owed (Or.inl (Or.inr rfl))
    | plain c =>
      rw [readInStep]
      by_cases hc : c = .char '}'
      · rw [if_pos hc, hfalse, hrest true (Or.inl (Or.inl (congrArg _ hc)))]
        cases owed <;> rfl
      · rw [if_neg hc, hfalse]
        cases owed <;> rfl
    | brace => cases owed <;> simp [readInStep, hfalse]
    | shown format => cases owed <;> simp [readInStep, hfalse]
    | field argument format => cases owed <;> simp [readInStep, hfalse]

/-- A run of an odd number of closing braces is not read, whatever stands before and behind it. -/
theorem IsRun.readInStep_eq_none {segs front run back : List Segment}
    (h : IsRun segs front run back) (hodd : ¬Even (closeCount run)) {more : List Segment}
    (hmore : ∀ s, more.head? = some s → ¬s.Closes) :
    readInStep false (front ++ (run ++ more)) = none := by
  refine readInStep_append_eq_none false (fun _ => rfl) h.before ?_
  have hodd' : ¬Even (closeCount run + false.toNat) := hodd
  have hnone := isSome_readInStep_run h.closes hmore false
  rw [decide_eq_false hodd', Bool.false_and, Option.isSome_eq_false_iff, Option.isNone_iff_eq_none]
    at hnone
  exact hnone

/-- What is a run behind a segment that belongs to none is one behind all that is before it. -/
theorem IsRun.append {segs front run back : List Segment} (h : IsRun segs front run back)
    (before : List Segment) {s : Segment} (hs : ¬s.Closes) :
    IsRun (before ++ s :: segs) (before ++ s :: front) run back where
  split := by rw [h.split, List.append_assoc, List.cons_append]
  closes := h.closes
  before t ht := by
    rw [List.getLast?_append_of_ne_nil _ (List.cons_ne_nil s front)] at ht
    cases front with
    | nil =>
      cases ht
      exact hs
    | cons r front => exact h.before t ht
  behind := h.behind

/-- **Segments are read one by one** exactly if each run has an even number of closing braces. -/
theorem isSome_readInStep_iff {segs : List Segment} :
    (readInStep false segs).isSome = true ↔
      ∀ front run back, IsRun segs front run back → Even (closeCount run) := by
  constructor
  · intro h front run back hrun
    by_contra hodd
    rw [hrun.split, hrun.readInStep_eq_none hodd hrun.behind] at h
    cases h
  · induction hlength : segs.length using Nat.strong_induction_on generalizing segs with
    | _ n ih =>
      subst hlength
      intro h
      -- the first run, which may be empty, and what stands behind it
      have hsplit : segs = segs.takeWhile (·.Closes) ++ segs.dropWhile (·.Closes) :=
        List.takeWhile_append_dropWhile.symm
      have hcloses : ∀ s ∈ segs.takeWhile (·.Closes), s.Closes := fun s hs => by
        simpa using List.all_eq_true.mp List.all_takeWhile s hs
      have hbehind : ∀ s, (segs.dropWhile (·.Closes)).head? = some s → ¬s.Closes := by
        intro s hs
        have hstop := List.head?_dropWhile_not (fun s : Segment => decide s.Closes) segs
        rw [hs] at hstop
        simpa using hstop
      have heven := h [] _ _ ⟨hsplit, hcloses, nofun, hbehind⟩
      rw [hsplit, isSome_readInStep_run hcloses hbehind]
      rw [show closeCount (segs.takeWhile (·.Closes)) + false.toNat =
        closeCount (segs.takeWhile (·.Closes)) from rfl, decide_eq_true heven, Bool.true_and]
      cases hrest : segs.dropWhile (·.Closes) with
      | nil => rfl
      | cons s rest =>
        rw [hrest] at hsplit hbehind
        have hs := hbehind s rfl
        rw [isSome_readInStep_cons hs]
        have hshorter : rest.length < segs.length := by
          have hlength := congrArg List.length hsplit
          rw [List.length_append, List.length_cons] at hlength
          omega
        refine ih _ hshorter rfl fun front run back hrun => ?_
        have hwhole := hrun.append (segs.takeWhile (·.Closes)) hs
        rw [← hsplit] at hwhole
        exact h _ _ _ hwhole

/-! ### Literals -/

variable {strict : Bool} {literal : Text} {segs : List Segment}

/-- A fault of the template is one of the literal. -/
theorem compile_of_items (hsegs : segments strict 0 literal = .ok segs) {fault : Template.Fault}
    (h : items (segs.flatMap Segment.template) = .error fault) :
    compile strict literal = .error (.malformed literal.length fault) := by
  have hitems : items (Message.ofSegments segs).template = .error fault := h
  unfold items at hitems
  unfold compile
  rw [hsegs]
  cases hchunks : Template.chunks (Message.ofSegments segs).template with
  | ok chunks =>
    rw [hchunks] at hitems
    cases hitems
  | error cause =>
    rw [hchunks] at hitems
    cases hitems
    simp [bind, Except.bind, hchunks, throw, throwThe, MonadExceptOf.throw]

/-- **An odd number of closing braces in a run** is the fault of a literal, unless a brace opens in
the format of a placeholder before it. A literal with no such placeholder is compiled exactly if
each run has an even number of closing braces. -/
theorem compile_runs (hsegs : segments strict 0 literal = .ok segs) :
    (∀ front run back, IsRun segs front run back → (∀ s ∈ front, s.InStep) →
      ¬Even (closeCount run) →
        compile strict literal = .error (.malformed literal.length .loneClose)) ∧
      ((∀ s ∈ segs, s.InStep) → ((∃ m, compile strict literal = .ok m) ↔
        ∀ front run back, IsRun segs front run back → Even (closeCount run))) := by
  have hcut := isCut_of_segments hsegs
  constructor
  · intro front run back hrun hfront hodd
    have hmem : ∀ s ∈ front ++ run, s ∈ segs := by
      intro s hs
      rw [hrun.split, ← List.append_assoc]
      exact List.mem_append_left back hs
    have hstep : ∀ s ∈ front ++ run, s.InStep := by
      intro s hs
      rcases List.mem_append.mp hs with hs | hs
      · exact hfront s hs
      · rcases hrun.closes s hs with rfl | rfl <;> trivial
    have hnil : ∀ s, ([] : List Segment).head? = some s → ¬s.Closes := nofun
    have hnone := hrun.readInStep_eq_none hodd hnil
    rw [List.append_nil] at hnone
    have hitems := items_template_append (fun s hs => hcut s (hmem s hs)) hstep false
      (head?_template_ne hrun.behind)
    rw [hnone] at hitems
    refine compile_of_items hsegs ?_
    rw [hrun.split, ← List.append_assoc, List.flatMap_append]
    exact hitems
  · intro hstep
    have hitems : items (segs.flatMap Segment.template) = _ := items_template hcut hstep false
    rw [← isSome_readInStep_iff]
    constructor
    · rintro ⟨m, hm⟩
      obtain ⟨segs', its, hsegs', hits, -⟩ := compile_eq_ok_iff.mp hm
      cases hsegs.symm.trans hsegs'
      cases hread : readInStep false segs with
      | none =>
        rw [hread] at hitems
        cases hitems.symm.trans hits
      | some its => rfl
    · intro hread
      obtain ⟨its, hits⟩ := Option.isSome_iff_exists.mp hread
      rw [hits] at hitems
      exact ⟨_, compile_eq_ok_iff.mpr ⟨segs, its, hsegs, hitems, rfl⟩⟩

/-- A closing brace that stands alone behind a placeholder. -/
theorem compile_runs_lone :
    compile true (Text.ofString "\x7bx\x7d: \x7d") = .error (.malformed 6 .loneClose) := by
  have hsegs : segments true 0 (Text.ofString "\x7bx\x7d: \x7d") =
      .ok [.field ⟨[.char 'x'], 1⟩ [], .plain (.char ':'), .plain (.char ' '),
        .plain (.char '}')] := by
    decide +kernel
  have hrun : IsRun
      [.field ⟨[.char 'x'], 1⟩ [], .plain (.char ':'), .plain (.char ' '), .plain (.char '}')]
      [.field ⟨[.char 'x'], 1⟩ [], .plain (.char ':'), .plain (.char ' ')]
      [.plain (.char '}')] [] := by
    refine ⟨rfl, by decide, fun s hs => ?_, nofun⟩
    cases hs
    decide
  exact (compile_runs hsegs).1 _ _ _ hrun (by decide) (by decide)

/-- **A closing brace may stand alone**: two of them with a placeholder between them that leaves
nothing are taken for a doubled one. -/
theorem not_compile_runs :
    ¬∀ (strict : Bool) (literal : Text) (m : Message) (segs front : List Segment) (count : Nat)
      (back : List Segment), compile strict literal = .ok m → segments strict 0 literal = .ok segs →
      segs = front ++ (List.replicate count (.plain (.char '}')) ++ back) →
      front.getLast? ≠ some (.plain (.char '}')) → back.head? ≠ some (.plain (.char '}')) →
        Even count := by
  intro hall
  have hok : (compile true (Text.ofString "\x7d\x7ba\x7d\x7d\x7d")).toOption.isSome = true := by
    decide +kernel
  obtain ⟨m, hm⟩ := Option.isSome_iff_exists.mp hok
  rw [toOption_eq_some_iff] at hm
  have hsegs : segments true 0 (Text.ofString "\x7d\x7ba\x7d\x7d\x7d") =
      .ok [.plain (.char '}'), .swallowed, .plain (.char '}')] := by
    decide +kernel
  have heven := hall true _ m _ [] 1 [.swallowed, .plain (.char '}')] hm hsegs rfl (by decide)
    (by decide)
  exact absurd heven (by decide)

end Errata.Placeholder
