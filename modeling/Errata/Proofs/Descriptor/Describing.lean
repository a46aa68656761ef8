import Errata.Descriptor.Build
import Errata.Proofs.Outcome

/-!
# Descriptions under way

A description only ever adds to what was found, and never looks at it. So what a step makes does not
depend on what was found before it, and a description can be followed one outcome after the other.

* `outcome`: what a step makes when nothing was found before it.
* `IsSteady`: steps that only add to what was found.
* **`outcome_bind`**: the outcome of two steps is that of the second on what the first made.
* `Yields`: steps that read no literal, and so never meet an argument that cannot be read;
  `Yields.bind` puts them together.
* `Makes`: steps of which all that matters is what they make; `Makes.bind` puts them together.
-/

namespace Errata.Descriptor

variable {α β : Type}

/-! ### Outcomes -/

/-- What a step makes, or the obstacle it meets. -/
def outcome (x : Describing α) : Except Obstacle α :=
  (x.run.run []).1

/-- A step is steady if it only adds to what was found, whatever that is. -/
def IsSteady (x : Describing α) : Prop :=
  ∃ more, ∀ found, x.run.run found = (outcome x, found ++ more)

/-- **The outcome of two steps** is that of the second on what the first made. -/
theorem outcome_bind {x : Describing α} {f : α → Describing β} (hx : IsSteady x)
    (hf : ∀ a, outcome x = .ok a → IsSteady (f a)) :
    outcome (x >>= f) = (outcome x).bind fun a => outcome (f a) := by
  obtain ⟨more, hx⟩ := hx
  rw [outcome, Outcome.run_bind, hx]
  cases hmade : outcome x with
  | error e => rfl
  | ok a =>
    obtain ⟨rest, hf⟩ := hf a hmade
    show ((f a).run.run ([] ++ more)).1 = outcome (f a)
    rw [hf]

/-- Two steady steps are steady together. -/
theorem IsSteady.bind {x : Describing α} {f : α → Describing β} (hx : IsSteady x)
    (hf : ∀ a, outcome x = .ok a → IsSteady (f a)) : IsSteady (x >>= f) := by
  have hboth := outcome_bind hx hf
  obtain ⟨more, hx⟩ := hx
  cases hmade : outcome x with
  | error e =>
    refine ⟨more, fun found => ?_⟩
    rw [hboth, Outcome.run_bind, hx, hmade]
    rfl
  | ok a =>
    obtain ⟨rest, hf⟩ := hf a hmade
    refine ⟨more ++ rest, fun found => ?_⟩
    rw [hboth, Outcome.run_bind, hx, hmade, ← List.append_assoc]
    exact hf (found ++ more)

/-- Handing on a value is steady. -/
theorem isSteady_pure (a : α) : IsSteady (pure a : Describing α) :=
  ⟨[], fun found => by rw [List.append_nil]; rfl⟩

/-- Meeting an obstacle is steady. -/
theorem isSteady_throw (e : Obstacle) : IsSteady (throw e : Describing α) :=
  ⟨[], fun found => by rw [List.append_nil]; rfl⟩

/-- Meeting a violation is steady. -/
theorem isSteady_refuse (problem : Problem) (span : Span) :
    IsSteady (refuse problem span : Describing α) :=
  isSteady_throw _

/-- Noting a finding is steady. -/
theorem isSteady_note (problem : Problem) (span : Option Span) : IsSteady (note problem span) :=
  ⟨[⟨problem, span⟩], fun _ => rfl⟩

/-- Handing on a value makes it. -/
@[simp] theorem outcome_pure (a : α) : outcome (pure a : Describing α) = .ok a := rfl

/-- Meeting an obstacle makes nothing. -/
@[simp] theorem outcome_throw (e : Obstacle) : outcome (throw e : Describing α) = .error e := rfl

/-- Meeting a violation makes nothing. -/
@[simp] theorem outcome_refuse (problem : Problem) (span : Span) :
    outcome (refuse problem span : Describing α) = .error (violation problem span) := rfl

/-- Noting a finding hands on nothing. -/
@[simp] theorem outcome_note (problem : Problem) (span : Option Span) :
    outcome (note problem span) = .ok () := rfl

/-! ### Two steps -/

/-- What two steps make is made by the second from what the first made. -/
theorem bind_eq_ok_iff {x : Describing α} {f : α → Describing β} (hx : IsSteady x)
    (hf : ∀ a, outcome x = .ok a → IsSteady (f a)) {b : β} :
    outcome (x >>= f) = .ok b ↔ ∃ a, outcome x = .ok a ∧ outcome (f a) = .ok b := by
  rw [outcome_bind hx hf, Outcome.bind_eq_ok_iff]

/-- An obstacle that two steps meet is met by the first, or else by the second. -/
theorem bind_eq_error_iff {x : Describing α} {f : α → Describing β} (hx : IsSteady x)
    (hf : ∀ a, outcome x = .ok a → IsSteady (f a)) {e : Obstacle} :
    outcome (x >>= f) = .error e ↔
      outcome x = .error e ∨ ∃ a, outcome x = .ok a ∧ outcome (f a) = .error e := by
  rw [outcome_bind hx hf]
  cases outcome x <;> simp [Except.bind]

/-! ### Obstacles that are dealt with -/

/-- A step whose obstacles are dealt with by another. -/
theorem run_tryCatch (x : Describing α) (f : Obstacle → Describing α) (found : List Finding) :
    (tryCatch x f).run.run found =
      match x.run.run found with
      | (.ok a, more) => (.ok a, more)
      | (.error e, more) => (f e).run.run more := by
  show (ExceptT.tryCatch x f) found = _
  simp only [ExceptT.tryCatch, ExceptT.mk, bind, StateT.bind, ExceptT.run, StateT.run]
  rcases x found with ⟨e | a, more⟩ <;> rfl

/-- The outcome of a step whose obstacles are dealt with. -/
theorem outcome_tryCatch {x : Describing α} {f : Obstacle → Describing α} (hx : IsSteady x)
    (hf : ∀ e, outcome x = .error e → IsSteady (f e)) :
    outcome (tryCatch x f) =
      match outcome x with
      | .ok a => .ok a
      | .error e => outcome (f e) := by
  obtain ⟨more, hx⟩ := hx
  rw [outcome, run_tryCatch, hx]
  cases hmade : outcome x with
  | ok a => rfl
  | error e =>
    obtain ⟨rest, hf⟩ := hf e hmade
    show ((f e).run.run ([] ++ more)).1 = outcome (f e)
    rw [hf]

/-- A steady step is steady when its obstacles are dealt with by steady steps. -/
theorem IsSteady.tryCatch {x : Describing α} {f : Obstacle → Describing α} (hx : IsSteady x)
    (hf : ∀ e, outcome x = .error e → IsSteady (f e)) :
    IsSteady (MonadExcept.tryCatch x f) := by
  have hboth := outcome_tryCatch hx hf
  obtain ⟨more, hx⟩ := hx
  cases hmade : outcome x with
  | ok a =>
    refine ⟨more, fun found => ?_⟩
    rw [hboth, run_tryCatch, hx, hmade]
  | error e =>
    obtain ⟨rest, hf⟩ := hf e hmade
    refine ⟨more ++ rest, fun found => ?_⟩
    rw [hboth, run_tryCatch, hx, hmade, ← List.append_assoc]
    exact hf (found ++ more)

/-! ### Steps that read no literal -/

/-- A step yields what has a property if it is steady, what it makes has the property, and any
obstacle it meets is a violation. -/
structure Yields (P : α → Prop) (x : Describing α) : Prop where
  /-- It is steady. -/
  steady : IsSteady x
  /-- What it makes has the property. -/
  holds : ∀ a, outcome x = .ok a → P a
  /-- It never meets an argument that cannot be read. -/
  ne_unreadable : ∀ u, outcome x ≠ .error (.unreadable u)

/-- Handing on a value. -/
theorem yields_pure {P : α → Prop} {a : α} (h : P a) : Yields P (pure a : Describing α) where
  steady := isSteady_pure a
  holds := by
    rintro _ ⟨⟩
    exact h
  ne_unreadable := nofun

/-- Meeting a violation. -/
theorem yields_refuse {P : α → Prop} (problem : Problem) (span : Span) :
    Yields P (refuse problem span : Describing α) where
  steady := isSteady_refuse problem span
  holds := nofun
  ne_unreadable := nofun

/-- Noting a finding. -/
theorem yields_note (problem : Problem) (span : Option Span) :
    Yields (fun _ => True) (note problem span) where
  steady := isSteady_note problem span
  holds := fun _ _ => trivial
  ne_unreadable := nofun

/-- Two steps, the second of which relies on the property that the first yields. -/
theorem Yields.bind {P : α → Prop} {Q : β → Prop} {x : Describing α} {f : α → Describing β}
    (hx : Yields P x) (hf : ∀ a, P a → Yields Q (f a)) : Yields Q (x >>= f) := by
  have hsteady : ∀ a, outcome x = .ok a → IsSteady (f a) :=
    fun a ha => (hf a (hx.holds a ha)).steady
  refine ⟨hx.steady.bind hsteady, fun b hb => ?_, fun u hu => ?_⟩
  · obtain ⟨a, ha, hb⟩ := (bind_eq_ok_iff hx.steady hsteady).mp hb
    exact (hf a (hx.holds a ha)).holds b hb
  · rcases (bind_eq_error_iff hx.steady hsteady).mp hu with hu | ⟨a, ha, hu⟩
    · exact hx.ne_unreadable u hu
    · exact (hf a (hx.holds a ha)).ne_unreadable u hu

/-- A step for every entry of a list. -/
theorem yields_forM {f : α → Describing PUnit} (hf : ∀ a, Yields (fun _ => True) (f a))
    (as : List α) : Yields (fun _ => True) (as.forM f) := by
  induction as with
  | nil => exact yields_pure trivial
  | cons a as ih => exact (hf a).bind fun _ _ => ih

/-- Noting findings meets no obstacle. -/
theorem outcome_notes (findings : List Finding) :
    outcome (findings.forM fun f => note f.problem f.span) = .ok () := by
  induction findings with
  | nil => rfl
  | cons f rest ih =>
    exact (outcome_bind (isSteady_note f.problem f.span) fun _ _ =>
      (yields_forM (fun f => yields_note f.problem f.span) rest).steady).trans ih

/-- After a step that reads no literal, two steps meet what the second meets. -/
theorem Yields.bind_eq_unreadable_iff {P : α → Prop} {x : Describing α} {f : α → Describing β}
    (hx : Yields P x) (hf : ∀ a, outcome x = .ok a → IsSteady (f a)) {u : Unreadable} :
    outcome (x >>= f) = .error (.unreadable u) ↔
      ∃ a, outcome x = .ok a ∧ outcome (f a) = .error (.unreadable u) := by
  rw [bind_eq_error_iff hx.steady hf]
  exact or_iff_right (hx.ne_unreadable u)

/-- Before a step that reads no literal, two steps meet what the first meets. -/
theorem bind_eq_unreadable_iff {Q : β → Prop} {x : Describing α} {f : α → Describing β}
    (hx : IsSteady x) (hf : ∀ a, Yields Q (f a)) {u : Unreadable} :
    outcome (x >>= f) = .error (.unreadable u) ↔ outcome x = .error (.unreadable u) := by
  rw [bind_eq_error_iff hx fun a _ => (hf a).steady]
  exact or_iff_left fun ⟨a, _, h⟩ => (hf a).ne_unreadable u h

/-! ### What steps make -/

/-- A step makes what has a property if it is steady, and what it makes has the property. -/
structure Makes (P : α → Prop) (x : Describing α) : Prop where
  /-- It is steady. -/
  steady : IsSteady x
  /-- What it makes has the property. -/
  holds : ∀ a, outcome x = .ok a → P a

/-- What a step yields is made by it. -/
theorem Yields.makes {P : α → Prop} {x : Describing α} (h : Yields P x) : Makes P x :=
  ⟨h.steady, h.holds⟩

/-- Handing on a value. -/
theorem makes_pure {P : α → Prop} {a : α} (h : P a) : Makes P (pure a : Describing α) :=
  (yields_pure h).makes

/-- Meeting an obstacle. -/
theorem makes_throw {P : α → Prop} (e : Obstacle) : Makes P (throw e : Describing α) where
  steady := isSteady_throw e
  holds := nofun

/-- Meeting a violation. -/
theorem makes_refuse {P : α → Prop} (problem : Problem) (span : Span) :
    Makes P (refuse problem span : Describing α) :=
  (yields_refuse problem span).makes

/-- Two steps, the second of which relies on the property of what the first makes. -/
theorem Makes.bind {P : α → Prop} {Q : β → Prop} {x : Describing α} {f : α → Describing β}
    (hx : Makes P x) (hf : ∀ a, P a → Makes Q (f a)) : Makes Q (x >>= f) := by
  have hsteady : ∀ a, outcome x = .ok a → IsSteady (f a) :=
    fun a ha => (hf a (hx.holds a ha)).steady
  refine ⟨hx.steady.bind hsteady, fun b hb => ?_⟩
  obtain ⟨a, ha, hb⟩ := (bind_eq_ok_iff hx.steady hsteady).mp hb
  exact (hf a (hx.holds a ha)).holds b hb

/-- What a step makes has every property that follows. -/
theorem Makes.mono {P Q : α → Prop} {x : Describing α} (hx : Makes P x) (h : ∀ a, P a → Q a) :
    Makes Q x :=
  ⟨hx.steady, fun a ha => h a (hx.holds a ha)⟩

end Errata.Descriptor
