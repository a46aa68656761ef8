import Errata.Proofs.CommandLine.Sources

/-!
# What a command line comes to

A command line comes to a plan, and the run works on its sources, or the run ends without one and
has only written to the streams.

* `Prospect`, `prospect`: what a command line comes to in a session.
* **`run_of_planned`**, **`run_of_ended`**: what a run does.
* `exists_settings_of_small_status`: a run with a small exit code had a plan.
-/

namespace Errata.CommandLine

open Session (Prints)

/-! ### Plans -/

/-- What a command line comes to. -/
inductive Prospect where
  /-- A plan for its sources. -/
  | planned (plan : Plan)
  /-- An ending without one. -/
  | ended (outcome : Except Interruption Nat)

/-- Whether one path is given for the modules of several sources. -/
def Arguments.isMisused (a : Arguments) : Bool :=
  (given a.out).isSome && 1 < a.sources.length

/-- How a run ends without settings. -/
def endingWith (fault : Settings.Fault) : Except Interruption Nat :=
  match fault.complaint? with
  | some _ => .ok 2
  | none => .error (.settings fault)

/-- What arguments come to in a session. -/
def Arguments.prospect (a : Arguments) (s : Session) : Prospect :=
  if a.version then .ended (.ok 0)
  else if a.sources.isEmpty || a.isMisused then .ended (.ok 2)
  else
    match s.settings with
    | .ok settings => .planned (.ofSettings a settings)
    | .error fault => .ended (endingWith fault)

/-- What a command line comes to in a session. -/
def prospect (words : List String) (s : Session) : Prospect :=
  match Request.ofWords words with
  | .error _ => .ended (.ok 2)
  | .ok .help => .ended (.ok 0)
  | .ok (.work a) => a.prospect s

variable {versions : Versions} {words : List String} {a : Arguments} {plan : Plan}
  {s s' : Session} {outcome : Except Interruption Nat}

/-- What a command line comes to that asks for work. -/
theorem prospect_of_work (hwords : Request.ofWords words = .ok (.work a)) (s : Session) :
    prospect words s = a.prospect s := by
  rw [prospect, hwords]

/-- A plan is made of what is asked for and of the settings. -/
theorem Arguments.prospect_eq_planned_iff :
    a.prospect s = .planned plan ↔ a.version = false ∧ a.sources ≠ [] ∧ a.isMisused = false ∧
      ∃ settings, s.settings = .ok settings ∧ plan = .ofSettings a settings := by
  rw [prospect]
  cases a.version with
  | true => exact iff_of_false nofun fun h => Bool.noConfusion h.1
  | false =>
    cases hsources : a.sources.isEmpty with
    | true =>
      rw [List.isEmpty_iff] at hsources
      exact iff_of_false nofun fun h => h.2.1 hsources
    | false =>
      rw [List.isEmpty_eq_false_iff] at hsources
      cases a.isMisused with
      | true => exact iff_of_false nofun fun h => Bool.noConfusion h.2.2.1
      | false =>
        simp only [Bool.false_eq_true, if_false, Bool.or_self, true_and, ne_eq, hsources,
          not_false_eq_true]
        cases s.settings with
        | error fault => exact iff_of_false nofun (by rintro ⟨settings, ⟨⟩, -⟩)
        | ok settings => simp [eq_comm]

/-! ### Runs without a plan -/

/-- What is written before an outcome is given. -/
theorem exists_prints_then {x : StateM Session Unit} (hx : ∃ shown found, Prints x () shown found)
    (outcome : Except Interruption Nat) :
    ∃ shown found, Prints (x >>= fun _ => pure outcome) outcome shown found :=
  Session.exists_prints_bind hx ⟨_, _, Prints.pure outcome⟩

/-- A complaint is written. -/
theorem exists_prints_complain (complaint : String) :
    ∃ shown found, Prints
      (do return .ok (← complain complaint) : StateM Session (Except Interruption Nat))
      (.ok 2) shown found :=
  ⟨_, _, run_complain complaint⟩

/-- Settings that are not found lead to a complaint or to nothing. -/
theorem exists_prints_fault (fault : Settings.Fault) :
    ∃ shown found, Prints (match fault.complaint? with
      | some complaint => do return .ok (← complain complaint)
      | none => return .error (.settings fault) : StateM Session (Except Interruption Nat))
      (endingWith fault) shown found := by
  unfold endingWith
  split
  · exact exists_prints_complain _
  · exact ⟨_, _, Prints.pure _⟩

variable [Expression.Capacity]

/-- What is done with arguments with which nothing is wrong. -/
theorem work_eq {m : Type → Type} [Monad m] [Host m] (hversion : a.version = false)
    (hsources : a.sources.isEmpty = false) (hmisused : a.isMisused = false) :
    (work versions a : m _) = (do
      match ← Settings.load {} with
      | .ok settings => runSources (.ofSettings a settings) 0 a.sources
      | .error fault =>
        match fault.complaint? with
        | some complaint => return .ok (← complain complaint)
        | none => return .error (.settings fault)) := by
  rw [Arguments.isMisused] at hmisused
  rw [work, hversion, hsources, hmisused]
  rfl

/-- Arguments that come to no plan. -/
theorem work_of_ended (h : a.prospect s = .ended outcome) :
    ∃ shown found,
      (work versions a : StateM Session _).run s = (outcome, s.print shown found) := by
  have hprints : ∀ {x : StateM Session (Except Interruption Nat)},
      (∃ shown found, Prints x outcome shown found) →
      ∃ shown found, x.run s = (outcome, s.print shown found) := by
    rintro x ⟨shown, found, hx⟩
    exact ⟨shown, found, hx s⟩
  rw [Arguments.prospect] at h
  cases hversion : a.version with
  | true =>
    rw [if_pos hversion] at h
    cases h
    rw [work, if_pos hversion]
    exact hprints (exists_prints_then ⟨_, _, Session.prints_output _⟩ _)
  | false =>
    rw [if_neg (by simp [hversion])] at h
    split at h
    · next hwrong =>
      cases h
      apply hprints
      rw [work, hversion, if_neg Bool.false_ne_true]
      cases hsources : a.sources.isEmpty with
      | true => exact exists_prints_complain _
      | false =>
        have hmisused : ((given a.out).isSome && decide (1 < a.sources.length)) = true := by
          rwa [hsources, Bool.false_or] at hwrong
        rw [if_neg Bool.false_ne_true, if_pos hmisused]
        exact exists_prints_complain _
    · next hright =>
      rw [Bool.or_eq_true, not_or, Bool.not_eq_true, Bool.not_eq_true] at hright
      rw [work_eq hversion hright.1 hright.2, StateT.run_bind, Session.run_load]
      cases hsettings : s.settings with
      | ok settings =>
        rw [hsettings] at h
        cases h
      | error fault =>
        rw [hsettings] at h
        cases h
        exact hprints (exists_prints_fault fault)

/-- **A run without a plan** only writes to the streams. -/
theorem run_of_ended (h : prospect words s = .ended outcome) :
    ∃ shown found,
      (run versions words : StateM Session _).run s = (outcome, s.print shown found) := by
  rw [prospect] at h
  rw [run]
  cases hwords : Request.ofWords words with
  | error misuse =>
    rw [hwords] at h
    cases h
    obtain ⟨shown, found, hprints⟩ := exists_prints_then
      ⟨_, _, Session.prints_complaints misuse.report⟩ (.ok 2)
    exact ⟨shown, found, hprints s⟩
  | ok request =>
    rw [hwords] at h
    cases request with
    | help =>
      cases h
      obtain ⟨shown, found, hprints⟩ := exists_prints_then
        ⟨_, _, Session.prints_output helpText⟩ (.ok 0)
      exact ⟨shown, found, hprints s⟩
    | work a => exact work_of_ended h

/-! ### Runs with a plan -/

/-- Arguments that come to a plan. -/
theorem work_of_planned (h : a.prospect s = .planned plan) :
    (work versions a : StateM Session _).run s =
      (gravest 0 (visits plan s plan.arguments.sources),
        left s (visits plan s plan.arguments.sources)) := by
  obtain ⟨hversion, hsources, hmisused, settings, hsettings, rfl⟩ :=
    Arguments.prospect_eq_planned_iff.mp h
  rw [work_eq hversion (List.isEmpty_eq_false_iff.mpr hsources) hmisused, StateT.run_bind,
    Session.run_load, hsettings]
  exact run_runSources _ 0 a.sources s

/-- **A run with a plan** works on its sources. -/
theorem run_of_planned (h : prospect words s = .planned plan) :
    (run versions words : StateM Session _).run s =
      (gravest 0 (visits plan s plan.arguments.sources),
        left s (visits plan s plan.arguments.sources)) := by
  rw [prospect] at h
  rw [run]
  cases hwords : Request.ofWords words with
  | error misuse =>
    rw [hwords] at h
    cases h
  | ok request =>
    rw [hwords] at h
    cases request with
    | help => cases h
    | work a => exact work_of_planned h

/-- A run with a small exit code that is asked to work has a plan. -/
theorem exists_settings_of_small_status {status : Nat}
    (hwords : Request.ofWords words = .ok (.work a)) (hversion : a.version = false)
    (hrun : (run versions words : StateM Session _).run s = (.ok status, s'))
    (hstatus : status ≤ 1) :
    ∃ settings, s.settings = .ok settings ∧
      a.prospect s = .planned (.ofSettings a settings) := by
  cases hprospect : a.prospect s with
  | planned plan =>
    obtain ⟨-, -, -, settings, hsettings, rfl⟩ := Arguments.prospect_eq_planned_iff.mp hprospect
    exact ⟨settings, hsettings, rfl⟩
  | ended outcome =>
    obtain rfl : outcome = .ok status := by
      obtain ⟨shown, found, hended⟩ := run_of_ended ((prospect_of_work hwords s).trans hprospect)
      exact congrArg Prod.fst (hended.symm.trans hrun)
    rw [Arguments.prospect, hversion, if_neg Bool.false_ne_true] at hprospect
    split at hprospect
    · cases hprospect
      omega
    · split at hprospect
      · cases hprospect
      · next fault _ =>
        rw [endingWith] at hprospect
        split at hprospect <;> cases hprospect
        omega

end Errata.CommandLine
