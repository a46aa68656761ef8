import Errata.Proofs.CommandLine.Source

/-!
# Runs with several sources

The sources of a run are worked on one after the other, each in the session that the one before it
has left, until one of them ends the run.

* `Visit`, `visits`: the sources that are worked on, with the sessions before and after each.
* **`run_runSources`**: what a run comes to, told by its visits.
* `visits_invariant`: what every source preserves holds all along.
* **`fileAt?_left_of_not`**, **`fileAt?_left_of_isLastAt`**: a file holds what it held before, or
  the module that was written to it last.
* `directory_left`: directories are never lost.
-/

set_option linter.unusedSectionVars false

namespace Errata.CommandLine

open FileTree (Furnishes wayOf placeOf passed startOf HoldsNull)

/-! ### Visits -/

/-- A source that is worked on. -/
structure Visit where
  /-- The source. -/
  source : String
  /-- The session before. -/
  before : Session
  /-- How the run goes on. -/
  outcome : Except Interruption Nat
  /-- The session after. -/
  after : Session

namespace Visit

/-- The path of the source. -/
def path (v : Visit) : Path :=
  Path.ofString v.source

/-- The place of the module. -/
def place (plan : Plan) (v : Visit) : Place :=
  placeOf v.before.directory (plan.target v.path)

/-- Whether the module is written. -/
def Writes [Expression.Capacity]
    (plan : Plan) (v : Visit) (c : Compilation) (code : String) : Prop :=
  CommandLine.Writes plan v.path v.before v.after v.outcome c code

end Visit

variable [Expression.Capacity]

/-- The sources that are worked on. -/
def visits (plan : Plan) (s : Session) : List String → List Visit
  | [] => []
  | source :: rest =>
    match (runSource plan (Path.ofString source) : StateM Session _).run s with
    | (.ok status, s') => ⟨source, s, .ok status, s'⟩ :: visits plan s' rest
    | (.error why, s') => [⟨source, s, .error why, s'⟩]

/-- The gravest exit code of visits, unless one of them ends the run. -/
def gravest (status : Nat) (vs : List Visit) : Except Interruption Nat :=
  vs.foldlM (fun status v => v.outcome.map (max status)) status

/-- The session that visits leave. -/
def left (s : Session) : List Visit → Session
  | [] => s
  | v :: vs => left v.after vs

/-- A source that gives an exit code counts with the others. -/
theorem gravest_cons_of_ok {v : Visit} {own : Nat} (h : v.outcome = .ok own) (status : Nat)
    (vs : List Visit) : gravest status (v :: vs) = gravest (max status own) vs := by
  rw [gravest, List.foldlM_cons, h]
  rfl

/-- A source that gives none ends the run. -/
theorem gravest_cons_of_error {v : Visit} {why : Interruption} (h : v.outcome = .error why)
    (status : Nat) (vs : List Visit) : gravest status (v :: vs) = .error why := by
  rw [gravest, List.foldlM_cons, h]
  rfl

variable {plan : Plan} {s : Session} {sources : List String} {source : String}

/-- The first source ends the run, or the others are worked on after it. -/
theorem visits_cons (plan : Plan) (s : Session) (source : String) (rest : List String) :
    ∃ outcome s', (runSource plan (Path.ofString source) : StateM Session _).run s = (outcome, s') ∧
      Course plan (Path.ofString source) s outcome s' ∧
      ((∃ why, outcome = .error why ∧
          visits plan s (source :: rest) = [⟨source, s, outcome, s'⟩]) ∨
        ∃ status, outcome = .ok status ∧
          visits plan s (source :: rest) = ⟨source, s, outcome, s'⟩ :: visits plan s' rest) := by
  obtain ⟨outcome, s', hrun, hcourse⟩ := course_runSource plan (Path.ofString source) s
  refine ⟨outcome, s', hrun, hcourse, ?_⟩
  rw [visits, hrun]
  cases outcome with
  | error why => exact Or.inl ⟨why, rfl, rfl⟩
  | ok status => exact Or.inr ⟨status, rfl, rfl⟩

/-- **What a run comes to** is told by its visits. -/
theorem run_runSources (plan : Plan) (status : Nat) (sources : List String) (s : Session) :
    (runSources plan status sources : StateM Session _).run s =
      (gravest status (visits plan s sources), left s (visits plan s sources)) := by
  induction sources generalizing status s with
  | nil => rfl
  | cons source rest ih =>
    obtain ⟨outcome, s', hrun, -, ⟨why, rfl, hvisits⟩ | ⟨next, rfl, hvisits⟩⟩ :=
      visits_cons plan s source rest
    · rw [runSources, StateT.run_bind, hrun, hvisits]
      rfl
    · rw [runSources, StateT.run_bind, hrun, hvisits, gravest_cons_of_ok rfl]
      show (runSources plan (max status next) rest : StateM Session _).run s' = _
      rw [ih]
      rfl

/-- **What every source preserves** holds before and after each of them, and in the end. -/
theorem visits_invariant (P : Session → Prop) (hs : P s)
    (hstep : ∀ source ∈ sources, ∀ s outcome s', Course plan (Path.ofString source) s outcome s' →
      P s → P s') :
    (∀ v ∈ visits plan s sources, P v.before ∧ P v.after) ∧ P (left s (visits plan s sources)) := by
  induction sources generalizing s with
  | nil => exact ⟨List.forall_mem_nil _, hs⟩
  | cons source rest ih =>
    obtain ⟨outcome, s', -, hcourse, ⟨why, -, hvisits⟩ | ⟨next, -, hvisits⟩⟩ :=
      visits_cons plan s source rest
    all_goals have hnext : P s' := hstep source List.mem_cons_self s outcome s' hcourse hs
    · rw [hvisits]
      exact ⟨List.forall_mem_singleton.mpr ⟨hs, hnext⟩, hnext⟩
    · have hrest := ih hnext fun source hsource => hstep source (List.mem_cons_of_mem _ hsource)
      rw [hvisits]
      exact ⟨List.forall_mem_cons.mpr ⟨⟨hs, hnext⟩, hrest.1⟩, hrest.2⟩

/-- What is done at a visit. -/
theorem course_visit {v : Visit} (hv : v ∈ visits plan s sources) :
    v.source ∈ sources ∧ Course plan v.path v.before v.outcome v.after := by
  induction sources generalizing s with
  | nil => cases hv
  | cons source rest ih =>
    obtain ⟨outcome, s', -, hcourse, ⟨why, -, hvisits⟩ | ⟨next, -, hvisits⟩⟩ :=
      visits_cons plan s source rest
    · rw [hvisits, List.mem_singleton] at hv
      subst hv
      exact ⟨List.mem_cons_self, hcourse⟩
    · rw [hvisits] at hv
      rcases List.mem_cons.mp hv with rfl | hv
      · exact ⟨List.mem_cons_self, hcourse⟩
      · exact (ih hv).imp_left (List.mem_cons_of_mem _)

/-- The working directory is the same before every source. -/
theorem directory_visit {v : Visit} (hv : v ∈ visits plan s sources) :
    v.before.directory = s.directory ∧ v.after.directory = s.directory :=
  (visits_invariant (fun s' => s'.directory = s.directory) rfl
    fun _ _ _ _ _ hcourse hs => hcourse.directory_eq.trans hs).1 v hv

/-- The working directory is the same in the end. -/
theorem directory_left_eq : (left s (visits plan s sources)).directory = s.directory :=
  (visits_invariant (fun s' => s'.directory = s.directory) rfl
    fun _ _ _ _ _ hcourse hs => hcourse.directory_eq.trans hs).2

/-- What follows a visit are the visits of a run that starts where it ends. -/
theorem visits_split {vs₁ vs₂ : List Visit} {v : Visit}
    (h : visits plan s sources = vs₁ ++ v :: vs₂) :
    ∃ rest, vs₂ = visits plan v.after rest ∧
      left s (visits plan s sources) = left v.after (visits plan v.after rest) := by
  induction vs₁ generalizing s sources with
  | nil =>
    cases sources with
    | nil => cases h
    | cons source rest =>
      obtain ⟨outcome, s', -, -, ⟨why, -, hvisits⟩ | ⟨next, -, hvisits⟩⟩ :=
        visits_cons plan s source rest
      · rw [hvisits] at h ⊢
        cases h
        exact ⟨[], rfl, rfl⟩
      · rw [hvisits] at h ⊢
        cases h
        exact ⟨rest, rfl, rfl⟩
  | cons first vs₁ ih =>
    cases sources with
    | nil => cases h
    | cons source rest =>
      obtain ⟨outcome, s', -, -, ⟨why, -, hvisits⟩ | ⟨next, -, hvisits⟩⟩ :=
        visits_cons plan s source rest
      · rw [hvisits] at h
        cases vs₁ <;> cases h
      · rw [hvisits] at h ⊢
        obtain ⟨rfl, hrest⟩ := List.cons.inj h
        exact ih hrest

/-! ### Exit codes -/

/-- A run ends with an exit code exactly if no source ends it. Then every source is worked on, and
the gravest exit code counts. -/
theorem gravest_eq_ok_iff {status start : Nat} {vs : List Visit} :
    gravest start vs = .ok status ↔
      (∀ v ∈ vs, ∃ own ≤ status, v.outcome = .ok own) ∧ start ≤ status ∧
        (status = start ∨ ∃ v ∈ vs, v.outcome = .ok status) := by
  induction vs generalizing start with
  | nil =>
    have hnone : gravest start [] = .ok start := rfl
    rw [hnone]
    constructor
    · rintro ⟨⟩
      exact ⟨List.forall_mem_nil _, Nat.le_refl _, Or.inl rfl⟩
    · rintro ⟨-, -, rfl | ⟨v, hv, -⟩⟩
      · rfl
      · cases hv
  | cons v vs ih =>
    cases hv : v.outcome with
    | error why =>
      rw [gravest_cons_of_error hv]
      apply iff_of_false nofun
      intro h
      obtain ⟨own, -, hown⟩ := h.1 v List.mem_cons_self
      cases hv.symm.trans hown
    | ok own =>
      rw [gravest_cons_of_ok hv, ih, List.forall_mem_cons, List.exists_mem_cons_iff, hv]
      constructor
      · rintro ⟨hall, hle, hgreatest⟩
        refine ⟨⟨⟨own, by omega, rfl⟩, hall⟩, by omega, ?_⟩
        rcases hgreatest with rfl | hlater
        · rcases Nat.le_total own start with hown | hown
          · exact Or.inl (Nat.max_eq_left hown)
          · exact Or.inr (Or.inl (by rw [Nat.max_eq_right hown]))
        · exact Or.inr (Or.inr hlater)
      · rintro ⟨⟨⟨own', hown, heq⟩, hall⟩, hle, hgreatest⟩
        obtain rfl := Except.ok.inj heq
        refine ⟨hall, by omega, ?_⟩
        rcases hgreatest with rfl | heq | hlater
        · exact Or.inl (by omega)
        · obtain rfl := Except.ok.inj heq
          exact Or.inl (by omega)
        · exact Or.inr hlater

/-- There is a gravest exit code if every source gives one. -/
theorem exists_gravest {vs : List Visit} (h : ∀ v ∈ vs, ∃ own, v.outcome = .ok own)
    (start : Nat) : ∃ status, gravest start vs = .ok status := by
  induction vs generalizing start with
  | nil => exact ⟨start, rfl⟩
  | cons v vs ih =>
    obtain ⟨own, hown⟩ := h v List.mem_cons_self
    rw [gravest_cons_of_ok hown]
    exact ih (fun w hw => h w (List.mem_cons_of_mem _ hw)) _

/-- Every source is worked on unless one of them ends the run. -/
theorem map_source_visits (h : ∀ v ∈ visits plan s sources, ∃ own, v.outcome = .ok own) :
    (visits plan s sources).map Visit.source = sources := by
  induction sources generalizing s with
  | nil => rfl
  | cons source rest ih =>
    obtain ⟨outcome, s', -, -, ⟨why, rfl, hvisits⟩ | ⟨next, rfl, hvisits⟩⟩ :=
      visits_cons plan s source rest
    · rw [hvisits] at h
      obtain ⟨own, hown⟩ := h _ (List.mem_singleton_self _)
      cases hown
    · rw [hvisits] at h ⊢
      rw [List.map_cons, ih fun v hv => h v (List.mem_cons_of_mem _ hv)]

/-! ### Files -/

/-- A source leaves the directories. -/
theorem Course.directory {p : Path} {s s' : Session} {outcome : Except Interruption Nat}
    (h : Course plan p s outcome s') {q : Place} (hq : s.tree.get? q = some .directory) :
    s'.tree.get? q = some .directory := by
  rcases h.writes_or_keeps with ⟨c, code, hwrites⟩ | hkeeps
  · have hne : q ≠ placeOf s.directory (plan.target p) := by
      rintro rfl
      exact hwrites.admitted.notDirectory hq
    rcases hwrites.stored.rest q hne with heq | ⟨-, hnone, -⟩
    · exact heq.trans hq
    · cases hnone.symm.trans hq
  · exact hkeeps.furnished.directory hq

/-- **Directories are never lost.** -/
theorem directory_left {q : Place} (hq : s.tree.get? q = some .directory) :
    (left s (visits plan s sources)).tree.get? q = some .directory :=
  (visits_invariant (fun s' => s'.tree.get? q = some .directory) hq
    fun _ _ _ _ _ hcourse hs => hcourse.directory hs).2

/-- A source leaves every file but that of its module. -/
theorem Course.fileAt?_eq {p : Path} {s s' : Session} {outcome : Except Interruption Nat}
    (h : Course plan p s outcome s') {q : Place}
    (hq : ∀ c code, Writes plan p s s' outcome c code → q ≠ placeOf s.directory (plan.target p)) :
    s'.tree.fileAt? q = s.tree.fileAt? q := by
  rcases h.writes_or_keeps with ⟨c, code, hwrites⟩ | hkeeps
  · exact hwrites.stored.fileAt?_eq (hq c code hwrites)
  · exact hkeeps.furnished.fileAt?_eq q

/-- Whether a visit writes a module to a place. -/
def Visit.WritesAt (plan : Plan) (q : Place) (v : Visit) : Prop :=
  v.place plan = q ∧ ∃ c code, v.Writes plan c code

/-- Whether a visit is the last of several that write to a place. -/
def IsLastAt (plan : Plan) (q : Place) (vs : List Visit) (v : Visit) : Prop :=
  ∃ vs₁ vs₂, vs = vs₁ ++ v :: vs₂ ∧ v.WritesAt plan q ∧ ∀ w ∈ vs₂, ¬w.WritesAt plan q

/-- **A file holds what it held before** if no module was written to its place. -/
theorem fileAt?_left_of_not {q : Place}
    (h : ∀ v ∈ visits plan s sources, ¬v.WritesAt plan q) :
    (left s (visits plan s sources)).tree.fileAt? q = s.tree.fileAt? q := by
  induction sources generalizing s with
  | nil => rfl
  | cons source rest ih =>
    obtain ⟨outcome, s', -, hcourse, hvisits⟩ := visits_cons plan s source rest
    have hfirst : (⟨source, s, outcome, s'⟩ : Visit) ∈ visits plan s (source :: rest) := by
      rcases hvisits with ⟨why, -, hvisits⟩ | ⟨next, -, hvisits⟩
      · rw [hvisits]
        exact List.mem_singleton_self _
      · rw [hvisits]
        exact List.mem_cons_self
    have hkept : s'.tree.fileAt? q = s.tree.fileAt? q := by
      apply hcourse.fileAt?_eq
      intro c code hwrites hplace
      exact h _ hfirst ⟨hplace.symm, c, code, hwrites⟩
    rcases hvisits with ⟨why, -, hvisits⟩ | ⟨next, -, hvisits⟩
    · rw [hvisits]
      exact hkept
    · rw [hvisits] at h ⊢
      exact (ih fun v hv => h v (List.mem_cons_of_mem _ hv)).trans hkept

/-- **A file holds the module that was written to its place last.** -/
theorem fileAt?_left_of_isLastAt {q : Place} {v : Visit} {c : Compilation} {code : String}
    (h : IsLastAt plan q (visits plan s sources) v) (hwrites : v.Writes plan c code) :
    (left s (visits plan s sources)).tree.fileAt? q = some (Bytes.encode code.toList) := by
  obtain ⟨vs₁, vs₂, hvs, ⟨rfl, -⟩, hlater⟩ := h
  obtain ⟨rest, rfl, hleft⟩ := visits_split hvs
  rw [hleft, fileAt?_left_of_not hlater]
  exact hwrites.stored.fileAt?_self

/-- Of the visits that write to a place, one is the last. -/
theorem exists_isLastAt {q : Place} {vs : List Visit} (h : ∃ v ∈ vs, v.WritesAt plan q) :
    ∃ v, IsLastAt plan q vs v := by
  induction vs with
  | nil =>
    obtain ⟨v, hv, -⟩ := h
    cases hv
  | cons first vs ih =>
    by_cases hlater : ∃ v ∈ vs, v.WritesAt plan q
    · obtain ⟨v, vs₁, vs₂, rfl, hv, hlast⟩ := ih hlater
      exact ⟨v, first :: vs₁, vs₂, rfl, hv, hlast⟩
    · obtain ⟨v, hv, hwrites⟩ := h
      rcases List.mem_cons.mp hv with rfl | hv
      · exact ⟨v, [], vs, rfl, hwrites, fun w hw hother => hlater ⟨w, hw, hother⟩⟩
      · exact absurd ⟨v, hv, hwrites⟩ hlater

/-- The file of a module is found where it was written. -/
theorem read_left {v : Visit} {c : Compilation} {code : String} {content : List UInt8}
    (hv : v ∈ visits plan s sources) (hwrites : v.Writes plan c code) :
    (left s (visits plan s sources)).tree.read s.directory (plan.target v.path) = .ok content ↔
      (left s (visits plan s sources)).tree.fileAt? (v.place plan) = some content := by
  obtain ⟨hbefore, hafter⟩ := directory_visit hv
  obtain ⟨vs₁, vs₂, hvs⟩ := List.append_of_mem hv
  obtain ⟨rest, -, hleft⟩ := visits_split hvs
  have hlocate : (left s (visits plan s sources)).tree.locate s.directory (plan.target v.path) =
      .ok (v.place plan) := by
    rw [← hbefore]
    apply FileTree.locate_eq_ok_iff.mpr
    refine ⟨hwrites.admitted.exists_path, fun q hq => ?_, rfl⟩
    rw [hleft]
    apply directory_left
    exact hwrites.stored.way q (FileTree.passed_subset _ _ hq)
  rw [FileTree.read_eq_ok_iff, hlocate]
  simp only [Except.ok.injEq, exists_eq_left']

end Errata.CommandLine
