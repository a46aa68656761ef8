import Errata.Proofs.CommandLine.Encoding

/-!
# Exit codes of runs

A run works on every source, whatever comes of those before it, and ends with the gravest of their
exit codes, unless one of them interrupts it: a file whose bytes are the encoding of no text, a path
with a null character, an argument that the reader of expressions gives up on, or, where modules are
compared, a module that is there and cannot be read. A run is interrupted as well where something is
to be written that has no encoding, such as the name of a file that is the encoding of no text.

* `Interrupts`: what interrupts a run; **`verdict_isError_iff`**: nothing else does, where every
  text has an encoding.
* `work_singleton`: what comes of a source on its own.
* `Attempts`: what a run with a plan comes to.
* **`run_attempts_every_source`**: that is what every run comes to that is asked for work.
* `not_run_ends`: a run is interrupted by a source whose bytes are the encoding of no text.
-/

namespace Errata.CommandLine

open FileTree (placeOf)

variable {plan : Plan} {s s' : Session} {source : Path} {sources : List String}

/-! ### Interruptions -/

section

variable [Expression.Capacity]

/-- What interrupts a run that comes to a source. -/
inductive Interrupts (plan : Plan) (source : Path) (s : Session) : Prop where
  /-- Its bytes are the encoding of no text, or there is no such path. -/
  | untold {fault : Files.TextFault} (htext : s.text source = .error fault)
      (hfault : ∀ why path, fault ≠ .file (.refused why path))
  /-- It cannot be compiled. -/
  | uncompiled {text : String} {fault : CompileFault} (htext : s.text source = .ok text)
      (hcompile : compile plan.options text (toString source) = .error fault)
  /-- What is compared with its module is there and cannot be read. -/
  | uncompared {text code : String} {c : Compilation} {fault : Files.TextFault}
      (htext : s.text source = .ok text)
      (hcompile : compile plan.options text (toString source) = .ok c) (hcode : c.code = some code)
      (hmode : plan.arguments.stdout = false) (hcheck : plan.arguments.check = true)
      (hheld : s.text (plan.target source) = .error fault)
      (hfault : ∀ path, fault ≠ .file (.refused .missing path))
  /-- There is no such path as that of its module. -/
  | unnamed {text code : String} {c : Compilation} (htext : s.text source = .ok text)
      (hcompile : compile plan.options text (toString source) = .ok c) (hcode : c.code = some code)
      (hmode : plan.arguments.stdout = false) (hcheck : plan.arguments.check = false)
      (hnull : s.tree.IsUnnamed s.directory (plan.target source))

/-- A run goes on after a module unless what it is compared with cannot be read, or there is no such
path as its own. -/
theorem verdict_isError_iff_of_code {text code : String} {c : Compilation}
    (htext : s.text source = .ok text)
    (hcompile : compile plan.options text (toString source) = .ok c) (hcode : c.code = some code) :
    (∃ why, verdict plan source s = .error why) ↔ plan.arguments.stdout = false ∧
      (plan.arguments.check = true ∧ (∃ fault, s.text (plan.target source) = .error fault ∧
          ∀ path, fault ≠ .file (.refused .missing path)) ∨
        plan.arguments.check = false ∧ s.tree.IsUnnamed s.directory (plan.target source)) := by
  rw [verdict_of_code htext hcompile hcode]
  cases plan.arguments.stdout with
  | true => simp
  | false =>
    cases plan.arguments.check with
    | true =>
      simp only [Bool.false_eq_true, if_false, if_true, true_and, Bool.true_eq_false, false_and,
        or_false]
      split
      · next held hheld =>
        apply iff_of_false
        · split <;> simp
        · rintro ⟨fault, hother, -⟩
          cases hheld.symm.trans hother
      · next path hheld =>
        apply iff_of_false (by simp)
        rintro ⟨fault, hother, hfault⟩
        cases hheld.symm.trans hother
        exact hfault _ rfl
      · next fault hfault hheld =>
        refine iff_of_true ⟨_, rfl⟩ ⟨fault, hheld, ?_⟩
        rintro path rfl
        exact hfault _ rfl
    | false =>
      simp only [Bool.false_eq_true, if_false, false_and, true_and, false_or]
      by_cases hnull : s.tree.IsUnnamed s.directory (plan.target source)
      · simp [hnull]
      · rw [if_neg hnull]
        apply iff_of_false _ hnull
        split <;> simp

/-- **Nothing else interrupts a run.** -/
theorem verdict_isError_iff :
    (∃ why, verdict plan source s = .error why) ↔ Interrupts plan source s := by
  cases htext : s.text source with
  | error fault =>
    by_cases hfault : ∃ why path, fault = .file (.refused why path)
    · obtain ⟨why, path, rfl⟩ := hfault
      rw [verdict_of_refused htext]
      apply iff_of_false (by simp)
      intro h
      cases h with
      | untold htext' hfault =>
        cases htext.symm.trans htext'
        exact hfault _ _ rfl
      | uncompiled htext' | uncompared htext' | unnamed htext' => cases htext.symm.trans htext'
    · simp only [not_exists] at hfault
      rw [verdict_of_error htext hfault]
      exact iff_of_true ⟨_, rfl⟩ (.untold htext hfault)
  | ok text =>
    cases hcompile : compile plan.options text (toString source) with
    | error fault =>
      rw [verdict_of_text htext (by simp [hcompile]), hcompile]
      exact iff_of_true ⟨_, rfl⟩ (.uncompiled htext hcompile)
    | ok c =>
      have hread : ∀ {text' : String}, s.text source = .ok text' → text' = text := by
        intro text' htext'
        exact (Except.ok.inj (htext.symm.trans htext')).symm
      cases hcode : c.code with
      | none =>
        rw [verdict_of_text htext (by simp [hcompile, hcode]), hcompile]
        apply iff_of_false (by simp)
        intro h
        cases h with
        | untold htext' => cases htext.symm.trans htext'
        | uncompiled htext' hcompile' =>
          obtain rfl := hread htext'
          cases hcompile.symm.trans hcompile'
        | uncompared htext' hcompile' hcode' | unnamed htext' hcompile' hcode' =>
          obtain rfl := hread htext'
          cases hcompile.symm.trans hcompile'
          cases hcode.symm.trans hcode'
      | some code =>
        rw [verdict_isError_iff_of_code htext hcompile hcode]
        constructor
        · rintro ⟨hmode, ⟨hcheck, fault, hheld, hfault⟩ | ⟨hcheck, hnull⟩⟩
          · exact .uncompared htext hcompile hcode hmode hcheck hheld hfault
          · exact .unnamed htext hcompile hcode hmode hcheck hnull
        · intro h
          cases h with
          | untold htext' => cases htext.symm.trans htext'
          | uncompiled htext' hcompile' =>
            obtain rfl := hread htext'
            cases hcompile.symm.trans hcompile'
          | uncompared _ _ _ hmode hcheck hheld hfault =>
            exact ⟨hmode, Or.inl ⟨hcheck, _, hheld, hfault⟩⟩
          | unnamed _ _ _ hmode hcheck hnull => exact ⟨hmode, Or.inr ⟨hcheck, hnull⟩⟩

/-- An exit code is at most two. -/
theorem le_two_of_verdict {status : Nat} (h : verdict plan source s = .ok status) : status ≤ 2 := by
  have hexit : ∀ c : Compilation, c.exitCode ≤ 2 := by
    intro c
    unfold Compilation.exitCode
    split_ifs <;> omega
  unfold verdict at h
  repeat' split at h
  all_goals cases h
  all_goals first | omega | exact hexit _

/-! ### A source on its own -/

/-- A single source is worked on in the session at the start. -/
theorem exists_visits_singleton (plan : Plan) (source : String) (s : Session) :
    ∃ v, visits plan s [source] = [v] ∧ v.source = source ∧ v.before = s := by
  obtain ⟨outcome, s', -, -, ⟨why, -, hvisits⟩ | ⟨own, -, hvisits⟩⟩ := visits_cons plan s source []
  · exact ⟨_, hvisits, rfl, rfl⟩
  · exact ⟨_, hvisits, rfl, rfl⟩

/-- The exit code of a single source counts. -/
theorem gravest_visits_singleton (plan : Plan) (source : String) (s : Session) :
    gravest 0 (visits plan s [source]) = verdict plan (Path.ofString source) s ∧
      ∀ v ∈ visits plan s [source], v.before = s := by
  obtain ⟨v, hvisits, rfl, rfl⟩ := exists_visits_singleton plan source s
  have hverdict := (course_visit (hvisits ▸ List.mem_singleton_self v)).2.verdict_eq
  rw [hvisits]
  refine ⟨?_, List.forall_mem_singleton.mpr rfl⟩
  show _ = verdict plan v.path v.before
  rw [hverdict]
  cases houtcome : v.outcome with
  | error why => exact gravest_cons_of_error houtcome 0 []
  | ok own =>
    rw [gravest_cons_of_ok houtcome, Nat.zero_max]
    rfl

/-- What is refused of a source does not depend on the others. -/
theorem Refuses.of_sources [Encodings] {a : Arguments} {settings : Settings} {source : Path}
    (h : Refuses (.ofSettings a settings) source s) (sources : List String) :
    Refuses (.ofSettings { a with sources } settings) source s := by
  cases h with
  | compiling htext h =>
    refine .compiling htext ?_
    cases h with
    | tree hasked hparse htree hcode => exact .tree hasked hparse htree hcode
    | descriptor hasked hparse hbuild hdump hcode =>
      exact .descriptor hasked hparse hbuild hdump hcode
  | delivering htext hcompile hcode h =>
    refine .delivering htext hcompile hcode ?_
    cases h with
    | shown hmode hcode => exact .shown hmode hcode
    | written hmode hcheck hadmits hcode => exact .written hmode hcheck hadmits hcode
    | told hmode hcheck hadmits hcode => exact .told hmode hcheck hadmits hcode

/-- **A source on its own** comes to its own exit code, unless something has no encoding. -/
theorem work_singleton [Encodings] (versions : Versions) {a : Arguments} {settings : Settings}
    (hversion : a.version = false) (hsettings : s.settings = .ok settings) (source : String) :
    (¬Refuses (.ofSettings a settings) (Path.ofString source) s →
      ∃ s', (work versions { a with sources := [source] } : Strict _).runIn s =
        (.ok (verdict (.ofSettings a settings) (Path.ofString source) s), s')) ∧
    (Refuses (.ofSettings a settings) (Path.ofString source) s →
      ∃ u s', (work versions { a with sources := [source] } : Strict _).runIn s =
        (.error u, s')) := by
  have hplanned : Arguments.prospect { a with sources := [source] } s =
      .planned (.ofSettings { a with sources := [source] } settings) := by
    apply Arguments.prospect_eq_planned_iff.mpr
    refine ⟨hversion, List.cons_ne_nil _ _, ?_, settings, hsettings, rfl⟩
    simp [Arguments.isMisused]
  have hrefuses : Arguments.Refuses versions { a with sources := [source] } s ↔
      Refuses (.ofSettings a settings) (Path.ofString source) s := by
    rw [Arguments.refuses_iff_of_planned hplanned]
    obtain ⟨v, hvisits, rfl, rfl⟩ := exists_visits_singleton
      (.ofSettings { a with sources := [source] } settings) source s
    show (∃ w ∈ visits _ _ [v.source], _) ↔ _
    rw [hvisits]
    simp only [List.mem_singleton, exists_eq_left]
    exact ⟨fun h => h.of_sources a.sources, fun h => h.of_sources [v.source]⟩
  have hagrees := (agrees_work versions { a with sources := [source] } s).congr hrefuses
  refine ⟨fun h => ?_, hagrees.ended⟩
  have hdone := hagrees.done h
  rw [work_of_planned hplanned] at hdone
  exact ⟨_, hdone.trans (Prod.ext (congrArg Except.ok (gravest_visits_singleton _ source s).1) rfl)⟩

/-- If a path is given for the module, the only source is worked on in the session at the start. -/
theorem before_eq_of_given {a : Arguments} {settings : Settings} (hsources : a.sources ≠ [])
    (hmisused : a.isMisused = false) (hout : given a.out ≠ none) {v : Visit}
    (hv : v ∈ visits (.ofSettings a settings) s a.sources) : v.before = s := by
  have hone : ¬1 < a.sources.length := by
    simpa [Arguments.isMisused, Option.isSome_iff_ne_none, hout] using hmisused
  obtain ⟨source, hsource⟩ : ∃ source, a.sources = [source] :=
    List.length_eq_one_iff.mp (by have := List.length_pos_of_ne_nil hsources; omega)
  rw [hsource] at hv
  exact (gravest_visits_singleton _ source s).2 v hv

/-- A source that is read as at the start comes to what it comes to on its own, whether or not a
path is given for its module. -/
theorem outcome_eq_verdict {a : Arguments} {settings : Settings} (hsources : a.sources ≠ [])
    (hmisused : a.isMisused = false) {v : Visit}
    (hv : v ∈ visits (.ofSettings a settings) s a.sources)
    (hsame : v.before.text v.path = s.text v.path) :
    v.outcome = verdict (.ofSettings a settings) v.path s := by
  by_cases hout : given a.out = none
  · exact outcome_visit hout hv hsame
  · rw [← (course_visit hv).2.verdict_eq, before_eq_of_given hsources hmisused hout hv]

/-- It is refused what it is refused on its own. -/
theorem refuses_visit [Encodings] {a : Arguments} {settings : Settings} (hsources : a.sources ≠ [])
    (hmisused : a.isMisused = false) {v : Visit}
    (hv : v ∈ visits (.ofSettings a settings) s a.sources)
    (hsame : v.before.text v.path = s.text v.path) :
    Refuses (.ofSettings a settings) v.path v.before ↔
      Refuses (.ofSettings a settings) v.path s := by
  by_cases hout : given a.out = none
  · have hdirectory := (directory_visit hv).1
    have hakin := akin_visits hout v hv
    rw [← hdirectory] at hakin
    exact refuses_congr hsame fun text htext _ =>
      admits_iff_of_akin hakin hdirectory hout hsame htext
  · rw [before_eq_of_given hsources hmisused hout hv]

/-! ### Runs -/

/-- The sources that are worked on come first among the sources. -/
theorem map_source_prefix (plan : Plan) (sources : List String) (s : Session) :
    (visits plan s sources).map Visit.source <+: sources := by
  induction sources generalizing s with
  | nil => exact List.nil_prefix
  | cons source rest ih =>
    obtain ⟨outcome, s', -, -, ⟨why, -, hvisits⟩ | ⟨own, -, hvisits⟩⟩ :=
      visits_cons plan s source rest
    · rw [hvisits]
      exact (List.prefix_cons_inj source).mpr List.nil_prefix
    · rw [hvisits]
      exact (List.prefix_cons_inj source).mpr (ih s')

/-- A source gives an exit code unless it interrupts the run. -/
theorem exists_outcome_iff {v : Visit} (hv : v ∈ visits plan s sources) :
    (∃ own, v.outcome = .ok own) ↔ ¬Interrupts plan v.path v.before := by
  rw [← verdict_isError_iff, (course_visit hv).2.verdict_eq]
  cases v.outcome <;> simp

/-- **A run ends with an exit code** exactly if nothing interrupts it. -/
theorem exists_gravest_iff :
    (∃ status, gravest 0 (visits plan s sources) = .ok status) ↔
      ∀ v ∈ visits plan s sources, ¬Interrupts plan v.path v.before := by
  constructor
  · rintro ⟨status, hgravest⟩ v hv
    obtain ⟨own, -, hown⟩ := (gravest_eq_ok_iff.mp hgravest).1 v hv
    exact (exists_outcome_iff hv).mp ⟨own, hown⟩
  · intro h
    apply exists_gravest
    intro v hv
    exact (exists_outcome_iff hv).mpr (h v hv)

/-- The gravest exit code is that of a source. -/
theorem exists_outcome_eq_gravest {status : Nat} (hsources : sources ≠ [])
    (h : gravest 0 (visits plan s sources) = .ok status) :
    ∃ v ∈ visits plan s sources, v.outcome = .ok status := by
  obtain ⟨howns, -, rfl | hv⟩ := gravest_eq_ok_iff.mp h
  · have hmap := map_source_visits fun v hv =>
      let ⟨own, _, hown⟩ := howns v hv
      ⟨own, hown⟩
    obtain ⟨v, hv⟩ : ∃ v, v ∈ visits plan s sources := by
      apply List.exists_mem_of_ne_nil
      intro hnil
      rw [hnil] at hmap
      exact hsources hmap.symm
    obtain ⟨own, hle, hown⟩ := howns v hv
    obtain rfl := Nat.le_zero.mp hle
    exact ⟨v, hv, hown⟩
  · exact hv

section

variable [Encodings]

/-- What a run with a plan comes to that works on sources. -/
structure Attempts (versions : Versions) (a : Arguments) (plan : Plan) (s : Session)
    (vs : List Visit) (result : Except Unencodable (Except Interruption Nat)) : Prop where
  /-- The sources are worked on in order. -/
  inOrder : vs.map Visit.source <+: a.sources
  /-- The run ends with an exit code exactly if nothing interrupts it and everything that is to be
  written has an encoding. -/
  ends : (∃ status, result = .ok (.ok status)) ↔
    ∀ v ∈ vs, ¬Interrupts plan v.path v.before ∧ ¬Refuses plan v.path v.before
  /-- Then every source is worked on, and the gravest exit code counts. -/
  gravest : ∀ status, result = .ok (.ok status) →
    vs.map Visit.source = a.sources ∧ status ≤ 2 ∧
      (∀ v ∈ vs, ∃ own ≤ status, v.outcome = .ok own) ∧ ∃ v ∈ vs, v.outcome = .ok status
  /-- A source that is read as at the start comes to what it comes to on its own. -/
  alone : ∀ v ∈ vs, v.before.text v.path = s.text v.path →
    (¬Refuses plan v.path v.before →
      ∃ s', (work versions { a with sources := [v.source] } : Strict _).runIn s =
        (.ok v.outcome, s')) ∧
    (Refuses plan v.path v.before →
      ∃ u s', (work versions { a with sources := [v.source] } : Strict _).runIn s = (.error u, s'))
  /-- It is read as at the start if modules are shown or compared, or if it is found at the start
  and no module goes to its place. -/
  asAtStart : ∀ v ∈ vs, (plan.arguments.stdout = true ∨ plan.arguments.check = true ∨
      (∃ text, s.text v.path = .ok text) ∧ ∀ w ∈ a.sources,
        placeOf s.directory (plan.target (Path.ofString w)) ≠ placeOf s.directory v.path) →
    v.before.text v.path = s.text v.path

/-- A run with a plan attempts every source. -/
theorem attempts_visits (versions : Versions) {a : Arguments} {settings : Settings}
    (hversion : a.version = false) (hsources : a.sources ≠ []) (hmisused : a.isMisused = false)
    (hsettings : s.settings = .ok settings) :
    Attempts versions a (.ofSettings a settings) s (visits (.ofSettings a settings) s a.sources)
      ((work versions a : Strict _).runIn s).1 := by
  have hplanned : a.prospect s = .planned (.ofSettings a settings) :=
    Arguments.prospect_eq_planned_iff.mpr ⟨hversion, hsources, hmisused, settings, hsettings, rfl⟩
  have hagrees := (agrees_work versions a s).congr (Arguments.refuses_iff_of_planned hplanned)
  have hresult : ∀ status, ((work versions a : Strict _).runIn s).1 = .ok (.ok status) ↔
      (∀ v ∈ visits (.ofSettings a settings) s a.sources,
        ¬Refuses (.ofSettings a settings) v.path v.before) ∧
      CommandLine.gravest 0 (visits (.ofSettings a settings) s a.sources) = .ok status := by
    intro status
    rw [hagrees.result_eq_ok_iff, work_of_planned hplanned, not_exists]
    simp only [not_and]
    rfl
  refine ⟨?_, ?_, fun status h => ?_, fun v hv hsame => ?_, fun v hv h => ?_⟩
  · exact map_source_prefix _ _ _
  · rw [exists_congr hresult, exists_and_left, exists_gravest_iff, and_comm, ← forall₂_and]
  · obtain ⟨-, h⟩ := (hresult status).mp h
    obtain ⟨howns, -⟩ := gravest_eq_ok_iff.mp h
    obtain ⟨v, hv, houtcome⟩ := exists_outcome_eq_gravest hsources h
    have hmap := map_source_visits fun v hv =>
      let ⟨own, _, hown⟩ := howns v hv
      ⟨own, hown⟩
    have hverdict := (course_visit hv).2.verdict_eq
    exact ⟨hmap, le_two_of_verdict (hverdict.trans houtcome), howns, v, hv, houtcome⟩
  · rw [outcome_eq_verdict hsources hmisused hv hsame, refuses_visit hsources hmisused hv hsame]
    exact work_singleton versions hversion hsettings v.source
  · by_cases hmode : a.stdout = true ∨ a.check = true
    · exact text_congr ((tree_visits hmode).1 v hv).1 (directory_visit hv).1 _
    · obtain ⟨⟨text, htext⟩, hapart⟩ := (or_assoc.mpr h).resolve_left hmode
      exact text_visit htext hapart v hv

/-- **A run attempts every source.** A run that is asked for work shows the versions, complains
about what is asked for, or ends as the settings tell that are not found. Else it works on the
sources in order, and ends with the gravest of their exit codes exactly if none interrupts it and
everything that is to be written has an encoding, whatever comes of the others. The exit code of a
source that is read as at the start of the run is the one that it comes to on its own. -/
theorem run_attempts_every_source (versions : Versions) {words : List String} {a : Arguments}
    (hwords : Request.ofWords words = .ok (.work a)) (hsources : a.sources ≠ []) (s : Session) :
    (a.version = true →
      ((∃ s', (run versions words : Strict _).runIn s = (.ok (.ok 0), s')) ↔
        Encodings.unprintable (versions.banner ++ "\n") = false)) ∧
    (a.version = false → a.isMisused = true →
      ∃ s', (run versions words : Strict _).runIn s = (.ok (.ok 2), s')) ∧
    (a.version = false → a.isMisused = false → ∀ fault, s.settings = .error fault →
      ∃ s', (run versions words : Strict _).runIn s = (.ok (endingWith fault), s')) ∧
    (a.version = false → a.isMisused = false → ∀ settings, s.settings = .ok settings →
      ∃ result s', (run versions words : Strict _).runIn s = (result, s') ∧
        Attempts versions a (.ofSettings a settings) s
          (visits (.ofSettings a settings) s a.sources) result) := by
  have hrun : (run versions words : Strict _) = work versions a := by
    rw [run, hwords]
  have hagrees := agrees_work versions a s
  have hended : ∀ outcome, a.prospect s = .ended outcome → ¬a.Refuses versions s →
      ∃ s', (work versions a : Strict _).runIn s = (.ok outcome, s') := by
    intro outcome h hrefuses
    obtain ⟨shown, found, hwork⟩ := work_of_ended h
    have hdone := hagrees.done hrefuses
    rw [hwork] at hdone
    exact ⟨_, hdone⟩
  have hempty : a.sources.isEmpty = false := List.isEmpty_eq_false_iff.mpr hsources
  rw [hrun]
  refine ⟨fun hversion => ?_, fun hversion hmisused => ?_, fun hversion hmisused fault hfault => ?_,
    fun hversion hmisused settings hsettings => ?_⟩
  · have hprospect : a.prospect s = .ended (.ok 0) := by
      rw [Arguments.prospect, if_pos hversion]
    rw [← Bool.not_eq_true, ← Arguments.refuses_iff_of_version hversion]
    constructor
    · rintro ⟨s', hzero⟩
      exact (hagrees.result_eq_ok_iff.mp (congrArg Prod.fst hzero)).1
    · exact hended _ hprospect
  · have hprospect : a.prospect s = .ended (.ok 2) := by
      simp [Arguments.prospect, hversion, hmisused]
    exact hended _ hprospect (Arguments.not_refuses_of_ended hversion hprospect)
  · have hprospect : a.prospect s = .ended (endingWith fault) := by
      simp [Arguments.prospect, hversion, hmisused, hempty, hfault]
    exact hended _ hprospect (Arguments.not_refuses_of_ended hversion hprospect)
  · exact ⟨_, _, rfl, attempts_visits versions hversion hsources hmisused hsettings⟩

end

end

/-- Sources that are missing do not interrupt a run. -/
theorem run_attempts_every_source_missing :
    ∃ s', (run ⟨"3.11", "1.3.1"⟩ ["--check", "a.errors", "b.errors"] : Strict _).runIn {} =
        (.ok (.ok 2), s') ∧
      ∃ vs : List Visit, vs.map Visit.source = ["a.errors", "b.errors"] ∧
        ∀ v ∈ vs, v.outcome = .ok 2 := by
  have hwords : Request.ofWords ["--check", "a.errors", "b.errors"] =
      .ok (.work { sources := ["a.errors", "b.errors"], check := true }) := by
    decide +kernel
  obtain ⟨-, -, -, hrun⟩ :=
    run_attempts_every_source ⟨"3.11", "1.3.1"⟩ hwords (List.cons_ne_nil _ _) {}
  obtain ⟨result, s', hrun, hattempts⟩ := hrun rfl rfl {} rfl
  have hmissing : ∀ v ∈ visits (.ofSettings
      { sources := ["a.errors", "b.errors"], check := true } {}) {} ["a.errors", "b.errors"],
      v.before.text v.path = .error (.file (.refused .missing v.path)) := by
    intro v hv
    rw [hattempts.asAtStart v hv (Or.inr (Or.inl rfl)), Visit.path]
    rcases List.mem_pair.mp (course_visit hv).1 with h | h
    all_goals
      rw [h]
      rfl
  have hverdict : ∀ v ∈ visits (.ofSettings
      { sources := ["a.errors", "b.errors"], check := true } {}) {} ["a.errors", "b.errors"],
      v.outcome = .ok 2 := by
    intro v hv
    rw [← (course_visit hv).2.verdict_eq]
    exact verdict_of_refused (hmissing v hv)
  obtain ⟨status, hresult⟩ := hattempts.ends.mpr fun v hv =>
    ⟨(exists_outcome_iff hv).mp ⟨2, hverdict v hv⟩, not_refuses_of_error (hmissing v hv)⟩
  obtain ⟨hsources, -, -, v, hv, hstatus⟩ := hattempts.gravest status hresult
  refine ⟨s', ?_, _, hsources, hverdict⟩
  rw [hrun, hresult, ← hstatus, hverdict v hv]

/-- A session in which the bytes of a source are the encoding of no text. -/
def undecodable : Session where
  tree := { entries := [(["bad.errors"], .file [0xff])] }

/-- The source cannot be decoded. -/
theorem exists_text_undecodable :
    ∃ fault, undecodable.text (Path.ofString "bad.errors") = .error (.encoding fault) := by
  have hread : undecodable.tree.read undecodable.directory (Path.ofString "bad.errors") =
      .ok [0xff] := rfl
  have hdecode : Bytes.decode [0xff] = .error ⟨0, 0xff, 1, .start⟩ := by
    rw [Bytes.decode, Bytes.decodeFrom]
    rfl
  rw [text_eq, hread]
  dsimp only
  rw [hdecode]
  exact ⟨_, rfl⟩

/-- **A run is interrupted** by a source whose bytes are the encoding of no text. -/
theorem not_run_ends :
    ¬∀ versions words a (s : Session), Request.ofWords words = .ok (.work a) → a.sources ≠ [] →
      ∃ status s', (run versions words : StateM Session _).run s = (.ok status, s') ∧
        status ≤ 2 := by
  intro hclaim
  have hwords : Request.ofWords ["bad.errors"] = .ok (.work { sources := ["bad.errors"] }) := by
    decide +kernel
  obtain ⟨status, s', hrun, -⟩ :=
    hclaim ⟨"3.11", "1.3.1"⟩ _ _ undecodable hwords (List.cons_ne_nil _ _)
  have hsettings : undecodable.settings = .ok {} := rfl
  have hplanned : Arguments.prospect { sources := ["bad.errors"] } undecodable =
      .planned (.ofSettings { sources := ["bad.errors"] } {}) :=
    Arguments.prospect_eq_planned_iff.mpr ⟨rfl, List.cons_ne_nil _ _, rfl, {}, hsettings, rfl⟩
  rw [run_of_planned ((prospect_of_work hwords _).trans hplanned)] at hrun
  have hverdict : verdict (.ofSettings { sources := ["bad.errors"] } {})
      (Path.ofString "bad.errors") undecodable = .ok status :=
    (gravest_visits_singleton _ _ _).1.symm.trans (congrArg Prod.fst hrun)
  obtain ⟨fault, htext⟩ := exists_text_undecodable
  rw [verdict_of_error htext (by simp)] at hverdict
  cases hverdict

end Errata.CommandLine
