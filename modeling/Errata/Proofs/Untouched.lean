import Errata.Proofs.CommandLine.Alone
import Errata.Proofs.CommandLine.Planned
import Errata.Proofs.Ending

/-!
# Files that a run leaves alone

A run changes no file but those of the modules that it writes. A module is only written for a source
that is compiled without errors, as a whole, and the run tells of each that it writes.

* `Visit.Tells`: what is shown of a source.
* `ChangesOnlyModules`: what a run does to the files.
* **`run_changes_only_modules`**: that is what every run does to them.
-/

namespace Errata.CommandLine

variable {plan : Plan} {s : Session} {sources : List String}

/-! ### One source -/

variable [Expression.Capacity]

/-- A module that is written has no errors beside it. -/
theorem Visit.Writes.hasErrors_eq {v : Visit} {c : Compilation} {code : String}
    (h : v.Writes plan c code) : c.report.hasErrors = false := by
  obtain ⟨text, -, hcompile⟩ := h.compiled
  have hgenerated := h.generated
  rw [← Bool.not_eq_true, (Compilation.ending_of_compile hcompile).hasErrors_iff, hgenerated]
  nofun

/-- A source with an error leaves the tree. -/
theorem Course.tree_eq_of_hasErrors {source : Path} {s s' : Session}
    {outcome : Except Interruption Nat} {text : String} {c : Compilation}
    (h : Course plan source s outcome s') (htext : s.text source = .ok text)
    (hcompile : compile plan.options text (toString source) = .ok c)
    (herrors : c.report.hasErrors = true) : s'.tree = s.tree := by
  have hcode : c.code = none := (Compilation.ending_of_compile hcompile).hasErrors_iff.mp herrors
  have hnone : ∀ text' c' code, s.text source = .ok text' →
      compile plan.options text' (toString source) = .ok c' → c'.code ≠ some code := by
    intro text' c' code htext' hcompile' hcode'
    cases htext.symm.trans htext'
    cases hcompile.symm.trans hcompile'
    cases hcode.symm.trans hcode'
  rcases h.writes_or_keeps with ⟨c', code, hwrites⟩ | hkeeps
  · obtain ⟨text', htext', hcompile'⟩ := hwrites.compiled
    exact absurd hwrites.generated (hnone text' c' code htext' hcompile')
  · apply hkeeps.untouched
    intro text' c' code htext' hcompile' hcode'
    exact absurd hcode' (hnone text' c' code htext' hcompile')

/-- What is shown of a source: if its module is written, a line that tells so is the last, and
nothing else is shown that was not asked for. -/
inductive Visit.Tells (plan : Plan) (v : Visit) : String → Prop where
  /-- The module was written. -/
  | written {shown : String} (hwrites : ∃ c code, v.Writes plan c code)
      (hshown : plan.arguments.dumpParse = false → plan.arguments.dumpDescriptor = false →
        shown = "") : v.Tells plan (shown ++ plan.notice v.path)
  /-- No module was written. -/
  | kept {shown : String} (hkept : ¬∃ c code, v.Writes plan c code)
      (hshown : plan.arguments.dumpParse = false → plan.arguments.dumpDescriptor = false →
        plan.arguments.stdout = false → shown = "") : v.Tells plan shown

/-- Something is shown of every source, behind what was shown. -/
theorem exists_tells {v : Visit} (h : Course plan v.path v.before v.outcome v.after) :
    ∃ line, v.Tells plan line ∧ v.after.output = v.before.output ++ line := by
  by_cases hwritten : ∃ c code, v.Writes plan c code
  · obtain ⟨c, code, hwrites⟩ := id hwritten
    obtain ⟨shown, htold, hshown⟩ := hwrites.told
    refine ⟨_, .written hwritten hshown, ?_⟩
    rw [htold, String.append_assoc]
  · rcases h.writes_or_keeps with hwrites | hkeeps
    · exact absurd hwrites hwritten
    · obtain ⟨shown, htold, hshown⟩ := hkeeps.quiet
      exact ⟨shown, .kept hwritten hshown, htold⟩

/-! ### Runs -/

/-- What a run with a plan does to the files. -/
structure ChangesOnlyModules (plan : Plan) (vs : List Visit) (s s' : Session) : Prop where
  /-- Nothing is changed if modules are shown or compared. -/
  untouched : plan.arguments.stdout = true ∨ plan.arguments.check = true → s'.tree = s.tree
  /-- A file that is changed holds the module that was written to it last. -/
  changed : ∀ q, s'.tree.fileAt? q ≠ s.tree.fileAt? q →
    ∃ v c code, IsLastAt plan q vs v ∧ v.Writes plan c code ∧
      s'.tree.fileAt? q = some (Bytes.encode code.toList)
  /-- A module is written as a whole, for a source that was compiled without errors. -/
  written : ∀ v ∈ vs, ∀ c code, v.Writes plan c code → c.report.hasErrors = false ∧
    v.after.tree.fileAt? (v.place plan) = some (Bytes.encode code.toList)
  /-- A source with an error changes nothing. -/
  failed : ∀ v ∈ vs, ∀ text c, v.before.text v.path = .ok text →
    compile plan.options text (toString v.path) = .ok c → c.report.hasErrors = true →
      v.after.tree = v.before.tree
  /-- What is shown is what is shown of each source. -/
  told : ∃ lines, List.Forall₂ (Visit.Tells plan) vs lines ∧
    s'.output = s.output ++ String.join lines

/-- What a run shows is what is shown of each source. -/
theorem exists_forall₂_tells (plan : Plan) (sources : List String) (s : Session) :
    ∃ lines, List.Forall₂ (Visit.Tells plan) (visits plan s sources) lines ∧
      (left s (visits plan s sources)).output = s.output ++ String.join lines := by
  induction sources generalizing s with
  | nil => exact ⟨[], .nil, String.append_empty.symm⟩
  | cons source rest ih =>
    obtain ⟨outcome, s', -, hcourse, hvisits⟩ := visits_cons plan s source rest
    obtain ⟨line, htells, houtput⟩ := exists_tells (v := ⟨source, s, outcome, s'⟩) hcourse
    rcases hvisits with ⟨why, -, hvisits⟩ | ⟨next, -, hvisits⟩
    · rw [hvisits]
      refine ⟨[line], .cons htells .nil, ?_⟩
      rw [String.join_cons, String.join_nil, String.append_empty]
      exact houtput
    · obtain ⟨lines, hlines, hrest⟩ := ih s'
      rw [hvisits]
      refine ⟨line :: lines, .cons htells hlines, ?_⟩
      rw [String.join_cons, ← String.append_assoc]
      exact hrest.trans (congrArg (· ++ String.join lines) houtput)

/-- The visits of a plan change only modules. -/
theorem changesOnlyModules_visits (plan : Plan) (sources : List String) (s : Session) :
    ChangesOnlyModules plan (visits plan s sources) s (left s (visits plan s sources)) where
  untouched hmode := (tree_visits hmode).2
  changed q hq := by
    have hwritten : ∃ v ∈ visits plan s sources, v.WritesAt plan q := by
      by_contra hnone
      apply hq
      apply fileAt?_left_of_not
      intro v hv hwrites
      exact hnone ⟨v, hv, hwrites⟩
    obtain ⟨v, hlast⟩ := exists_isLastAt hwritten
    obtain ⟨vs₁, vs₂, hvs, ⟨hplace, c, code, hwrites⟩, hlater⟩ := id hlast
    exact ⟨v, c, code, hlast, hwrites, fileAt?_left_of_isLastAt hlast hwrites⟩
  written v _ c code hwrites := ⟨hwrites.hasErrors_eq, hwrites.stored.fileAt?_self⟩
  failed v hv text c htext hcompile herrors :=
    (course_visit hv).2.tree_eq_of_hasErrors htext hcompile herrors
  told := exists_forall₂_tells plan sources s

/-- **A run changes only modules.** A run without a plan leaves the files as they are. One with a
plan leaves them too if modules are shown or compared. Else a file that is changed holds the module
that was written to it last, each module is that of a source that was compiled without errors, a
source with an error changes nothing, and the run tells of the modules that it writes, and of no
others. -/
theorem run_changes_only_modules (versions : Versions) (words : List String) (s : Session) :
    match prospect words s with
    | .ended outcome => ∃ shown found,
        (run versions words : StateM Session _).run s = (outcome, s.print shown found)
    | .planned plan =>
        (run versions words : StateM Session _).run s =
          (gravest 0 (visits plan s plan.arguments.sources),
            left s (visits plan s plan.arguments.sources)) ∧
        ChangesOnlyModules plan (visits plan s plan.arguments.sources) s
          (left s (visits plan s plan.arguments.sources)) := by
  split
  · next outcome hprospect => exact run_of_ended hprospect
  · next plan hprospect =>
    exact ⟨run_of_planned hprospect, changesOnlyModules_visits plan _ s⟩

end Errata.CommandLine
