import Errata.Proofs.CommandLine.Alone
import Errata.Proofs.CommandLine.Planned

/-!
# Modules that are overwritten

The module of a source goes to a file that is named after the source without its suffix. So the
modules of two sources may go to the same file, and the first is lost then.

* `Course.writes_of_small_status`: a source with a small exit code has its module written.
* **`place_eq_iff`**: which sources have their modules in the same file.
* `Visit.EndsWith`: whether the module of a source is left in its file.
* **`run_keeps_modules_iff`**: what stands in the files of the modules after a run, and when no
  module is lost.
* `not_run_keeps_modules`: one is lost if two sources in different directories have the same name
  and their modules go to one directory.
-/

set_option linter.unusedSectionVars false

namespace Errata.CommandLine

open FileTree (placeOf)

section

variable [Expression.Capacity] {plan : Plan} {s : Session} {sources : List String}

/-! ### Where modules are written -/

/-- **A source with a small exit code** has its module written, if modules are neither shown nor
compared. -/
theorem Course.writes_of_small_status {source : Path} {s s' : Session}
    {outcome : Except Interruption Nat} {status : Nat} (h : Course plan source s outcome s')
    (hstdout : plan.arguments.stdout = false) (hcheck : plan.arguments.check = false)
    (houtcome : outcome = .ok status) (hstatus : status ≤ 1) :
    ∃ c code, Writes plan source s s' outcome c code := by
  rcases h.writes_or_keeps with hwrites | hkeeps
  · exact hwrites
  · have hgrave := hkeeps.grave hstdout hcheck status houtcome
    omega

/-- The name of a module is not that of the directory above. -/
theorem stem_append_ne (stem : String) : stem ++ "_errors.py" ≠ ".." := by
  intro h
  have hlength := congrArg String.length h
  rw [String.length_append] at hlength
  have hsuffix : "_errors.py".length = 10 := by decide
  have hdots : "..".length = 2 := by decide
  omega

/-- The module of a source stands in a directory under its name, unless a path is given for it. -/
theorem Visit.place_eq (hout : given plan.arguments.out = none) (v : Visit) :
    v.place plan = placeOf v.before.directory (plan.outputDirectory.getD v.path.parent) ++
      [v.path.stem ++ "_errors.py"] := by
  have hparts : (plan.target v.path).parts =
      (plan.outputDirectory.getD v.path.parent).parts ++ [v.path.stem ++ "_errors.py"] := by
    rw [Plan.target, hout]
    rfl
  rw [Visit.place, (FileTree.wayOf_of_concat v.before.directory hparts).2, parent_target hout,
    FileTree.enter, if_neg (stem_append_ne _)]

/-- **Two modules go to the same file** exactly if the sources have the same name without its
suffix, and all modules go to one directory or the sources stand in the same directory. -/
theorem place_eq_iff (hout : given plan.arguments.out = none) {v w : Visit}
    (hdirectory : v.before.directory = w.before.directory) :
    v.place plan = w.place plan ↔ v.path.stem = w.path.stem ∧
      (plan.outputDirectory.isSome = true ∨
        placeOf v.before.directory v.path.parent = placeOf w.before.directory w.path.parent) := by
  rw [v.place_eq hout, w.place_eq hout, List.append_singleton_inj, String.append_left_inj,
    and_comm]
  apply and_congr_right'
  cases plan.outputDirectory with
  | none => simp
  | some directory => simp [hdirectory]

/-- The same for the sources of a run. -/
theorem place_eq_iff_of_mem (hout : given plan.arguments.out = none) :
    ∀ v ∈ visits plan s sources, ∀ w ∈ visits plan s sources,
      (v.place plan = w.place plan ↔ v.path.stem = w.path.stem ∧
        (plan.outputDirectory.isSome = true ∨
          placeOf s.directory v.path.parent = placeOf s.directory w.path.parent)) := by
  intro v hv w hw
  have hv' := (directory_visit hv).1
  have hw' := (directory_visit hw).1
  rw [place_eq_iff hout (hv'.trans hw'.symm), hv', hw']

/-! ### Whether modules are kept -/

/-- A visit writes one module. -/
theorem Visit.Writes.code_unique {v : Visit} {c c' : Compilation} {code code' : String}
    (h : v.Writes plan c code) (h' : v.Writes plan c' code') : code = code' := by
  obtain ⟨text, htext, hcompile⟩ := h.compiled
  obtain ⟨text', htext', hcompile'⟩ := h'.compiled
  cases htext.symm.trans htext'
  cases hcompile.symm.trans hcompile'
  exact Option.some.inj (h.generated.symm.trans h'.generated)

/-- The bytes of a module are those of no other. -/
theorem encode_eq_iff {code code' : String} :
    Bytes.encode code.toList = Bytes.encode code'.toList ↔ code = code' := by
  constructor
  · intro h
    have hdecoded := congrArg Bytes.decode h
    rw [Bytes.decode_encode, Bytes.decode_encode] at hdecoded
    exact String.toList_inj.mp (Except.ok.inj hdecoded)
  · rintro rfl
    rfl

/-- What stands in the file of a module after a run: the module that was written there last. -/
structure Visit.EndsWith (plan : Plan) (vs : List Visit) (s' : Session) (v : Visit)
    (code : String) : Prop where
  /-- Some source is the last whose module goes to the file. -/
  last : ∃ w c, IsLastAt plan (v.place plan) vs w ∧ w.Writes plan c code
  /-- The file is found, and holds that module. -/
  held : s'.tree.read s'.directory (plan.target v.path) = .ok (Bytes.encode code.toList)

/-- A file of a module holds some module after a run. -/
theorem exists_endsWith {v : Visit} {c : Compilation} {code : String}
    (hv : v ∈ visits plan s sources) (hwrites : v.Writes plan c code) :
    ∃ code', v.EndsWith plan (visits plan s sources) (left s (visits plan s sources)) code' := by
  obtain ⟨w, hlast⟩ := exists_isLastAt ⟨v, hv, rfl, c, code, hwrites⟩
  obtain ⟨vs₁, vs₂, hvs, ⟨hplace, c', code', hwrites'⟩, hlater⟩ := id hlast
  refine ⟨code', ⟨w, c', hlast, hwrites'⟩, ?_⟩
  rw [directory_left_eq, read_left hv hwrites]
  exact fileAt?_left_of_isLastAt hlast hwrites'

/-- **No module is lost** exactly if no two sources come to different modules for the same file. -/
theorem forall_held_iff :
    (∀ v ∈ visits plan s sources, ∀ c code, v.Writes plan c code →
        (left s (visits plan s sources)).tree.read (left s (visits plan s sources)).directory
          (plan.target v.path) = .ok (Bytes.encode code.toList)) ↔
      ∀ v ∈ visits plan s sources, ∀ w ∈ visits plan s sources, v.place plan = w.place plan →
        ∀ c code c' code', v.Writes plan c code → w.Writes plan c' code' → code = code' := by
  constructor
  · intro hheld v hv w hw hplace c code c' code' hwrites hwrites'
    have hread := hheld v hv c code hwrites
    have hread' := hheld w hw c' code' hwrites'
    rw [directory_left_eq, read_left hv hwrites] at hread
    rw [directory_left_eq, read_left hw hwrites', ← hplace, hread] at hread'
    exact encode_eq_iff.mp (Option.some.inj hread')
  · intro hsame v hv c code hwrites
    obtain ⟨code', hends⟩ := exists_endsWith hv hwrites
    obtain ⟨w, c', ⟨vs₁, vs₂, hvs, ⟨hplace, -⟩, -⟩, hwrites'⟩ := hends.last
    have hw : w ∈ visits plan s sources := by
      rw [hvs]
      exact List.mem_append_right _ List.mem_cons_self
    rw [hsame v hv w hw hplace.symm c code c' code' hwrites hwrites']
    exact hends.held

/-- **What stands in the files of the modules.** A run that ends with a small exit code, and in
which modules are neither shown nor compared, works on every source and writes its module. In the
end the file of each holds the module that was written there last. No module is lost exactly if no
two sources come to different modules for the same file. That is the same file exactly if the
sources have the same name without its suffix, and all modules go to one directory or the sources
stand in the same directory. -/
theorem run_keeps_modules_iff (versions : Versions) {words : List String} {a : Arguments}
    {s s' : Session} {status : Nat} (hwords : Request.ofWords words = .ok (.work a))
    (hversion : a.version = false) (hstdout : a.stdout = false) (hcheck : a.check = false)
    (hrun : (run versions words : StateM Session _).run s = (.ok status, s'))
    (hstatus : status ≤ 1) :
    ∃ plan vs, prospect words s = .planned plan ∧ vs = visits plan s a.sources ∧
      vs.map Visit.source = a.sources ∧
      (∀ v ∈ vs, ∃ c code, v.Writes plan c code) ∧
      (∀ v ∈ vs, ∃ code, v.EndsWith plan vs s' code) ∧
      ((∀ v ∈ vs, ∀ c code, v.Writes plan c code →
          s'.tree.read s'.directory (plan.target v.path) = .ok (Bytes.encode code.toList)) ↔
        ∀ v ∈ vs, ∀ w ∈ vs, v.place plan = w.place plan →
          ∀ c code c' code', v.Writes plan c code → w.Writes plan c' code' → code = code') ∧
      (vs.length = 1 ∨ ∀ v ∈ vs, ∀ w ∈ vs,
        (v.place plan = w.place plan ↔ v.path.stem = w.path.stem ∧
          (plan.outputDirectory.isSome = true ∨
            placeOf s.directory v.path.parent = placeOf s.directory w.path.parent))) := by
  obtain ⟨settings, hsettings, hprospect⟩ :=
    exists_settings_of_small_status hwords hversion hrun hstatus
  obtain ⟨-, hsources, hmisused, -⟩ := Arguments.prospect_eq_planned_iff.mp hprospect
  have hplanned := (prospect_of_work hwords s).trans hprospect
  rw [run_of_planned hplanned] at hrun
  obtain ⟨hgravest, rfl⟩ := Prod.mk.inj hrun
  obtain ⟨howns, -⟩ := gravest_eq_ok_iff.mp hgravest
  have hwritten : ∀ v ∈ visits (.ofSettings a settings) s a.sources,
      ∃ c code, v.Writes (.ofSettings a settings) c code := by
    intro v hv
    obtain ⟨own, hown, houtcome⟩ := howns v hv
    exact (course_visit hv).2.writes_of_small_status hstdout hcheck houtcome (by omega)
  have hmap := map_source_visits fun v hv =>
    let ⟨own, _, houtcome⟩ := howns v hv
    ⟨own, houtcome⟩
  refine ⟨_, _, hplanned, rfl, hmap, hwritten, fun v hv => ?_, forall_held_iff, ?_⟩
  · obtain ⟨c, code, hwrites⟩ := hwritten v hv
    exact exists_endsWith hv hwrites
  · by_cases hout : given a.out = none
    · exact Or.inr (place_eq_iff_of_mem hout)
    · left
      have hone : ¬1 < a.sources.length := by
        simpa [Arguments.isMisused, Option.isSome_iff_ne_none, hout] using hmisused
      have hsome : 0 < a.sources.length := List.length_pos_of_ne_nil hsources
      have hlength : (visits (.ofSettings a settings) s a.sources).length = a.sources.length := by
        rw [← List.length_map Visit.source]
        exact congrArg List.length hmap
      omega

end

/-! ### Two sources of the same name -/

section

/-- A session with two sources of the same name in different directories. -/
def namesakes : Session where
  tree :=
    { entries :=
        [(["a"], .directory), (["b"], .directory),
          (["a", "x.errors"],
            .file (Bytes.encode "enum A \x7b #[error = \"a\"] V \x7d".toList)),
          (["b", "x.errors"],
            .file (Bytes.encode "enum B \x7b #[error = \"b\"] W \x7d".toList))] }

/-- The two sources come to different modules. -/
theorem exists_compile_namesakes :
    ∃ c₁ c₂ code₁ code₂,
      compile {} "enum A \x7b #[error = \"a\"] V \x7d" "a/x.errors" = .ok c₁ ∧
      compile {} "enum B \x7b #[error = \"b\"] W \x7d" "b/x.errors" = .ok c₂ ∧
      c₁.exitCode = 0 ∧ c₂.exitCode = 0 ∧ c₁.code = some code₁ ∧ c₂.code = some code₂ ∧
      code₁ ≠ code₂ := by
  have hrun : ((compile {} "enum A \x7b #[error = \"a\"] V \x7d" "a/x.errors").toOption.any
      fun c₁ => (compile {} "enum B \x7b #[error = \"b\"] W \x7d" "b/x.errors").toOption.any
        fun c₂ => c₁.exitCode = 0 ∧ c₂.exitCode = 0 ∧ c₁.code.isSome ∧ c₂.code.isSome ∧
          c₁.code ≠ c₂.code) = true := by
    decide +kernel
  obtain ⟨c₁, hc₁, hrun⟩ := (Option.any_eq_true _ _).mp hrun
  obtain ⟨c₂, hc₂, hrun⟩ := (Option.any_eq_true _ _).mp hrun
  rw [Outcome.toOption_eq_some_iff] at hc₁ hc₂
  obtain ⟨hexit₁, hexit₂, hcode₁, hcode₂, hne⟩ := of_decide_eq_true hrun
  obtain ⟨code₁, hcode₁⟩ := Option.isSome_iff_exists.mp hcode₁
  obtain ⟨code₂, hcode₂⟩ := Option.isSome_iff_exists.mp hcode₂
  refine ⟨c₁, c₂, code₁, code₂, hc₁, hc₂, hexit₁, hexit₂, hcode₁, hcode₂, ?_⟩
  rintro rfl
  exact hne (hcode₁.trans hcode₂.symm)

/-- The first source is read as it is. -/
theorem text_namesakes_first :
    namesakes.text (Path.ofString "a/x.errors") = .ok "enum A \x7b #[error = \"a\"] V \x7d" := by
  have hread : namesakes.tree.read namesakes.directory (Path.ofString "a/x.errors") =
    .ok (Bytes.encode "enum A \x7b #[error = \"a\"] V \x7d".toList) := rfl
  rw [Session.text_of_read hread]
  decide

/-- The second source is read as it is. -/
theorem text_namesakes_second :
    namesakes.text (Path.ofString "b/x.errors") = .ok "enum B \x7b #[error = \"b\"] W \x7d" := by
  have hread : namesakes.tree.read namesakes.directory (Path.ofString "b/x.errors") =
    .ok (Bytes.encode "enum B \x7b #[error = \"b\"] W \x7d".toList) := rfl
  rw [Session.text_of_read hread]
  decide

/-- Nothing is set for the session. -/
theorem settings_namesakes : namesakes.settings = .ok {} := rfl

/-- What may be asked for: the modules go beside their sources, or to one directory. -/
def namesakesTo (outDirectory : Option String) : Arguments :=
  { sources := ["a/x.errors", "b/x.errors"], outDirectory }

/-- What is asked for makes no difference to what the sources come to. -/
theorem compile_namesakes {outDirectory : Option String} {source text : String} {c : Compilation}
    (hname : toString (Path.ofString source) = source) (hcompile : compile {} text source = .ok c) :
    compile (Plan.ofSettings (namesakesTo outDirectory) {}).options text
      (toString (Path.ofString source)) = .ok c := by
  rw [hname]
  exact hcompile

/-- A source of the session comes to its module with exit code zero. -/
theorem verdict_namesakes {outDirectory : Option String} {source text code : String}
    {c : Compilation} (hname : toString (Path.ofString source) = source)
    (htext : namesakes.text (Path.ofString source) = .ok text)
    (hcompile : compile {} text source = .ok c) (hcode : c.code = some code)
    (hexit : c.exitCode = 0)
    (hadmits : namesakes.tree.Admits namesakes.directory
      ((Plan.ofSettings (namesakesTo outDirectory) {}).target (Path.ofString source))) :
    verdict (.ofSettings (namesakesTo outDirectory) {}) (Path.ofString source) namesakes =
      .ok 0 := by
  rw [verdict_of_code htext (compile_namesakes hname hcompile) hcode,
    if_neg hadmits.not_isUnnamed, if_pos hadmits, hexit]
  rfl

/-- A run whose sources are found, are not overwritten and come to exit code zero ends with it. -/
theorem exists_run_of_verdict {words : List String}
    (hplanned : prospect words s = .planned plan) (hout : given plan.arguments.out = none)
    (hsources : ∀ source ∈ plan.arguments.sources,
      (∃ text, s.text (Path.ofString source) = .ok text) ∧
      verdict plan (Path.ofString source) s = .ok 0 ∧
      ∀ other ∈ plan.arguments.sources,
        placeOf s.directory (plan.target (Path.ofString other)) ≠
          placeOf s.directory (Path.ofString source)) (versions : Versions) :
    ∃ s', (run versions words : StateM Session _).run s = (.ok 0, s') := by
  rw [run_of_planned hplanned]
  refine ⟨_, Prod.ext (gravest_eq_ok_iff.mpr ⟨fun v hv => ⟨0, Nat.le_refl 0, ?_⟩, Nat.le_refl 0,
    Or.inl rfl⟩) rfl⟩
  obtain ⟨⟨text, htext⟩, hverdict, hapart⟩ := hsources v.source (course_visit hv).1
  rw [outcome_visit hout hv (text_visit htext hapart v hv)]
  exact hverdict

/-- What the two sources come to on their own. -/
theorem verdicts_namesakes {outDirectory : Option String}
    (hdirectory : outDirectory = none ∨ outDirectory = some "out") :
    verdict (.ofSettings (namesakesTo outDirectory) {}) (Path.ofString "a/x.errors") namesakes =
        .ok 0 ∧
      verdict (.ofSettings (namesakesTo outDirectory) {}) (Path.ofString "b/x.errors") namesakes =
        .ok 0 := by
  obtain ⟨c₁, c₂, code₁, code₂, hc₁, hc₂, hexit₁, hexit₂, hcode₁, hcode₂, -⟩ :=
    exists_compile_namesakes
  constructor
  · apply verdict_namesakes (by decide) text_namesakes_first hc₁ hcode₁ hexit₁
    rcases hdirectory with rfl | rfl
    all_goals decide
  · apply verdict_namesakes (by decide) text_namesakes_second hc₂ hcode₂ hexit₂
    rcases hdirectory with rfl | rfl
    all_goals decide

/-- What is asked for comes to a plan. -/
theorem prospect_namesakes (outDirectory : Option String) :
    (namesakesTo outDirectory).prospect namesakes =
      .planned (.ofSettings (namesakesTo outDirectory) {}) :=
  Arguments.prospect_eq_planned_iff.mpr
    ⟨rfl, List.cons_ne_nil _ _, rfl, {}, settings_namesakes, rfl⟩

/-- **The two sources are compiled**, whether their modules go beside them or to one directory. -/
theorem exists_run_namesakes {words : List String} {outDirectory : Option String}
    (hwords : Request.ofWords words = .ok (.work (namesakesTo outDirectory)))
    (hdirectory : outDirectory = none ∨ outDirectory = some "out") (versions : Versions) :
    ∃ s', (run versions words : StateM Session _).run namesakes = (.ok 0, s') := by
  obtain ⟨hfirst, hsecond⟩ := verdicts_namesakes hdirectory
  apply exists_run_of_verdict ((prospect_of_work hwords _).trans (prospect_namesakes outDirectory))
  · rfl
  · have hsources : (Plan.ofSettings (namesakesTo outDirectory) {}).arguments.sources =
        ["a/x.errors", "b/x.errors"] := rfl
    rw [hsources]
    refine List.forall_mem_cons.mpr ⟨⟨⟨_, text_namesakes_first⟩, hfirst, ?_⟩,
      List.forall_mem_singleton.mpr ⟨⟨_, text_namesakes_second⟩, hsecond, ?_⟩⟩
    all_goals
      rcases hdirectory with rfl | rfl
      all_goals decide

/-- Sources of the same name in different directories keep their modules if these go beside them. -/
theorem run_keeps_modules_iff_namesakes :
    ∃ (plan : Plan) (vs : List Visit) (s' : Session),
      (run ⟨"3.11", "1.3.1"⟩ ["a/x.errors", "b/x.errors"] : StateM Session _).run namesakes =
        (.ok 0, s') ∧
      vs.map Visit.source = ["a/x.errors", "b/x.errors"] ∧
      ∀ v ∈ vs, ∀ c code, v.Writes plan c code →
        s'.tree.read s'.directory (plan.target v.path) = .ok (Bytes.encode code.toList) := by
  have hwords : Request.ofWords ["a/x.errors", "b/x.errors"] =
      .ok (.work (namesakesTo none)) := by
    decide +kernel
  obtain ⟨s', hrun⟩ := exists_run_namesakes hwords (Or.inl rfl) ⟨"3.11", "1.3.1"⟩
  obtain ⟨plan, vs, hplanned, -, hsources, -, -, hkept, hplaces⟩ :=
    run_keeps_modules_iff ⟨"3.11", "1.3.1"⟩ hwords rfl rfl rfl hrun (Nat.zero_le _)
  refine ⟨plan, vs, s', hrun, hsources, hkept.mpr ?_⟩
  obtain rfl : Plan.ofSettings (namesakesTo none) {} = plan := by
    rw [prospect_of_work hwords, prospect_namesakes] at hplanned
    exact Prospect.planned.inj hplanned
  obtain ⟨v₁, v₂, rfl, h₁, h₂⟩ : ∃ v₁ v₂, vs = [v₁, v₂] ∧ v₁.source = "a/x.errors" ∧
      v₂.source = "b/x.errors" := by
    obtain ⟨v₁, vs, rfl, h₁, hsources⟩ := List.map_eq_cons_iff.mp hsources
    obtain ⟨v₂, rfl, h₂⟩ := List.map_eq_singleton_iff.mp hsources
    exact ⟨v₁, v₂, rfl, h₁, h₂⟩
  have hparents : placeOf namesakes.directory (Path.ofString "a/x.errors").parent ≠
      placeOf namesakes.directory (Path.ofString "b/x.errors").parent := by decide
  have hdistinct : v₁.place (.ofSettings (namesakesTo none) {}) ≠
      v₂.place (.ofSettings (namesakesTo none) {}) := by
    intro hplace
    rcases hplaces with hone | hplaces
    · cases hone
    · rcases ((hplaces v₁ (by simp) v₂ (by simp)).mp hplace).2 with hgiven | hsame
      · cases hgiven
      · rw [Visit.path, Visit.path, h₁, h₂] at hsame
        exact hparents hsame
  intro v hv w hw hplace c code c' code' hwrites hwrites'
  obtain rfl : v = w := by
    rw [List.mem_pair] at hv hw
    rcases hv with rfl | rfl <;> rcases hw with rfl | rfl
    · rfl
    · exact absurd hplace hdistinct
    · exact absurd hplace.symm hdistinct
    · rfl
  exact hwrites.code_unique hwrites'

/-- **A module is lost** if two sources of the same name have their modules in one directory. -/
theorem not_run_keeps_modules :
    ¬∀ versions words a settings (s s' : Session) status,
      Request.ofWords words = .ok (.work a) → a.sources.Nodup → a.version = false →
      a.stdout = false → a.check = false → s.settings = .ok settings →
      (run versions words : StateM Session _).run s = (.ok status, s') → status ≤ 1 →
      ∀ source ∈ a.sources, ∀ text c code, s.text (Path.ofString source) = .ok text →
        compile (Plan.ofSettings a settings).options text (toString (Path.ofString source)) =
          .ok c →
        c.code = some code →
        s'.tree.read s'.directory ((Plan.ofSettings a settings).target (Path.ofString source)) =
          .ok (Bytes.encode code.toList) := by
  intro hclaim
  have hwords : Request.ofWords ["--out-dir", "out", "a/x.errors", "b/x.errors"] =
      .ok (.work (namesakesTo (some "out"))) := by
    decide +kernel
  obtain ⟨s', hrun⟩ := exists_run_namesakes hwords (Or.inr rfl) ⟨"3.11", "1.3.1"⟩
  obtain ⟨c₁, c₂, code₁, code₂, hc₁, hc₂, -, -, hcode₁, hcode₂, hne⟩ := exists_compile_namesakes
  have hheld := hclaim _ _ _ _ _ _ _ hwords (by decide) rfl rfl rfl settings_namesakes hrun
    (Nat.zero_le _)
  have hfirst := hheld "a/x.errors" (by decide) _ c₁ code₁ text_namesakes_first
    (compile_namesakes (by decide) hc₁) hcode₁
  have hsecond := hheld "b/x.errors" (by decide) _ c₂ code₂ text_namesakes_second
    (compile_namesakes (by decide) hc₂) hcode₂
  have hstem : (Path.ofString "a/x.errors").stem = (Path.ofString "b/x.errors").stem := by
    decide +kernel
  have htarget : (Plan.ofSettings (namesakesTo (some "out")) {}).target
      (Path.ofString "a/x.errors") =
        (Plan.ofSettings (namesakesTo (some "out")) {}).target (Path.ofString "b/x.errors") :=
    congrArg (fun stem => (Path.ofString "out").child (stem ++ "_errors.py")) hstem
  rw [htarget, hsecond] at hfirst
  exact hne (encode_eq_iff.mp (Except.ok.inj hfirst)).symm

end

end Errata.CommandLine
