import Errata.Proofs.CommandLine.Sources

/-!
# Sources on their own

The sources of a run share their files. Still, a source that is read as at the start of the run
comes to the exit code that it would come to on its own: what was written for the sources before it
neither stands in the way of its module nor makes way for it.

* `Akin`: trees in which the same modules can be written.
* `akin_visits`: all along a run the trees are akin.
* `admits_iff_of_akin`, `isUnnamed_iff_of_akin`: whether a module can be written in them.
* **`outcome_visit`**: a source that is read as at the start comes to what it comes to on its own.
* **`text_visit`**: it is read as at the start if no module is written in its place.
-/

namespace Errata.CommandLine

open FileTree (Furnishes wayOf placeOf passed startOf HoldsNull)

variable {plan : Plan} {s s' : Session} {source : Path} {outcome : Except Interruption Nat}
  {here : Place} {t t' t'' : FileTree}

/-! ### Where modules go -/

/-- The directory of the module of a source, unless its path is given. -/
theorem parent_target (hout : given plan.arguments.out = none) (source : Path) :
    (plan.target source).parent = plan.outputDirectory.getD source.parent := by
  rw [Plan.target, hout]
  show (outputPath source plan.outputDirectory).parent = _
  rw [outputPath, Path.child, Path.parent, List.dropLast_concat]

/-- Nothing is missing on the way of a file that gives a text, and no file stands in the way of
what is beside it, unless the way is that of the file itself. -/
theorem way_of_text {text : String} (h : s.text source = .ok text) :
    ∀ q ∈ wayOf s.directory source.parent, s.tree.get? q ≠ none ∧
      (s.tree.holdsFile q = false ↔ source.parts ≠ []) := by
  obtain ⟨content, hread⟩ := exists_read_of_text h
  obtain ⟨place, hlocate, hfile⟩ := FileTree.read_eq_ok_iff.mp hread
  obtain ⟨-, hpassed, rfl⟩ := FileTree.locate_eq_ok_iff.mp hlocate
  intro q hq
  by_cases hparts : source.parts = []
  · have hplace : q = placeOf s.directory source := by
      have hparent : source.parent = source := by
        rw [Path.parent, hparts]
        cases source
        cases hparts
        rfl
      rw [hparent, wayOf, hparts] at hq
      rw [placeOf, hparts]
      exact List.mem_singleton.mp hq
    subst hplace
    rw [FileTree.fileAt?_eq_some_iff] at hfile
    exact ⟨by simp [hfile], by simp [FileTree.holdsFile, Entry.isFile, hfile, hparts]⟩
  · have hway := (FileTree.wayOf_of_concat s.directory (List.dropLast_concat_getLast hparts).symm).1
    rw [← hway] at hq
    have hdirectory := hpassed q hq
    simp [hdirectory, hparts, FileTree.holdsFile, Entry.isFile]

/-! ### Trees that are akin -/

/-- The places on the way of the directory of modules, if one is given. -/
def Plan.ground (plan : Plan) (here : Place) : List Place :=
  match plan.outputDirectory with
  | some directory => wayOf here directory
  | none => []

/-- Whether the same modules can be written in two trees. -/
structure Akin (plan : Plan) (here : Place) (t t' : FileTree) : Prop where
  /-- Files stand at the same places on the way of the directory of modules. -/
  files : ∀ q ∈ plan.ground here, t'.holdsFile q = t.holdsFile q
  /-- What stands elsewhere is the same, apart from files that may be opened. -/
  elsewhere : ∀ q ∉ plan.ground here, ∀ entry, (∀ content, entry ≠ .file content) →
    (t'.get? q = some entry ↔ t.get? q = some entry)

/-- A tree is akin to itself. -/
theorem Akin.refl (plan : Plan) (here : Place) (t : FileTree) : Akin plan here t t :=
  ⟨fun _ _ => rfl, fun _ _ _ _ => Iff.rfl⟩

/-- What is akin to a tree that is akin to another one is akin to that. -/
theorem Akin.trans (h : Akin plan here t t') (h' : Akin plan here t' t'') :
    Akin plan here t t'' :=
  ⟨fun q hq => (h'.files q hq).trans (h.files q hq),
    fun q hq entry hentry => (h'.elsewhere q hq entry hentry).trans (h.elsewhere q hq entry hentry)⟩

/-- Directories that are made only where a directory of modules was given. -/
theorem akin_of_furnishes {places : List Place} (h : t.Furnishes t' places)
    (hplaces : ∀ q ∈ places, q ∉ plan.ground here → t.get? q ≠ none) : Akin plan here t t' := by
  refine ⟨fun q _ => h.holdsFile_eq q, fun q hq entry _ => ?_⟩
  rcases h q with heq | ⟨hmem, hnone, -⟩
  · rw [heq]
  · exact absurd hnone (hplaces q hmem hq)

/-- A module that is written in such directories. -/
theorem akin_of_stores {p : Path} {content : List UInt8} (hadmits : t.Admits here p)
    (h : t.Stores t' here p content)
    (hground : plan.ground here ⊆ wayOf here p.parent)
    (hplaces : ∀ q ∈ wayOf here p.parent, q ∉ plan.ground here → t.get? q ≠ none) :
    Akin plan here t t' := by
  constructor
  · intro q hq
    apply h.holdsFile_eq
    rintro rfl
    exact hadmits.notMem (hground hq)
  · intro q hq entry hentry
    by_cases hplace : q = placeOf here p
    · subst hplace
      refine iff_of_false (by simpa [h.file] using (hentry content).symm) ?_
      cases entry with
      | file other => exact absurd rfl (hentry other)
      | directory => exact hadmits.notDirectory
      | sealed => exact hadmits.notSealed
    · rcases h.rest q hplace with heq | ⟨hmem, hnone, -⟩
      · rw [heq]
      · exact absurd hnone (hplaces q hmem hq)

variable [Expression.Capacity]

/-- **What is done with a source** leaves a tree that is akin. -/
theorem Course.akin (hout : given plan.arguments.out = none)
    (h : Course plan source s outcome s') : Akin plan s.directory s.tree s'.tree := by
  have hparent := parent_target hout source
  have hground : plan.ground s.directory ⊆ wayOf s.directory (plan.target source).parent := by
    rw [hparent, Plan.ground]
    cases plan.outputDirectory with
    | none => exact List.nil_subset _
    | some directory => exact List.Subset.refl _
  have hplaces : (∃ text, s.text source = .ok text) →
      ∀ q ∈ wayOf s.directory (plan.target source).parent, q ∉ plan.ground s.directory →
        s.tree.get? q ≠ none := by
    rintro ⟨text, htext⟩ q hq hnot
    rw [hparent] at hq
    cases hdirectory : plan.outputDirectory with
    | none =>
      rw [hdirectory] at hq
      exact (way_of_text htext q hq).1
    | some directory =>
      rw [hdirectory] at hq
      rw [Plan.ground, hdirectory] at hnot
      exact absurd hq hnot
  rcases h.writes_or_keeps with ⟨c, code, hwrites⟩ | hkeeps
  · obtain ⟨text, htext, -⟩ := hwrites.compiled
    exact akin_of_stores hwrites.admitted hwrites.stored hground (hplaces ⟨text, htext⟩)
  · by_cases htext : ∃ text, s.text source = .ok text
    · exact akin_of_furnishes hkeeps.furnished (hplaces htext)
    · rw [hkeeps.untouched fun text c code h _ _ => absurd ⟨text, h⟩ htext]
      exact .refl _ _ _

/-! ### What is the same in akin trees -/

section

variable {s₀ : Session} (hakin : Akin plan s.directory s₀.tree s.tree)
  (hdirectory : s.directory = s₀.directory) (hout : given plan.arguments.out = none)
  (hsame : s.text source = s₀.text source) {text : String} (htext : s.text source = .ok text)
include hakin hdirectory hout hsame htext

omit [Expression.Capacity] in
/-- No file stands in the way of a module if none does in the other tree. -/
theorem isFree_iff_of_akin :
    s.tree.IsFree s.directory (plan.target source).parent ↔
      s₀.tree.IsFree s₀.directory (plan.target source).parent := by
  rw [FileTree.IsFree, FileTree.IsFree, parent_target hout, ← hdirectory]
  apply forall₂_congr
  intro q hq
  cases hgiven : plan.outputDirectory with
  | some directory =>
    rw [hgiven] at hq
    have hground : q ∈ plan.ground s.directory := by rwa [Plan.ground, hgiven]
    rw [hakin.files q hground]
  | none =>
    rw [hgiven] at hq
    rw [(way_of_text htext q hq).2]
    rw [hdirectory] at hq
    exact (way_of_text (hsame ▸ htext) q hq).2.symm

omit [Expression.Capacity] in
/-- **A module can be written** if it can be in the other tree. -/
theorem admits_iff_of_akin :
    s.tree.Admits s.directory (plan.target source) ↔
      s₀.tree.Admits s₀.directory (plan.target source) := by
  have hfree := isFree_iff_of_akin hakin hdirectory hout hsame htext
  rw [FileTree.admits_iff, FileTree.admits_iff, hfree, ← hdirectory]
  by_cases hmem : placeOf s.directory (plan.target source) ∈
      wayOf s.directory (plan.target source).parent
  · simp [hmem]
  · have hground : placeOf s.directory (plan.target source) ∉ plan.ground s.directory := by
      intro hground
      apply hmem
      rw [parent_target hout]
      rw [Plan.ground] at hground
      split at hground
      · next directory hgiven => rwa [hgiven]
      · cases hground
    simp only [ne_eq, hakin.elsewhere _ hground .directory nofun,
      hakin.elsewhere _ hground .sealed nofun]

omit [Expression.Capacity] in
/-- The path of a module is named if it is in the other tree. -/
theorem isUnnamed_iff_of_akin :
    s.tree.IsUnnamed s.directory (plan.target source) ↔
      s₀.tree.IsUnnamed s₀.directory (plan.target source) := by
  rw [FileTree.IsUnnamed, FileTree.IsUnnamed,
    isFree_iff_of_akin hakin hdirectory hout hsame htext]

end

/-- A source comes to the same if it is read as before, its module is compared with the same text,
and it can be written where it could be. -/
theorem verdict_congr {s₀ : Session} (hsame : s.text source = s₀.text source)
    (hheld : plan.arguments.check = true → s.text (plan.target source) =
      s₀.text (plan.target source))
    (hmodule : ∀ text, s.text source = .ok text → plan.arguments.check = false →
      (s.tree.Admits s.directory (plan.target source) ↔
        s₀.tree.Admits s₀.directory (plan.target source)) ∧
      (s.tree.IsUnnamed s.directory (plan.target source) ↔
        s₀.tree.IsUnnamed s₀.directory (plan.target source))) :
    verdict plan source s = verdict plan source s₀ := by
  cases htext : s.text source with
  | error fault =>
    have htext₀ : s₀.text source = .error fault := hsame.symm.trans htext
    by_cases hfault : ∃ why path, fault = .file (.refused why path)
    · obtain ⟨why, path, rfl⟩ := hfault
      rw [verdict_of_refused htext, verdict_of_refused htext₀]
    · simp only [not_exists] at hfault
      rw [verdict_of_error htext hfault, verdict_of_error htext₀ hfault]
  | ok text =>
    have htext₀ : s₀.text source = .ok text := hsame.symm.trans htext
    cases hcompile : compile plan.options text (toString source) with
    | error fault =>
      have hnone : ∀ c, compile plan.options text (toString source) = .ok c → c.code = none := by
        simp [hcompile]
      rw [verdict_of_text htext hnone, verdict_of_text htext₀ hnone]
    | ok c =>
      cases hcode : c.code with
      | none =>
        have hnone : ∀ c, compile plan.options text (toString source) = .ok c → c.code = none := by
          simp [hcompile, hcode]
        rw [verdict_of_text htext hnone, verdict_of_text htext₀ hnone]
      | some code =>
        rw [verdict_of_code htext hcompile hcode, verdict_of_code htext₀ hcompile hcode]
        cases hcheck : plan.arguments.check with
        | true =>
          rw [hheld hcheck, if_pos rfl, if_pos rfl]
        | false =>
          obtain ⟨hadmits, hunnamed⟩ := hmodule text htext hcheck
          simp only [hadmits, hunnamed, if_neg Bool.false_ne_true]

/-! ### Runs -/

variable {sources : List String}

/-- All along a run the trees are akin. -/
theorem akin_visits (hout : given plan.arguments.out = none) :
    ∀ v ∈ visits plan s sources, Akin plan s.directory s.tree v.before.tree := by
  intro v hv
  have hstep : ∀ source ∈ sources, ∀ s₁ outcome s₂,
      Course plan (Path.ofString source) s₁ outcome s₂ →
      s₁.directory = s.directory ∧ Akin plan s.directory s.tree s₁.tree →
      s₂.directory = s.directory ∧ Akin plan s.directory s.tree s₂.tree := by
    intro source _ s₁ outcome s₂ hcourse hs
    refine ⟨hcourse.directory_eq.trans hs.1, hs.2.trans ?_⟩
    rw [← hs.1]
    exact hcourse.akin hout
  exact ((visits_invariant _ ⟨rfl, .refl _ _ _⟩ hstep).1 v hv).1.2

/-- The tree is left as it is if modules are compared or shown. -/
theorem Course.tree_eq (hmode : plan.arguments.stdout = true ∨ plan.arguments.check = true)
    (h : Course plan source s outcome s') : s'.tree = s.tree := by
  rcases h.writes_or_keeps with ⟨c, code, hwrites⟩ | hkeeps
  · rcases hmode with hmode | hmode
    · cases hmode.symm.trans hwrites.notShown
    · cases hmode.symm.trans hwrites.notCompared
  · exact hkeeps.untouched fun _ _ _ _ _ _ => hmode

/-- All along a run in which modules are compared or shown, the tree is the same. -/
theorem tree_visits (hmode : plan.arguments.stdout = true ∨ plan.arguments.check = true) :
    (∀ v ∈ visits plan s sources, v.before.tree = s.tree ∧ v.after.tree = s.tree) ∧
      (left s (visits plan s sources)).tree = s.tree :=
  visits_invariant (fun s' => s'.tree = s.tree) rfl
    fun _ _ _ _ _ hcourse hs => (hcourse.tree_eq hmode).trans hs

/-- **A source that is read as at the start** comes to what it comes to on its own. -/
theorem outcome_visit (hout : given plan.arguments.out = none) {v : Visit}
    (hv : v ∈ visits plan s sources) (hsame : v.before.text v.path = s.text v.path) :
    v.outcome = verdict plan v.path s := by
  have hdirectory := (directory_visit hv).1
  rw [← (course_visit hv).2.verdict_eq]
  apply verdict_congr hsame
  · intro hcheck
    exact text_congr ((tree_visits (Or.inr hcheck)).1 v hv).1 hdirectory _
  · intro text htext _
    have hakin := akin_visits hout v hv
    rw [← hdirectory] at hakin
    exact ⟨admits_iff_of_akin hakin hdirectory hout hsame htext,
      isUnnamed_iff_of_akin hakin hdirectory hout hsame htext⟩

/-! ### Sources that are not overwritten -/

/-- A file that is found is left by a source whose module goes elsewhere. -/
theorem Course.read_eq {p : Path} {content : List UInt8} (h : Course plan source s outcome s')
    (hapart : placeOf s.directory (plan.target source) ≠ placeOf s.directory p)
    (hread : s.tree.read s.directory p = .ok content) :
    s'.tree.read s'.directory p = .ok content := by
  obtain ⟨place, hlocate, hfile⟩ := FileTree.read_eq_ok_iff.mp hread
  obtain ⟨hnull, hpassed, rfl⟩ := FileTree.locate_eq_ok_iff.mp hlocate
  rw [h.directory_eq]
  apply FileTree.read_eq_ok_iff.mpr
  refine ⟨_, FileTree.locate_eq_ok_iff.mpr ⟨hnull, fun q hq => h.directory (hpassed q hq), rfl⟩, ?_⟩
  rw [h.fileAt?_eq fun _ _ _ => hapart.symm]
  exact hfile

/-- **A source that is found at the start is read as at the start**, unless a module is written in
its place. -/
theorem text_visit {p : Path} {text : String} (htext : s.text p = .ok text)
    (hapart : ∀ source ∈ sources, placeOf s.directory (plan.target (Path.ofString source)) ≠
      placeOf s.directory p) :
    ∀ v ∈ visits plan s sources, v.before.text p = s.text p := by
  obtain ⟨content, hread⟩ := exists_read_of_text htext
  have hstep : ∀ source ∈ sources, ∀ s₁ outcome s₂,
      Course plan (Path.ofString source) s₁ outcome s₂ →
      s₁.directory = s.directory ∧ s₁.tree.read s₁.directory p = .ok content →
      s₂.directory = s.directory ∧ s₂.tree.read s₂.directory p = .ok content := by
    intro source hsource s₁ outcome s₂ hcourse hs
    refine ⟨hcourse.directory_eq.trans hs.1, hcourse.read_eq ?_ hs.2⟩
    rw [hs.1]
    exact hapart source hsource
  intro v hv
  have hkept := ((visits_invariant _ ⟨rfl, hread⟩ hstep).1 v hv).1.2
  rw [text_eq, text_eq, hkept, hread]

end Errata.CommandLine
