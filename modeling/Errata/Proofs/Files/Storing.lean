import Errata.Proofs.Files.Session
import Errata.Proofs.Files.Way

/-!
# Writing modules in a session

A module is written in a directory that is made if it is missing, with those above it.

* **`makesWay_makeDirectoriesUpTo`**: what making directories does to the tree of a session.
* **`storing_writeModule`**: what writing a module does to it, and when that succeeds.
-/

namespace Errata.Session

open FileTree (HoldsNull wayOf placeOf passed startOf Furnishes MakesWay)

/-- What is left of a refusal depends on whether there is a directory. -/
theorem run_unlessDirectory (p : Path) (why : Files.Refusal) (path : Path) (s : Session) :
    (Files.unlessDirectory p (.error (.refused why path)) : StateM Session _).run s =
      (if s.tree.isDirectory s.directory p then .ok () else .error (.refused why path), s) :=
  rfl

/-- The tree of a session is changed, unless that is refused. -/
theorem run_change (f : FileTree → Place → Except Files.Fault FileTree) (s : Session) :
    (change f).run s = match f s.tree s.directory with
      | .ok tree => (.ok (), { s with tree })
      | .error fault => (.error fault, s) := rfl

/-- A directory is made in the tree of a session, unless that is refused. -/
theorem run_makeDirectory (p : Path) (s : Session) :
    (Host.makeDirectory p : StateM Session _).run s =
      match s.tree.makeDirectory s.directory p with
      | .ok tree => (.ok (), { s with tree })
      | .error fault => (.error fault, s) :=
  run_change (fun t here => t.makeDirectory here p) s

variable {p : Path}

/-- At the end of a way on which there are directories there is one as soon as it has been made,
unless there is a file. -/
theorem makesWay_of_passed (s : Session) (hnull : ¬HoldsNull p)
    (hpassed : ∀ q ∈ passed (startOf s.directory p) p.parts, s.tree.get? q = some .directory) :
    ∃ outcome tree,
      (Host.makeDirectory p >>= Files.unlessDirectory p : StateM Session _).run s =
        (outcome, { s with tree }) ∧
      MakesWay s.tree s.directory p outcome tree := by
  rw [StateT.run_bind, run_makeDirectory, FileTree.makeDirectory_of_passed hnull hpassed]
  have hlast : placeOf s.directory p ∈ wayOf s.directory p :=
    List.mem_append_right _ (List.mem_singleton_self _)
  have hway : ∀ q ∈ wayOf s.directory p,
      s.tree.get? q = some .directory ∨ q = placeOf s.directory p := by
    intro q hq
    rcases List.mem_append.mp hq with hq | hq
    · exact Or.inl (hpassed q hq)
    · exact Or.inr (List.mem_singleton.mp hq)
  cases hat : s.tree.get? (placeOf s.directory p) with
  | none =>
    have hfurnished := FileTree.furnishes_put hlast hat
    refine ⟨_, _, rfl, .made hnull ?_ hfurnished ?_⟩
    · intro q hq
      rcases hway q hq with hdirectory | rfl
      · simp [FileTree.holdsFile, hdirectory, Entry.isFile]
      · simp [FileTree.holdsFile, hat]
    · intro q hq
      rcases hway q hq with hdirectory | rfl
      · exact hfurnished.directory hdirectory
      · refine FileTree.get?_put_self s.tree .directory ?_
        intro hroot
        rw [hroot] at hat
        cases hat
  | some entry =>
    have hdirectory := FileTree.isDirectory_of_passed (t := s.tree) hnull hpassed
    rw [hat] at hdirectory
    show ∃ outcome tree, (Files.unlessDirectory p (.error (.refused .existing p)) :
      StateM Session _).run s = _ ∧ _
    rw [run_unlessDirectory, hdirectory]
    have hblocked : entry.isFile = true → ¬s.tree.IsFree s.directory p := by
      intro hfile hfree
      have hnone := hfree _ hlast
      rw [FileTree.holdsFile, hat, Option.any_some, hfile] at hnone
      cases hnone
    cases entry with
    | directory =>
      have hall : ∀ q ∈ wayOf s.directory p, s.tree.get? q = some .directory := by
        intro q hq
        rcases hway q hq with hdirectory | rfl
        · exact hdirectory
        · exact hat
      refine ⟨_, s.tree, rfl, .made hnull (fun q hq => ?_) (.refl _ _) hall⟩
      simp [FileTree.holdsFile, hall q hq, Entry.isFile]
    | file content => exact ⟨_, s.tree, rfl, .blocked hnull (hblocked rfl) (.refl _ _)⟩
    | sealed => exact ⟨_, s.tree, rfl, .blocked hnull (hblocked rfl) (.refl _ _)⟩

/-- A way that is made in a tree in which part of it was made is made in the tree before. -/
theorem makesWay_of_furnishes {t t' t'' : FileTree} {here : Place}
    {outcome : Except Files.Fault Unit} (hnull : ¬HoldsNull p)
    (hfurnished : t.Furnishes t' (wayOf here p)) (h : MakesWay t' here p outcome t'') :
    MakesWay t here p outcome t'' := by
  cases h with
  | made hnull hfree hsecond hmade =>
    exact .made hnull (hfurnished.isFree_iff.mp hfree) (hfurnished.trans hsecond) hmade
  | blocked hnull hblocked hsecond =>
    exact .blocked hnull (mt hfurnished.isFree_iff.mpr hblocked) (hfurnished.trans hsecond)
  | nullCharacter h => exact absurd h hnull

/-- A directory that can be made, or that cannot be made for another reason than that those above it
are missing. -/
theorem run_makeDirectoriesUpTo_of_not_missing {depth : Nat} {s : Session}
    (h : ∀ fault, s.tree.makeDirectory s.directory p = .error fault → fault.isMissing = false) :
    (Files.makeDirectoriesUpTo (depth + 1) p : StateM Session _).run s =
      (Host.makeDirectory p >>= Files.unlessDirectory p : StateM Session _).run s := by
  rw [Files.makeDirectoriesUpTo, StateT.run_bind, StateT.run_bind, run_makeDirectory]
  cases hmade : s.tree.makeDirectory s.directory p with
  | ok tree => rfl
  | error fault =>
    show (if fault.isMissing then _ else Files.unlessDirectory p (.error fault) :
      StateM Session _).run s = _
    rw [h fault hmade]
    rfl

/-- A directory that cannot be made because those above it are missing. -/
theorem run_makeDirectoriesUpTo_of_missing {depth : Nat} {s : Session} {path : Path}
    (h : s.tree.makeDirectory s.directory p = .error (.refused .missing path)) :
    (Files.makeDirectoriesUpTo (depth + 1) p : StateM Session _).run s =
      (Files.makeDirectoriesUpTo depth p.parent >>= fun above =>
        match above with
        | .error fault => pure (.error fault)
        | .ok () => Host.makeDirectory p >>= Files.unlessDirectory p : StateM Session _).run s := by
  rw [Files.makeDirectoriesUpTo, StateT.run_bind, run_makeDirectory, h]
  rfl

/-- What comes of making directories for a path behind its parent. -/
theorem makesWay_of_parent {depth : Nat} {s : Session} (hnull : ¬HoldsNull p)
    (hparts : p.parts ≠ [])
    (hmissing : s.tree.makeDirectory s.directory p = .error (.refused .missing p))
    (h : ∃ outcome tree, (Files.makeDirectoriesUpTo depth p.parent : StateM Session _).run s =
      (outcome, { s with tree }) ∧ MakesWay s.tree s.directory p.parent outcome tree) :
    ∃ outcome tree,
      (Files.makeDirectoriesUpTo (depth + 1) p : StateM Session _).run s =
        (outcome, { s with tree }) ∧
      MakesWay s.tree s.directory p outcome tree := by
  have hpassed : passed (startOf s.directory p) p.parts = wayOf s.directory p.parent :=
    (FileTree.wayOf_of_concat s.directory (List.dropLast_concat_getLast hparts).symm).1
  have hsub : wayOf s.directory p.parent ⊆ wayOf s.directory p := by
    rw [← hpassed]
    exact List.subset_append_left _ _
  obtain ⟨outcome, tree, hrun, habove⟩ := h
  rw [run_makeDirectoriesUpTo_of_missing hmissing, StateT.run_bind, hrun]
  cases habove with
  | made _ hfree hfurnished hmade =>
    obtain ⟨outcome, tree', hrun', hlast⟩ :=
      makesWay_of_passed { s with tree } hnull (hpassed ▸ hmade)
    exact ⟨outcome, tree', hrun', makesWay_of_furnishes hnull (hfurnished.mono hsub) hlast⟩
  | blocked _ hblocked hfurnished =>
    exact ⟨_, _, rfl, .blocked hnull (fun hfree => hblocked fun q hq => hfree q (hsub hq))
      (hfurnished.mono hsub)⟩
  | nullCharacter hparent =>
    exact absurd (FileTree.holdsNull_of_parent hparent) hnull

/-- **Making directories** makes those that are missing on the way of a path, unless a file stands
in the way. -/
theorem makesWay_makeDirectoriesUpTo {depth : Nat} (hdepth : p.parts.length ≤ depth) (s : Session) :
    ∃ outcome tree,
      (Files.makeDirectoriesUpTo depth p : StateM Session _).run s = (outcome, { s with tree }) ∧
      MakesWay s.tree s.directory p outcome tree := by
  induction depth generalizing p s with
  | zero =>
    have hparts : p.parts = [] := List.length_eq_zero_iff.mp (Nat.le_zero.mp hdepth)
    refine makesWay_of_passed s (fun hnull => ?_) ?_
    · obtain ⟨name, hname, -⟩ := hnull
      simp [hparts] at hname
    · simp [hparts, passed]
  | succ depth ih =>
    have hattempt : ∀ {fault}, s.tree.makeDirectory s.directory p = .error fault →
        fault.isMissing = false →
        (Files.makeDirectoriesUpTo (depth + 1) p : StateM Session _).run s =
          (Files.unlessDirectory p (.error fault) : StateM Session _).run s := by
      intro fault hmade hfault
      rw [run_makeDirectoriesUpTo_of_not_missing, StateT.run_bind, run_makeDirectory, hmade]
      · rfl
      · intro other hother
        cases hmade.symm.trans hother
        exact hfault
    by_cases hnull : HoldsNull p
    · have hmade : s.tree.makeDirectory s.directory p = .error .nullCharacter := by
        rw [FileTree.makeDirectory, FileTree.locate_of_holdsNull hnull]
        rfl
      exact ⟨_, s.tree, hattempt hmade rfl, .nullCharacter hnull⟩
    cases hfollow : s.tree.follow (startOf s.directory p) p.parts with
    | ok last =>
      have hpassed := (FileTree.follow_eq_ok_iff.mp hfollow).1
      rw [run_makeDirectoriesUpTo_of_not_missing]
      · exact makesWay_of_passed s hnull hpassed
      · intro fault hfault
        rw [FileTree.makeDirectory_of_passed hnull hpassed] at hfault
        split at hfault <;> cases hfault
        rfl
    | error why =>
      have hlocate : s.tree.locate s.directory p = .error (.refused why p) := by
        rw [FileTree.locate_eq_follow hnull, hfollow]
        rfl
      have hmade : s.tree.makeDirectory s.directory p = .error (.refused why p) := by
        rw [FileTree.makeDirectory, hlocate]
        rfl
      obtain ⟨q, hq, ⟨rfl, -⟩ | ⟨rfl, hfile⟩⟩ := FileTree.exists_of_follow_eq_error hfollow
      · -- the directories above are made first
        have hparts : p.parts ≠ [] := by
          intro hnil
          rw [hnil] at hq
          cases hq
        refine makesWay_of_parent hnull hparts hmade (ih ?_ s)
        rw [Path.parent, List.length_dropLast]
        omega
      · have hdirectory : s.tree.isDirectory s.directory p = false := by
          rw [FileTree.isDirectory, hlocate]
        rw [hattempt hmade rfl, run_unlessDirectory, hdirectory]
        refine ⟨_, s.tree, rfl, .blocked hnull (fun hfree => ?_) (.refl _ _)⟩
        cases hfile.symm.trans (hfree q (List.mem_append_left _ hq))

/-! ### Writing a module -/

/-- A file is written in the tree of a session, unless that is refused. -/
theorem run_writeFile (p : Path) (text : String) (s : Session) :
    (Host.writeFile p text : StateM Session _).run s =
      match s.tree.write s.directory p (Bytes.encode text.toList) with
      | .ok tree => (.ok (), { s with tree })
      | .error fault => (.error fault, s) :=
  run_change (fun t here => t.write here p (Bytes.encode text.toList)) s

/-- **Writing a module** makes the directories that are missing on the way to it, and writes it
unless something stands in its place or in the way. -/
theorem storing_writeModule (code : String) (p : Path) (s : Session) :
    ∃ outcome tree,
      (writeModule code p : StateM Session _).run s = (outcome, { s with tree }) ∧
      FileTree.Storing s.tree s.directory p (Bytes.encode code.toList) outcome tree := by
  obtain ⟨outcome, tree, hrun, hway⟩ :=
    makesWay_makeDirectoriesUpTo (Nat.le_refl p.parent.parts.length) s
  rw [writeModule, Files.makeDirectories, StateT.run_bind, hrun]
  cases hway with
  | nullCharacter hparent => exact ⟨_, _, rfl, .nullCharacter (Or.inl hparent) (.refl _ _)⟩
  | blocked hparent hblocked hfurnished =>
    refine ⟨_, _, rfl, .refused ?_ (fun hadmits => hblocked hadmits.free) hfurnished⟩
    rintro (hnull | ⟨-, hfree⟩)
    · exact hparent hnull
    · exact hblocked hfree
  | made hparent hfree hfurnished hmade =>
    show ∃ outcome tree', (Host.writeFile p code : StateM Session _).run { s with tree } =
      (outcome, { s with tree := tree' }) ∧ _
    rw [run_writeFile]
    by_cases hnull : HoldsNull p
    · have hwrite : tree.write s.directory p (Bytes.encode code.toList) =
          .error .nullCharacter := by
        rw [FileTree.write, FileTree.locate_of_holdsNull hnull]
        rfl
      rw [hwrite]
      exact ⟨_, _, rfl, .nullCharacter (Or.inr ⟨hnull, hfree⟩) hfurnished⟩
    · have hnamed : ¬s.tree.IsUnnamed s.directory p := by
        rintro (h | ⟨h, -⟩)
        · exact hparent h
        · exact hnull h
      have hadmits := FileTree.admits_iff_of_furnishes hnull hfree hfurnished hmade
      dsimp only
      rw [FileTree.write_of_passed hnull fun q hq =>
        hmade q (FileTree.passed_subset s.directory p hq)]
      by_cases hlast : tree.get? (placeOf s.directory p) = some .directory
      · rw [if_pos hlast]
        exact ⟨_, _, rfl, .refused hnamed (fun h => (hadmits.mp h).1 hlast) hfurnished⟩
      rw [if_neg hlast]
      by_cases hsealed : tree.get? (placeOf s.directory p) = some .sealed
      · rw [if_pos hsealed]
        exact ⟨_, _, rfl, .refused hnamed (fun h => (hadmits.mp h).2 hsealed) hfurnished⟩
      · rw [if_neg hsealed]
        exact ⟨_, _, rfl, .stored (hadmits.mpr ⟨hlast, hsealed⟩)
          (FileTree.stores_put hfurnished hmade hlast)⟩

end Errata.Session
