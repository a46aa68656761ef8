import Errata.Files.Module
import Errata.Files.Tree
import Errata.Proofs.Outcome

/-!
# Ways through a file tree

A path leads through places to a place, which does not depend on what stands there, unless it is a
directory. So a file is found again under the path that it was written to, with its content.
Directories can be made on the way of a path unless a file stands in the way, and a file can be
written behind them unless there is a directory.

* `follow_put`: the way to a place is the same after a change at that place.
* **`read_of_write`**: what is read is what was written.
* `passed`, `reached`, `follow_eq_ok_iff`: the places that names lead through, and where they lead.
* **`locate_eq_ok_iff`**: where a path leads to.
* `fileAt?`, `read_eq_ok_iff`: the files of a tree.
* `Furnishes`: trees that differ in directories which were made where nothing stood.
* `MakesWay`: what comes of making directories on the way of a path.
* `Admits`, `Stores`, `Storing`: what comes of writing a file behind them.
-/

namespace Errata.FileTree

/-- **The way to a place** is the same after a change at that place, if there is no directory. -/
theorem follow_put {t : FileTree} {place last : Place} {names : List String} (entry : Entry)
    (hlast : t.get? last ≠ some .directory) (h : t.follow place names = .ok last) :
    (t.put last entry).follow place names = .ok last := by
  induction names generalizing place with
  | nil => exact h
  | cons name names ih =>
    rw [follow] at h
    split at h
    · next hplace =>
      have hne : place ≠ last := by
        rintro rfl
        exact hlast hplace
      rw [follow, get?_put_of_ne t entry hne, hplace]
      exact ih h
    · cases h
    · cases h

/-- **What is read is what was written.** -/
theorem read_of_write {t t' : FileTree} {here : Place} {p : Path} {content : List UInt8}
    (h : t.write here p content = .ok t') : t'.read here p = .ok content := by
  obtain ⟨place, hlocate, h⟩ := Outcome.bind_eq_ok_iff.mp h
  dsimp only at h
  split at h
  · cases h
  split at h
  · cases h
  · next hplace _ =>
    cases h
    have hne : place ≠ [] := by
      rintro rfl
      exact hplace rfl
    have hagain : (t.put place (.file content)).locate here p = .ok place := by
      unfold locate at hlocate ⊢
      split at hlocate
      · cases hlocate
      · next hnull =>
        rw [if_neg hnull]
        rw [Outcome.mapError_eq_ok_iff] at hlocate ⊢
        exact follow_put _ hplace hlocate
    have hfile := get?_put_self t (.file content) hne
    simp only [read, hagain, bind, Except.bind, hfile]
    rfl

end Errata.FileTree

namespace Errata.FileTree

/-! ### Files -/

/-- A file stands where something stands that is no directory. -/
theorem holdsFile_eq_true_iff {t : FileTree} {q : Place} :
    t.holdsFile q = true ↔ t.get? q ≠ none ∧ t.get? q ≠ some .directory := by
  unfold holdsFile
  cases t.get? q with
  | none => simp
  | some entry => cases entry <;> simp [Entry.isFile]

/-! ### The way of a path -/

/-- The place that a name leads to. -/
def enter (place : Place) (name : String) : Place :=
  if name = ".." then place.dropLast else place ++ [name]

/-- The places that names lead through. -/
def passed (place : Place) : List String → List Place
  | [] => []
  | name :: names => place :: passed (enter place name) names

/-- The place that names lead to. -/
def reached (place : Place) (names : List String) : Place :=
  names.foldl enter place

/-- The last name leads on from where the others lead. -/
theorem passed_concat (place : Place) (names : List String) (name : String) :
    passed place (names ++ [name]) = passed place names ++ [reached place names] := by
  induction names generalizing place with
  | nil => rfl
  | cons first names ih =>
    rw [List.cons_append, passed, ih]
    rfl

/-- The last name leads on from where the others lead. -/
theorem reached_concat (place : Place) (names : List String) (name : String) :
    reached place (names ++ [name]) = enter (reached place names) name := by
  rw [reached, List.foldl_append]
  rfl

/-- Names lead somewhere if there is a directory at every place that they lead through. -/
theorem follow_eq_ok_iff {t : FileTree} {place last : Place} {names : List String} :
    t.follow place names = .ok last ↔
      (∀ q ∈ passed place names, t.get? q = some .directory) ∧ last = reached place names := by
  induction names generalizing place with
  | nil => simp [follow, passed, reached, eq_comm]
  | cons name names ih =>
    rw [passed, List.forall_mem_cons, and_assoc, follow]
    split
    · next h =>
      rw [ih]
      simp [h, reached, enter]
    · next hother h =>
      rw [h]
      exact iff_of_false nofun fun hall => hother (Option.some.inj hall.1)
    · next h => simp [h]

/-- Names that lead nowhere lead through a place where there is no directory. -/
theorem exists_of_follow_eq_error {t : FileTree} {place : Place} {names : List String}
    {why : Files.Refusal} (h : t.follow place names = .error why) :
    ∃ q ∈ passed place names,
      (why = .missing ∧ t.get? q = none) ∨ (why = .notDirectory ∧ t.holdsFile q = true) := by
  induction names generalizing place with
  | nil => cases h
  | cons name names ih =>
    rw [follow] at h
    rw [passed]
    split at h
    · obtain ⟨q, hq, hat⟩ := ih h
      exact ⟨q, List.mem_cons_of_mem _ hq, hat⟩
    · next entry hother hplace =>
      cases h
      refine ⟨place, List.mem_cons_self, Or.inr ⟨rfl, ?_⟩⟩
      rw [holdsFile_eq_true_iff, hplace]
      exact ⟨Option.some_ne_none _, fun heq => hother (Option.some.inj heq)⟩
    · next hplace =>
      cases h
      exact ⟨place, List.mem_cons_self, Or.inl ⟨rfl, hplace⟩⟩

/-- Where a path starts from a directory. -/
def startOf (here : Place) (p : Path) : Place :=
  if p.root = .relative then here else []

/-- Whether a path holds a null character. -/
def HoldsNull (p : Path) : Prop :=
  ∃ name ∈ p.parts, '\x00' ∈ name.toList

/-- The places that a path leads through, and the place where it leads. -/
def wayOf (here : Place) (p : Path) : List Place :=
  passed (startOf here p) p.parts ++ [reached (startOf here p) p.parts]

/-- The place that a path leads to. -/
def placeOf (here : Place) (p : Path) : Place :=
  reached (startOf here p) p.parts

/-- The way of a path that has a last name goes on from that of the path without it. -/
theorem wayOf_of_concat (here : Place) {p : Path} {names : List String} {name : String}
    (h : p.parts = names ++ [name]) :
    passed (startOf here p) p.parts = wayOf here p.parent ∧
      placeOf here p = enter (placeOf here p.parent) name := by
  have hparent : p.parent.parts = names := by rw [Path.parent, h, List.dropLast_concat]
  rw [wayOf, placeOf, placeOf, hparent, h, passed_concat, reached_concat]
  exact ⟨rfl, rfl⟩

/-- A path without null characters is followed name by name. -/
theorem locate_eq_follow {t : FileTree} {here : Place} {p : Path} (h : ¬HoldsNull p) :
    t.locate here p = (t.follow (startOf here p) p.parts).mapError (.refused · p) := by
  have hany : (p.parts.any fun name => name.toList.contains '\x00') = false := by
    rw [Bool.eq_false_iff, ne_eq, List.any_eq_true]
    rintro ⟨name, hname, hnull⟩
    exact h ⟨name, hname, List.contains_iff_mem.mp hnull⟩
  rw [locate, hany]
  rfl

/-- A path with a null character leads nowhere. -/
theorem locate_of_holdsNull {t : FileTree} {here : Place} {p : Path} (h : HoldsNull p) :
    t.locate here p = .error .nullCharacter := by
  obtain ⟨name, hname, hnull⟩ := h
  have hany : (p.parts.any fun name => name.toList.contains '\x00') = true :=
    List.any_eq_true.mpr ⟨name, hname, List.contains_iff_mem.mpr hnull⟩
  rw [locate, if_pos hany]

/-- **A path leads to its place** if there is a directory at every place that it leads through. -/
theorem locate_eq_ok_iff {t : FileTree} {here place : Place} {p : Path} :
    t.locate here p = .ok place ↔ ¬HoldsNull p ∧
      (∀ q ∈ passed (startOf here p) p.parts, t.get? q = some .directory) ∧
      place = placeOf here p := by
  by_cases hnull : HoldsNull p
  · simp [locate_of_holdsNull hnull, hnull]
  · rw [locate_eq_follow hnull, Outcome.mapError_eq_ok_iff, follow_eq_ok_iff]
    simp [hnull, placeOf]

/-! ### Trees with more directories -/

/-- The content of the file at a place, if there is one. -/
def fileAt? (t : FileTree) (place : Place) : Option (List UInt8) :=
  match t.get? place with
  | some (.file content) => some content
  | _ => none

/-- Whether a tree is another one in which directories were made at some of the places where nothing
stood. -/
def Furnishes (t t' : FileTree) (places : List Place) : Prop :=
  ∀ q, t'.get? q = t.get? q ∨ q ∈ places ∧ t.get? q = none ∧ t'.get? q = some .directory

variable {t t' t'' : FileTree} {places more : List Place} {here : Place} {p : Path}

/-- No directory may be made. -/
theorem Furnishes.refl (t : FileTree) (places : List Place) : t.Furnishes t places :=
  fun _ => Or.inl rfl

/-- More places may be given. -/
theorem Furnishes.mono (h : t.Furnishes t' places) (hmore : places ⊆ more) :
    t.Furnishes t' more :=
  fun q => (h q).imp_right fun ⟨hq, hat⟩ => ⟨hmore hq, hat⟩

/-- Directories may be made after others. -/
theorem Furnishes.trans (h : t.Furnishes t' places) (h' : t'.Furnishes t'' places) :
    t.Furnishes t'' places := by
  intro q
  rcases h q with heq | ⟨hq, hnone, hmade⟩
  · rw [← heq]
    exact h' q
  · rcases h' q with heq | ⟨-, hnone', -⟩
    · exact Or.inr ⟨hq, hnone, heq.trans hmade⟩
    · cases hmade.symm.trans hnone'

/-- A directory is made where nothing stands. -/
theorem furnishes_put {place : Place} (hplace : place ∈ places) (h : t.get? place = none) :
    t.Furnishes (t.put place .directory) places := by
  intro q
  by_cases hq : q = place
  · subst hq
    have hne : q ≠ [] := by
      rintro rfl
      cases h
    exact Or.inr ⟨hplace, h, get?_put_self t .directory hne⟩
  · exact Or.inl (get?_put_of_ne t .directory hq)

/-- Files stand at the same places. -/
theorem Furnishes.holdsFile_eq (h : t.Furnishes t' places) (q : Place) :
    t'.holdsFile q = t.holdsFile q := by
  unfold holdsFile
  rcases h q with heq | ⟨-, hnone, hmade⟩
  · rw [heq]
  · rw [hnone, hmade]
    rfl

/-- The files are the same. -/
theorem Furnishes.fileAt?_eq (h : t.Furnishes t' places) (q : Place) :
    t'.fileAt? q = t.fileAt? q := by
  unfold fileAt?
  rcases h q with heq | ⟨-, hnone, hmade⟩
  · rw [heq]
  · rw [hnone, hmade]

/-- The directories are still there. -/
theorem Furnishes.directory (h : t.Furnishes t' places) {q : Place}
    (hq : t.get? q = some .directory) : t'.get? q = some .directory := by
  rcases h q with heq | ⟨-, hnone, -⟩
  · exact heq.trans hq
  · cases hnone.symm.trans hq

/-- There is a file at a place exactly if its content is there. -/
theorem fileAt?_eq_some_iff {q : Place} {content : List UInt8} :
    t.fileAt? q = some content ↔ t.get? q = some (.file content) := by
  unfold fileAt?
  split
  · next found h => simp [h]
  · next h => exact iff_of_false nofun (h content)

/-- What is read is the content of the file at the place that a path leads to. -/
theorem read_eq_ok_iff {content : List UInt8} :
    t.read here p = .ok content ↔
      ∃ place, t.locate here p = .ok place ∧ t.fileAt? place = some content := by
  rw [read]
  cases t.locate here p with
  | error fault => simp [bind, Except.bind]
  | ok place =>
    simp only [Except.ok.injEq, exists_eq_left', fileAt?_eq_some_iff, bind, Except.bind]
    split
    · next found h => simp [h, pure, Except.pure]
    · next h => simp [h, throw, throwThe, MonadExceptOf.throw]
    · next h => simp [h, throw, throwThe, MonadExceptOf.throw]
    · next h => simp [h, throw, throwThe, MonadExceptOf.throw]

/-! ### Making directories -/

/-- Whether no file stands in the way of a path. -/
def IsFree (t : FileTree) (here : Place) (p : Path) : Prop :=
  ∀ q ∈ wayOf here p, t.holdsFile q = false

instance : Decidable (HoldsNull p) :=
  inferInstanceAs (Decidable (∃ name ∈ p.parts, '\x00' ∈ name.toList))

instance : Decidable (t.IsFree here p) :=
  inferInstanceAs (Decidable (∀ q ∈ wayOf here p, t.holdsFile q = false))

/-- Directories that are made do not stand in the way. -/
theorem Furnishes.isFree_iff (h : t.Furnishes t' places) : t'.IsFree here p ↔ t.IsFree here p :=
  forall₂_congr fun q _ => by rw [h.holdsFile_eq q]

/-- What comes of making directories on the way of a path: there are directories at all places on
it, unless a file stands at one of them. -/
inductive MakesWay (t : FileTree) (here : Place) (p : Path) :
    Except Files.Fault Unit → FileTree → Prop where
  /-- The directories are made. -/
  | made {t' : FileTree} (hnull : ¬HoldsNull p)
      (hfree : t.IsFree here p) (hfurnished : t.Furnishes t' (wayOf here p))
      (hmade : ∀ q ∈ wayOf here p, t'.get? q = some .directory) : MakesWay t here p (.ok ()) t'
  /-- A file stands in the way. -/
  | blocked {t' : FileTree} {why : Files.Refusal} {path : Path} (hnull : ¬HoldsNull p)
      (hfile : ¬t.IsFree here p) (hfurnished : t.Furnishes t' (wayOf here p)) :
      MakesWay t here p (.error (.refused why path)) t'
  /-- There is no such path. -/
  | nullCharacter (hnull : HoldsNull p) : MakesWay t here p (.error .nullCharacter) t

/-- A directory is made at the end of a way on which there are directories, if nothing stands there.
-/
theorem makeDirectory_of_passed (hnull : ¬HoldsNull p)
    (hpassed : ∀ q ∈ passed (startOf here p) p.parts, t.get? q = some .directory) :
    t.makeDirectory here p = match t.get? (placeOf here p) with
      | none => .ok (t.put (placeOf here p) .directory)
      | some _ => .error (.refused .existing p) := by
  have hlocate := locate_eq_ok_iff.mpr ⟨hnull, hpassed, rfl⟩
  rw [makeDirectory, hlocate]
  show (if (t.get? (placeOf here p)).isSome then _ else _) = _
  cases t.get? (placeOf here p) <;> rfl

/-- What stands at the end of a way. -/
theorem isDirectory_of_passed (hnull : ¬HoldsNull p)
    (hpassed : ∀ q ∈ passed (startOf here p) p.parts, t.get? q = some .directory) :
    t.isDirectory here p = decide (t.get? (placeOf here p) = some .directory) := by
  have hlocate := locate_eq_ok_iff.mpr ⟨hnull, hpassed, rfl⟩
  rw [isDirectory, hlocate]

/-! ### Writing modules -/

/-- Whether a file can be written at the end of a path on whose way directories are made. -/
structure Admits (t : FileTree) (here : Place) (p : Path) : Prop where
  /-- There is such a path. -/
  exists_path : ¬HoldsNull p
  /-- No file stands in the way. -/
  free : t.IsFree here p.parent
  /-- There is no directory at the end. -/
  notDirectory : t.get? (placeOf here p) ≠ some .directory
  /-- Nor is there a file that may not be opened. -/
  notSealed : t.get? (placeOf here p) ≠ some .sealed
  /-- None is made there. -/
  notMem : placeOf here p ∉ wayOf here p.parent

/-- A file can be written if each of these holds. -/
theorem admits_iff : t.Admits here p ↔ ¬HoldsNull p ∧ t.IsFree here p.parent ∧
    t.get? (placeOf here p) ≠ some .directory ∧ t.get? (placeOf here p) ≠ some .sealed ∧
    placeOf here p ∉ wayOf here p.parent :=
  ⟨fun h => ⟨h.exists_path, h.free, h.notDirectory, h.notSealed, h.notMem⟩,
    fun h => ⟨h.1, h.2.1, h.2.2.1, h.2.2.2.1, h.2.2.2.2⟩⟩

instance : Decidable (t.Admits here p) :=
  decidable_of_iff _ admits_iff.symm

/-- Whether a tree is another one in which a file was written at the end of a path. -/
structure Stores (t t' : FileTree) (here : Place) (p : Path) (content : List UInt8) : Prop where
  /-- The file is there. -/
  file : t'.get? (placeOf here p) = some (.file content)
  /-- The directories on its way are there. -/
  way : ∀ q ∈ wayOf here p.parent, t'.get? q = some .directory
  /-- Nothing else has changed, save for the directories that were missing on its way. -/
  rest : ∀ q, q ≠ placeOf here p → t'.get? q = t.get? q ∨
    q ∈ wayOf here p.parent ∧ t.get? q = none ∧ t'.get? q = some .directory

/-- Whether a file cannot be written since there is no such path, and not since a file stands in the
way of it. -/
def IsUnnamed (t : FileTree) (here : Place) (p : Path) : Prop :=
  HoldsNull p.parent ∨ HoldsNull p ∧ t.IsFree here p.parent

instance : Decidable (t.IsUnnamed here p) :=
  inferInstanceAs (Decidable (HoldsNull p.parent ∨ HoldsNull p ∧ t.IsFree here p.parent))

/-- A null character in the path above is one in the path. -/
theorem holdsNull_of_parent (h : HoldsNull p.parent) : HoldsNull p := by
  obtain ⟨name, hname, hchar⟩ := h
  exact ⟨name, List.dropLast_subset _ hname, hchar⟩

/-- A file can only be written if there is such a path. -/
theorem Admits.not_isUnnamed (h : t.Admits here p) : ¬t.IsUnnamed here p := by
  rintro (hnull | ⟨hnull, -⟩)
  · exact h.exists_path (holdsNull_of_parent hnull)
  · exact h.exists_path hnull

/-- What comes of writing a module. -/
inductive Storing (t : FileTree) (here : Place) (p : Path) (content : List UInt8) :
    Except Files.Fault Unit → FileTree → Prop where
  /-- It is written. -/
  | stored {t' : FileTree} (hadmits : t.Admits here p) (hstores : t.Stores t' here p content) :
      Storing t here p content (.ok ()) t'
  /-- Something stands in its place or in the way. -/
  | refused {t' : FileTree} {why : Files.Refusal} {path : Path} (hnull : ¬t.IsUnnamed here p)
      (hadmits : ¬t.Admits here p) (hfurnished : t.Furnishes t' (wayOf here p.parent)) :
      Storing t here p content (.error (.refused why path)) t'
  /-- There is no such path. -/
  | nullCharacter {t' : FileTree} (hnull : t.IsUnnamed here p)
      (hfurnished : t.Furnishes t' (wayOf here p.parent)) :
      Storing t here p content (.error .nullCharacter) t'

/-- The way of a path goes through the way of the path without its last name. -/
theorem passed_subset (here : Place) (p : Path) :
    passed (startOf here p) p.parts ⊆ wayOf here p.parent := by
  rcases List.eq_nil_or_concat p.parts with hnil | ⟨names, name, hparts⟩
  · rw [hnil]
    exact List.nil_subset _
  · rw [(wayOf_of_concat here (by simpa using hparts)).1]
    exact List.Subset.refl _

/-- The places of the other files are the same after one was written. -/
theorem Stores.fileAt?_eq {content : List UInt8} (h : t.Stores t' here p content) {q : Place}
    (hq : q ≠ placeOf here p) : t'.fileAt? q = t.fileAt? q := by
  unfold fileAt?
  rcases h.rest q hq with heq | ⟨-, hnone, hmade⟩
  · rw [heq]
  · rw [hnone, hmade]

/-- Files stand at the other places as before one was written. -/
theorem Stores.holdsFile_eq {content : List UInt8} (h : t.Stores t' here p content) {q : Place}
    (hq : q ≠ placeOf here p) : t'.holdsFile q = t.holdsFile q := by
  unfold holdsFile
  rcases h.rest q hq with heq | ⟨-, hnone, hmade⟩
  · rw [heq]
  · rw [hnone, hmade]
    rfl

/-- The file that was written is there. -/
theorem Stores.fileAt?_self {content : List UInt8} (h : t.Stores t' here p content) :
    t'.fileAt? (placeOf here p) = some content := by
  rw [fileAt?, h.file]

/-- A file is written where directories lead to, unless there is a directory or what may not be
opened. -/
theorem write_of_passed {content : List UInt8} (hnull : ¬HoldsNull p)
    (hpassed : ∀ q ∈ passed (startOf here p) p.parts, t.get? q = some .directory) :
    t.write here p content = if t.get? (placeOf here p) = some .directory then
        .error (.refused .directory p)
      else if t.get? (placeOf here p) = some .sealed then .error (.refused .denied p)
      else .ok (t.put (placeOf here p) (.file content)) := by
  have hlocate := locate_eq_ok_iff.mpr ⟨hnull, hpassed, rfl⟩
  rw [write, hlocate]
  dsimp only [bind, Except.bind, pure, Except.pure, throw, throwThe, MonadExceptOf.throw]

/-- Whether a file is written does not depend on what is written to it. -/
theorem write_cases (t : FileTree) (here : Place) (p : Path) :
    (∃ fault, ∀ content, t.write here p content = .error fault) ∨
      ∃ place, ∀ content, t.write here p content = .ok (t.put place (.file content)) := by
  unfold write
  cases t.locate here p with
  | error fault => exact Or.inl ⟨fault, fun _ => rfl⟩
  | ok place =>
    by_cases hdirectory : t.get? place = some .directory
    · exact Or.inl ⟨.refused .directory p, fun _ => if_pos hdirectory⟩
    by_cases hsealed : t.get? place = some .sealed
    · exact Or.inl ⟨.refused .denied p, fun _ => (if_neg hdirectory).trans (if_pos hsealed)⟩
    · exact Or.inr ⟨place, fun _ => (if_neg hdirectory).trans (if_neg hsealed)⟩

/-- A file that is written behind directories that were made. -/
theorem stores_put {content : List UInt8} (hfurnished : t.Furnishes t' (wayOf here p.parent))
    (hmade : ∀ q ∈ wayOf here p.parent, t'.get? q = some .directory)
    (hlast : t'.get? (placeOf here p) ≠ some .directory) :
    t.Stores (t'.put (placeOf here p) (.file content)) here p content := by
  have hroot : placeOf here p ≠ [] := by
    intro hroot
    rw [hroot] at hlast
    exact hlast rfl
  refine ⟨get?_put_self t' _ hroot, fun q hq => ?_, fun q hq => ?_⟩
  · have hne : q ≠ placeOf here p := by
      rintro rfl
      exact hlast (hmade _ hq)
    rw [get?_put_of_ne t' _ hne]
    exact hmade q hq
  · rw [get?_put_of_ne t' _ hq]
    exact hfurnished q

/-- What writing a file comes to once the directories on its way have been made. -/
theorem admits_iff_of_furnishes (hnull : ¬HoldsNull p)
    (hfree : t.IsFree here p.parent) (hfurnished : t.Furnishes t' (wayOf here p.parent))
    (hmade : ∀ q ∈ wayOf here p.parent, t'.get? q = some .directory) :
    t.Admits here p ↔ t'.get? (placeOf here p) ≠ some .directory ∧
      t'.get? (placeOf here p) ≠ some .sealed := by
  constructor
  · intro h
    rcases hfurnished (placeOf here p) with heq | ⟨hq, -, -⟩
    · rw [heq]
      exact ⟨h.notDirectory, h.notSealed⟩
    · exact absurd hq h.notMem
  · rintro ⟨hdirectory, hsealed⟩
    refine ⟨hnull, hfree, fun h => hdirectory (hfurnished.directory h), fun h => hsealed ?_,
      fun hq => hdirectory (hmade _ hq)⟩
    rcases hfurnished (placeOf here p) with heq | ⟨-, hnone, -⟩
    · exact heq.trans h
    · cases hnone.symm.trans h

end Errata.FileTree
