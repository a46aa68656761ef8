import Errata.Files.Module
import Errata.Proofs.Files.Way
import Errata.Proofs.Text.Encoding
import Errata.Settings

/-!
# What a session is left with

A computation of a session reads files, changes the tree or writes to the streams. Reading leaves
the session as it is, and writing to the streams does not depend on it.

* `Session.text`, `Session.settings`: what is read in a session.
* `Prints`: computations that only write to the streams, with rules to put them together.
* `IsReading`, `IsChange`: computations that leave the session as it is, or all but its tree.
* **`read_of_writeModule`**: a module that is written is found where it was written.
* **`text_of_read`**: it is read as it was written if there is no carriage return in it.
-/

namespace Errata.Session

variable {α β : Type}

/-! ### Writing to the streams -/

/-- The session after more was written to the streams. -/
def print (s : Session) (shown found : String) : Session :=
  { s with output := s.output ++ shown, complaints := s.complaints ++ found }

/-- Writing to the streams leaves the tree. -/
@[simp] theorem tree_print (s : Session) (shown found : String) :
    (s.print shown found).tree = s.tree := rfl

/-- Nothing is written. -/
@[simp] theorem print_empty (s : Session) : s.print "" "" = s := by
  simp [print]

/-- More is written behind what was written. -/
@[simp] theorem print_print (s : Session) (shown found shown' found' : String) :
    (s.print shown found).print shown' found' = s.print (shown ++ shown') (found ++ found') := by
  simp [print, String.append_assoc]

/-- Whether a computation only writes to the streams, the same in every session. -/
def Prints (x : StateM Session α) (a : α) (shown found : String) : Prop :=
  ∀ s, x.run s = (a, s.print shown found)

/-- A value is given and nothing written. -/
theorem Prints.pure (a : α) : Prints (pure a) a "" "" :=
  fun s => by rw [print_empty]; rfl

/-- One computation writes behind another. -/
theorem Prints.bind {x : StateM Session α} {f : α → StateM Session β} {a : α} {b : β}
    {shown found shown' found' : String} (hx : Prints x a shown found)
    (hf : Prints (f a) b shown' found') :
    Prints (x >>= f) b (shown ++ shown') (found ++ found') := by
  intro s
  rw [StateT.run_bind, hx s, ← print_print]
  exact hf _

/-- Writing to the stream of results. -/
theorem prints_output (text : String) :
    Prints (Host.write .output text : StateM Session Unit) () text "" :=
  fun s => by rw [print, String.append_empty]; rfl

/-- Writing to the stream of complaints. -/
theorem prints_complaints (text : String) :
    Prints (Host.write .complaints text : StateM Session Unit) () "" text :=
  fun s => by rw [print, String.append_empty]; rfl

/-- Taking the time writes nothing. -/
theorem prints_timed (f : Unit → α) :
    Prints (Host.timed f : StateM Session (α × Nat)) (f (), 0) "" "" :=
  Prints.pure _

/-- Something is written by one computation behind another. -/
theorem exists_prints_bind {x : StateM Session α} {f : α → StateM Session β} {a : α} {b : β}
    (hx : ∃ shown found, Prints x a shown found) (hf : ∃ shown found, Prints (f a) b shown found) :
    ∃ shown found, Prints (x >>= f) b shown found := by
  obtain ⟨_, _, hx⟩ := hx
  obtain ⟨_, _, hf⟩ := hf
  exact ⟨_, _, hx.bind hf⟩

/-- Something is written by each of several computations. -/
theorem exists_prints_forM {f : β → StateM Session Unit}
    (h : ∀ b, ∃ shown found, Prints (f b) () shown found) (bs : List β) :
    ∃ shown found, Prints (bs.forM f) () shown found := by
  induction bs with
  | nil => exact ⟨_, _, Prints.pure ()⟩
  | cons b bs ih => exact exists_prints_bind (h b) ih

/-! ### Reading -/

/-- Whether a computation leaves the session as it is. -/
def IsReading (x : StateM Session α) : Prop :=
  ∀ s, (x.run s).2 = s

/-- Giving a value leaves the session. -/
theorem IsReading.pure (a : α) : IsReading (pure a) :=
  fun _ => rfl

/-- Two computations leave the session if each does. -/
theorem IsReading.bind {x : StateM Session α} {f : α → StateM Session β} (hx : IsReading x)
    (hf : ∀ a, IsReading (f a)) : IsReading (x >>= f) := by
  intro s
  rw [StateT.run_bind]
  exact (hf _ _).trans (hx s)

/-- What a computation gives, and the session as it was. -/
theorem IsReading.run_eq {x : StateM Session α} (hx : IsReading x) (s : Session) :
    x.run s = ((x.run s).1, s) :=
  Prod.ext rfl (hx s)

/-- Reading a text leaves the session. -/
theorem isReading_readText (p : Path) :
    IsReading (Files.readText p : StateM Session (Except Files.TextFault String)) := by
  refine IsReading.bind (fun _ => rfl) fun bytes => ?_
  split
  · exact IsReading.pure _
  · split
    · exact IsReading.pure _
    · exact IsReading.pure _

/-- Looking for a file leaves the session. -/
theorem isReading_firstFile? (ps : List Path) :
    IsReading (Settings.firstFile? ps : StateM Session (Option Path)) := by
  induction ps with
  | nil => exact IsReading.pure _
  | cons p ps ih =>
    refine IsReading.bind (fun _ => rfl) fun isFile => ?_
    split
    · exact IsReading.pure _
    · exact ih

/-- Reading settings leaves the session. -/
theorem isReading_load (start : Path) :
    IsReading (Settings.load start : StateM Session (Except Settings.Fault Settings)) := by
  unfold Settings.load
  split
  · exact IsReading.pure _
  · refine IsReading.bind (fun _ => rfl) fun directory => ?_
    refine (isReading_firstFile? _).bind fun file => ?_
    split
    · exact IsReading.pure _
    · refine IsReading.bind (fun _ => rfl) fun bytes => ?_
      split
      · exact IsReading.pure _
      · exact IsReading.pure _

/-- The text that is read from a file. -/
def text (s : Session) (p : Path) : Except Files.TextFault String :=
  ((Files.readText p : StateM Session _).run s).1

/-- The settings that are found in the working directory or above it. -/
def settings (s : Session) : Except Settings.Fault Settings :=
  ((Settings.load {} : StateM Session _).run s).1

/-- Reading a text gives it. -/
theorem run_readText (s : Session) (p : Path) :
    (Files.readText p : StateM Session _).run s = (s.text p, s) :=
  (isReading_readText p).run_eq s

/-- Reading the settings gives them. -/
theorem run_load (s : Session) :
    (Settings.load {} : StateM Session _).run s = (s.settings, s) :=
  (isReading_load {}).run_eq s

/-- **A text is read as it was written**, save for the carriage returns. -/
theorem text_of_read {s : Session} {p : Path} {text : String}
    (h : s.tree.read s.directory p = .ok (Bytes.encode text.toList)) :
    s.text p = .ok (String.ofList (universalNewlines text.toList)) := by
  have hread : (Host.readFile p : StateM Session _).run s =
      (.ok (Bytes.encode text.toList), s) := by rw [← h]; rfl
  rw [Session.text, Files.readText, StateT.run_bind, hread]
  dsimp only [bind]
  rw [Bytes.decode_encode]
  rfl

/-! ### Changing the tree -/

/-- Whether a computation changes nothing but the tree. -/
def IsChange (x : StateM Session α) : Prop :=
  ∀ s, ∃ tree, (x.run s).2 = { s with tree }

/-- A computation that leaves the session changes nothing else. -/
theorem IsReading.isChange {x : StateM Session α} (hx : IsReading x) : IsChange x :=
  fun s => ⟨s.tree, hx s⟩

/-- Two computations change nothing but the tree if each does. -/
theorem IsChange.bind {x : StateM Session α} {f : α → StateM Session β} (hx : IsChange x)
    (hf : ∀ a, IsChange (f a)) : IsChange (x >>= f) := by
  intro s
  rw [StateT.run_bind]
  obtain ⟨tree, htree⟩ := hx s
  obtain ⟨tree', htree'⟩ := hf (x.run s).1 (x.run s).2
  refine ⟨tree', htree'.trans ?_⟩
  rw [htree]

/-- A change of the tree changes nothing else. -/
theorem isChange_change (f : FileTree → Place → Except Files.Fault FileTree) :
    IsChange (change f) := by
  intro s
  unfold change
  cases hf : f s.tree s.directory with
  | ok tree => exact ⟨tree, by simp [StateT.run, hf]⟩
  | error fault => exact ⟨s.tree, by simp [StateT.run, hf]⟩

/-- What is left of a refusal leaves the session. -/
theorem isReading_unlessDirectory (p : Path) (made : Except Files.Fault Unit) :
    IsReading (Files.unlessDirectory p made : StateM Session _) := by
  unfold Files.unlessDirectory
  split
  · exact IsReading.pure _
  · split
    · exact IsReading.bind (fun _ => rfl) fun _ => IsReading.pure _
    · exact IsReading.pure _

/-- Making directories changes nothing but the tree. -/
theorem isChange_makeDirectoriesUpTo (depth : Nat) (p : Path) :
    IsChange (Files.makeDirectoriesUpTo depth p : StateM Session _) := by
  induction depth generalizing p with
  | zero =>
    unfold Files.makeDirectoriesUpTo
    exact (isChange_change _).bind fun made => (isReading_unlessDirectory p made).isChange
  | succ depth ih =>
    unfold Files.makeDirectoriesUpTo
    refine (isChange_change _).bind fun made => ?_
    split
    · exact (IsReading.pure _).isChange
    · split
      · refine (ih p.parent).bind fun above => ?_
        split
        · exact (IsReading.pure _).isChange
        · exact (isChange_change _).bind fun made => (isReading_unlessDirectory p made).isChange
      · exact (isReading_unlessDirectory p _).isChange

/-- **A module that is written is found where it was written**, and nothing else than the tree is
changed. -/
theorem read_of_writeModule {code : String} {p : Path} {s s' : Session}
    (h : (writeModule code p : StateM Session _).run s = (.ok (), s')) :
    s' = { s with tree := s'.tree } ∧
      s'.tree.read s'.directory p = .ok (Bytes.encode code.toList) := by
  rw [writeModule, StateT.run_bind] at h
  obtain ⟨tree, htree⟩ := isChange_makeDirectoriesUpTo p.parent.parts.length p.parent s
  rw [Files.makeDirectories] at h
  generalize (Files.makeDirectoriesUpTo p.parent.parts.length p.parent : StateM Session _).run s =
    made at h htree
  obtain ⟨result, s₁⟩ := made
  obtain rfl : s₁ = { s with tree } := htree
  cases result with
  | error fault => cases h
  | ok _ =>
    have hwrite : (change fun t here => t.write here p (Bytes.encode code.toList)).run
        { s with tree } = (.ok (), s') := h
    unfold change at hwrite
    rw [StateT.run] at hwrite
    dsimp only at hwrite
    split at hwrite
    · next t ht =>
      cases hwrite
      exact ⟨rfl, FileTree.read_of_write ht⟩
    · cases hwrite

end Errata.Session
