import Errata.Proofs.CommandLine.Alone
import Errata.Proofs.CommandLine.Planned

/-!
# Runs in which not every text has an encoding

A strict session does what a session does, up to the first text that has no encoding and is to be
written to the stream of results or to a file. There the run ends.

* `Strict.Agrees`: whether a computation does the same in either session unless a condition holds,
  with rules to put computations together.
* `Refuses`: what has no encoding of all that is written for a source.
* **`agrees_runSource`**, **`agrees_runSources`**: nothing else makes a difference.
* `refuses_congr`: a source that is read as at the start is refused what it is refused on its own.
-/

namespace Errata.Strict

variable {α β : Type} {x : StateM Session α} {y : Strict α} {f : α → StateM Session β}
  {g : α → Strict β} {s : Session} {P Q : Prop}

/-! ### Computations that agree -/

/-- Whether a computation does in a strict session what it does in a session, unless it is refused
an encoding. Then it ends. -/
structure Agrees (x : StateM Session α) (y : Strict α) (s : Session) (refused : Prop) : Prop where
  /-- If nothing is refused, it comes to the same and leaves the same session. -/
  done : ¬refused → y.runIn s = (.ok (x.run s).1, (x.run s).2)
  /-- If something is refused, it ends. -/
  ended : refused → ∃ u s', y.runIn s = (.error u, s')

/-- The condition may be put another way. -/
theorem Agrees.congr (h : Agrees x y s P) (hiff : P ↔ Q) : Agrees x y s Q :=
  ⟨fun hq => h.done (mt hiff.mp hq), fun hq => h.ended (hiff.mpr hq)⟩

/-- What a computation comes to that is refused nothing. -/
theorem Agrees.result_eq_ok_iff (h : Agrees x y s P) {a : α} :
    (y.runIn s).1 = .ok a ↔ ¬P ∧ (x.run s).1 = a := by
  by_cases hp : P
  · obtain ⟨u, s', hend⟩ := h.ended hp
    simp [hend, hp]
  · simp [h.done hp, hp]

/-- What writes nothing is refused nothing. -/
theorem agrees_ofSession (x : StateM Session α) (s : Session) : Agrees x (ofSession x) s False :=
  ⟨fun _ => rfl, False.elim⟩

/-- A value is given. -/
theorem agrees_pure (a : α) (s : Session) : Agrees (pure a) (pure a) s False :=
  ⟨fun _ => rfl, False.elim⟩

/-- A step after a value that was given. -/
theorem runIn_bind_of_ok {a : α} {s' : Session} (h : y.runIn s = (.ok a, s')) :
    (y >>= g).runIn s = (g a).runIn s' := by
  show (y.run >>= ExceptT.bindCont g).run s = _
  unfold runIn at h
  rw [StateT.run_bind, h]
  rfl

/-- No step comes after a text that is refused. -/
theorem runIn_bind_of_error {u : Unencodable} {s' : Session} (h : y.runIn s = (.error u, s')) :
    (y >>= g).runIn s = (.error u, s') := by
  show (y.run >>= ExceptT.bindCont g).run s = _
  unfold runIn at h
  rw [StateT.run_bind, h]
  rfl

/-- **Two steps** are refused what either is. -/
theorem Agrees.bind (hx : Agrees x y s P)
    (hf : Agrees (f (x.run s).1) (g (x.run s).1) (x.run s).2 Q) :
    Agrees (x >>= f) (y >>= g) s (P ∨ Q) where
  done h := by
    obtain ⟨hp, hq⟩ := not_or.mp h
    rw [runIn_bind_of_ok (hx.done hp), hf.done hq, StateT.run_bind]
    rfl
  ended h := by
    by_cases hp : P
    · obtain ⟨u, s', hend⟩ := hx.ended hp
      exact ⟨u, s', runIn_bind_of_error hend⟩
    · obtain ⟨u, s', hend⟩ := hf.ended (h.resolve_left hp)
      exact ⟨u, s', (runIn_bind_of_ok (hx.done hp)).trans hend⟩

/-- After a step that is refused nothing, only the next one matters. -/
theorem Agrees.next (hx : Agrees x y s False)
    (hf : Agrees (f (x.run s).1) (g (x.run s).1) (x.run s).2 Q) :
    Agrees (x >>= f) (y >>= g) s Q :=
  (hx.bind hf).congr (by simp)

/-- After a step that is refused nothing and whose result is known, only the next one matters. -/
theorem Agrees.next_of_run (hx : Agrees x y s False) {a : α} {s' : Session}
    (hrun : x.run s = (a, s')) (hf : Agrees (f a) (g a) s' Q) : Agrees (x >>= f) (y >>= g) s Q := by
  apply hx.next
  rw [hrun]
  exact hf

/-- Before a step that is refused nothing, only the first one matters. -/
theorem Agrees.last (hx : Agrees x y s P)
    (hf : Agrees (f (x.run s).1) (g (x.run s).1) (x.run s).2 False) :
    Agrees (x >>= f) (y >>= g) s P :=
  (hx.bind hf).congr (by simp)

/-! ### Operations of hosts -/

section

variable [Encodings]

/-- A text is written to the stream of results if it has an encoding. -/
theorem agrees_write_output (text : String) (s : Session) :
    Agrees (Host.write .output text) (Host.write .output text) s
      (Encodings.unprintable text = true) := by
  have hwrite : (Host.write .output text : Strict Unit) =
      if Encodings.unprintable text then throw ⟨text⟩
      else ofSession (Host.write .output text) := rfl
  rw [hwrite]
  cases Encodings.unprintable text with
  | true => exact ⟨fun h => absurd rfl h, fun _ => ⟨⟨text⟩, s, rfl⟩⟩
  | false => exact (agrees_ofSession _ s).congr (by simp)

/-- Every text is written to the stream of complaints. -/
theorem agrees_write_complaints (text : String) (s : Session) :
    Agrees (Host.write .complaints text) (Host.write .complaints text) s False :=
  agrees_ofSession _ s

/-- Several lines are written to the stream of complaints. -/
theorem agrees_forM_complaints (lines : List String) (s : Session) :
    Agrees (lines.forM (Files.writeLine .complaints)) (lines.forM (Files.writeLine .complaints)) s
      False := by
  induction lines generalizing s with
  | nil => exact agrees_pure () s
  | cons line lines ih => exact (agrees_write_complaints _ s).next (ih _)

/-- A text is read. -/
theorem agrees_readText (p : Path) (s : Session) :
    Agrees (Files.readText p) (Files.readText p) s False := by
  refine (agrees_ofSession (Host.readFile p) s).next ?_
  split
  · exact agrees_pure _ _
  · split
    · exact agrees_pure _ _
    · exact agrees_pure _ _

/-- A file is looked for. -/
theorem agrees_firstFile? (ps : List Path) (s : Session) :
    Agrees (Settings.firstFile? ps) (Settings.firstFile? ps) s False := by
  induction ps generalizing s with
  | nil => exact agrees_pure _ s
  | cons p ps ih =>
    refine (agrees_ofSession (Host.isFile p) s).next ?_
    split
    · exact agrees_pure _ _
    · exact ih _

/-- The settings are read. -/
theorem agrees_load (start : Path) (s : Session) :
    Agrees (Settings.load start) (Settings.load start) s False := by
  unfold Settings.load
  split
  · exact agrees_pure _ s
  · refine (agrees_ofSession Host.workingDirectory s).next ?_
    refine (agrees_firstFile? _ _).next ?_
    split
    · exact agrees_pure _ _
    · next file _ =>
      refine (agrees_ofSession (Host.readFile file) _).next ?_
      split
      · exact agrees_pure _ _
      · exact agrees_pure _ _

/-- What is left of a refusal to make a directory. -/
theorem agrees_unlessDirectory (p : Path) (made : Except Files.Fault Unit) (s : Session) :
    Agrees (Files.unlessDirectory p made) (Files.unlessDirectory p made) s False := by
  unfold Files.unlessDirectory
  split
  · exact agrees_pure _ s
  · split
    · exact (agrees_ofSession (Host.isDirectory p) s).next (agrees_pure _ _)
    · exact agrees_pure _ s

/-- Directories are made. -/
theorem agrees_makeDirectoriesUpTo (depth : Nat) (p : Path) (s : Session) :
    Agrees (Files.makeDirectoriesUpTo depth p) (Files.makeDirectoriesUpTo depth p) s False := by
  have hmake : ∀ s, Agrees (Host.makeDirectory p >>= Files.unlessDirectory p)
      (Host.makeDirectory p >>= Files.unlessDirectory p) s False := fun s =>
    (agrees_ofSession (Host.makeDirectory p) s).next (agrees_unlessDirectory _ _ _)
  induction depth generalizing p s with
  | zero => exact hmake s
  | succ depth ih =>
    unfold Files.makeDirectoriesUpTo
    refine (agrees_ofSession (Host.makeDirectory p) s).next ?_
    split
    · exact agrees_pure _ _
    · split
      · refine (ih p.parent _ fun s => (agrees_ofSession (Host.makeDirectory p.parent) s).next
          (agrees_unlessDirectory _ _ _)).next ?_
        split
        · exact agrees_pure _ _
        · exact hmake _
      · exact agrees_unlessDirectory _ _ _

/-! ### Modules -/

/-- What is written to a file is first encoded, when the file is open. -/
theorem writeFile_eq (p : Path) (text : String) :
    (Host.writeFile p text : Strict _) =
      if Encodings.unwritable text then do
        match ← ofSession (Host.writeFile p "") with
        | .ok () => throw ⟨text⟩
        | .error fault => return .error fault
      else ofSession (Host.writeFile p text) :=
  rfl

/-- A text is written to a file if it has an encoding, or if the file cannot be opened. -/
theorem agrees_writeFile (p : Path) (text : String) (s : Session) :
    Agrees (Host.writeFile p text) (Host.writeFile p text) s
      (Encodings.unwritable text = true ∧
        ((Host.writeFile p text : StateM Session _).run s).1 = .ok ()) := by
  rw [writeFile_eq]
  cases Encodings.unwritable text with
  | false => exact (agrees_ofSession _ s).congr (by simp)
  | true =>
    have hrun := Session.run_writeFile p text s
    have hempty := (agrees_ofSession (Host.writeFile p "") s).done not_false
    rw [Session.run_writeFile] at hempty
    rcases s.tree.write_cases s.directory p with ⟨fault, hfault⟩ | ⟨place, hplace⟩
    · rw [hfault] at hrun hempty
      rw [hrun]
      exact ⟨fun _ => (runIn_bind_of_ok hempty).trans (by rw [hrun]; rfl), by simp⟩
    · rw [hplace] at hrun hempty
      rw [hrun]
      exact ⟨fun h => absurd ⟨rfl, rfl⟩ h, fun _ => ⟨⟨text⟩, _, runIn_bind_of_ok hempty⟩⟩

omit [Encodings] in
/-- A module is written when the directories that it needs are made. -/
theorem run_writeModule_of_run {code : String} {p : Path} {made : Except Files.Fault Unit}
    {s s₁ : Session}
    (h : (Files.makeDirectories p.parent : StateM Session _).run s = (made, s₁)) :
    (writeModule code p : StateM Session _).run s =
      (match made with
        | .error fault => pure (.error fault)
        | .ok () => Host.writeFile p code : StateM Session _).run s₁ := by
  rw [writeModule, StateT.run_bind, h]
  rfl

/-- A module is written if it has an encoding, or if it cannot be written anyway. -/
theorem agrees_writeModule (code : String) (p : Path) (s : Session) :
    Agrees (writeModule code p) (writeModule code p) s (Encodings.unwritable code = true ∧
      ((writeModule code p : StateM Session _).run s).1 = .ok ()) := by
  have hmake : Agrees (Files.makeDirectories p.parent) (Files.makeDirectories p.parent) s False :=
    agrees_makeDirectoriesUpTo _ _ s
  cases hmade : (Files.makeDirectories p.parent : StateM Session _).run s with
  | mk made s₁ =>
    rw [run_writeModule_of_run hmade]
    apply hmake.next_of_run hmade
    cases made with
    | error fault => exact (agrees_pure _ s₁).congr (by simp)
    | ok _ => exact agrees_writeFile p code s₁

end

end Errata.Strict

namespace Errata.CommandLine

open Strict

variable [Encodings]

/-! ### One source -/

/-- A text is shown if it is asked for, there, and has an encoding. -/
theorem agrees_showIf (wanted : Bool) (text : Option String) (s : Session) :
    Agrees (showIf wanted text) (showIf wanted text) s
      (wanted = true ∧ ∃ line, text = some line ∧ Encodings.unprintable (line ++ "\n") = true) := by
  cases wanted with
  | false => exact (agrees_pure () s).congr (by simp)
  | true =>
    cases text with
    | none => exact (agrees_pure () s).congr (by simp)
    | some line => exact (agrees_write_output (line ++ "\n") s).congr (by simp)

/-- A complaint is written. -/
theorem agrees_complain (complaint : String) (s : Session) :
    Agrees (complain complaint) (complain complaint) s False :=
  (agrees_write_complaints _ s).next (agrees_pure 2 _)

/-- A run ends with a complaint. -/
theorem agrees_ok_complain (complaint : String) (s : Session) :
    Agrees (do return .ok (← complain complaint) : StateM Session (Except Interruption Nat))
      (do return .ok (← complain complaint) : Strict (Except Interruption Nat)) s False :=
  (agrees_complain complaint s).next (agrees_pure _ _)

/-- A module is compared with what its file holds. -/
theorem agrees_compare (source target : Path) (code : String) (status : Nat) (s : Session) :
    Agrees (compare source target code status) (compare source target code status) s False := by
  have hstale := agrees_ok_complain (toString target ++ " is out of date with " ++ toString source)
  refine (agrees_readText target s).next ?_
  split
  · split
    · exact agrees_pure _ _
    · exact hstale _
  · split
    · exact hstale _
    · exact agrees_pure _ _
  · exact agrees_pure _ _

/-- A module is written where it can be, and a line tells of it, unless either has no encoding. -/
theorem agrees_writeTarget (target : Path) (code : String) (status : Nat) (s : Session) :
    Agrees (writeTarget target code status) (writeTarget target code status) s
      (s.tree.Admits s.directory target ∧ (Encodings.unwritable code = true ∨
        Encodings.unprintable ("Generated " ++ toString target ++ "\n") = true)) := by
  obtain ⟨outcome, tree, hrun, hstoring⟩ := Session.storing_writeModule code target s
  have hwrite := agrees_writeModule code target s
  rw [hrun] at hwrite
  unfold writeTarget
  cases hstoring with
  | stored hadmits hstores =>
    have hwrite : Agrees _ _ s (Encodings.unwritable code = true) := hwrite.congr (by simp)
    refine (hwrite.bind
      (Q := Encodings.unprintable ("Generated " ++ toString target ++ "\n") = true) ?_).congr
        (by simp [hadmits])
    rw [hrun]
    exact (agrees_write_output _ _).last (agrees_pure _ _)
  | refused _ hadmits _ =>
    have hwrite : Agrees _ _ s False := hwrite.congr (by simp)
    exact (hwrite.next_of_run hrun (agrees_ok_complain _ _)).congr (by simp [hadmits])
  | nullCharacter hnull _ =>
    have hadmits : ¬s.tree.Admits s.directory target := fun h => h.not_isUnnamed hnull
    have hwrite : Agrees _ _ s False := hwrite.congr (by simp)
    refine (?_ : Agrees _ _ s False).congr (by simp [hadmits])
    exact hwrite.next_of_run hrun (agrees_pure _ _)

/-- What has no encoding of what is done with a module. -/
inductive Undelivered (plan : Plan) (source : Path) (code : String) (s : Session) : Prop
  /-- The module that is shown. -/
  | shown (hmode : plan.arguments.stdout = true) (hcode : Encodings.unprintable code = true)
  /-- The module that is written. -/
  | written (hmode : plan.arguments.stdout = false) (hcheck : plan.arguments.check = false)
      (hadmits : s.tree.Admits s.directory (plan.target source))
      (hcode : Encodings.unwritable code = true)
  /-- The line that tells of a module that was written. -/
  | told (hmode : plan.arguments.stdout = false) (hcheck : plan.arguments.check = false)
      (hadmits : s.tree.Admits s.directory (plan.target source))
      (hcode : Encodings.unprintable (plan.notice source) = true)

/-- What has no encoding of what is done with a module is the same where it can be written as well.
-/
theorem undelivered_congr {plan : Plan} {source : Path} {code : String} {s s₀ : Session}
    (hmodule : plan.arguments.check = false →
      (s.tree.Admits s.directory (plan.target source) ↔
        s₀.tree.Admits s₀.directory (plan.target source))) :
    Undelivered plan source code s ↔ Undelivered plan source code s₀ := by
  constructor
  · intro h
    cases h with
    | shown hmode hcode => exact .shown hmode hcode
    | written hmode hcheck h hcode => exact .written hmode hcheck ((hmodule hcheck).mp h) hcode
    | told hmode hcheck h hcode => exact .told hmode hcheck ((hmodule hcheck).mp h) hcode
  · intro h
    cases h with
    | shown hmode hcode => exact .shown hmode hcode
    | written hmode hcheck h hcode => exact .written hmode hcheck ((hmodule hcheck).mpr h) hcode
    | told hmode hcheck h hcode => exact .told hmode hcheck ((hmodule hcheck).mpr h) hcode

/-- **A module is delivered** unless it has no encoding. -/
theorem agrees_deliver (plan : Plan) (source : Path) (code : String) (status : Nat)
    (s : Session) :
    Agrees (deliver plan source code status) (deliver plan source code status) s
      (Undelivered plan source code s) := by
  unfold deliver
  cases hmode : plan.arguments.stdout with
  | true =>
    refine (?_ : Agrees _ _ s (Encodings.unprintable code = true)).congr ?_
    · exact (agrees_write_output code s).last (agrees_pure _ _)
    · exact ⟨.shown hmode, fun h => by cases h <;> simp_all⟩
  | false =>
    cases hcheck : plan.arguments.check with
    | true =>
      refine (agrees_compare source (plan.target source) code status s).congr ?_
      exact ⟨False.elim, fun h => by cases h <;> simp_all⟩
    | false =>
      refine (agrees_writeTarget (plan.target source) code status s).congr ?_
      constructor
      · rintro ⟨hadmits, hcode | hcode⟩
        · exact .written hmode hcheck hadmits hcode
        · exact .told hmode hcheck hadmits hcode
      · intro h
        cases h with
        | shown hshown _ => cases hmode.symm.trans hshown
        | written _ _ hadmits hcode => exact ⟨hadmits, Or.inl hcode⟩
        | told _ _ hadmits hcode => exact ⟨hadmits, Or.inr hcode⟩

/-- A stage that gives up is refused nothing, and one that does not hands its result on. -/
theorem agrees_stage {α β ε : Type} {x : Except ε α}
    {next : Except ε α × Nat → StateM Session (Except ε β)}
    {next' : Except ε α × Nat → Strict (Except ε β)} {Q : α → Prop} {s : Session}
    (herror : ∀ e, Agrees (next (.error e, 0)) (next' (.error e, 0)) s False)
    (hok : ∀ a, Agrees (next (.ok a, 0)) (next' (.ok a, 0)) s (Q a)) :
    Agrees (Host.timed (fun _ => x) >>= next) (Host.timed (fun _ => x) >>= next') s
      (∃ a, x = .ok a ∧ Q a) := by
  refine (agrees_ofSession (Host.timed fun _ => x) s).next_of_run rfl ?_
  cases x with
  | error e => exact (herror e).congr (by simp)
  | ok a => exact (hok a).congr (by simp)

variable [Expression.Capacity]

/-- What has no encoding of what is shown while a text is compiled. -/
inductive Unshown (plan : Plan) (source : Path) (text : String) : Prop
  /-- The parse tree. -/
  | tree {parsed : Compilation} {tree : Syntax.Tree} (hasked : plan.arguments.dumpParse = true)
      (hparse : Compilation.ofSource text (toString source) = .ok parsed)
      (htree : parsed.tree = some tree)
      (hcode : Encodings.unprintable (tree.outline 0 ++ "\n") = true)
  /-- The descriptor. -/
  | descriptor {parsed built : Compilation} {dump : String}
      (hasked : plan.arguments.dumpDescriptor = true)
      (hparse : Compilation.ofSource text (toString source) = .ok parsed)
      (hbuild : parsed.build plan.options text = .ok built)
      (hdump : built.descriptor.bind (Descriptor.dump? · (toString source)) = some dump)
      (hcode : Encodings.unprintable (dump ++ "\n") = true)

/-- What has no encoding of all that is written for a source. -/
inductive Refuses (plan : Plan) (source : Path) (s : Session) : Prop
  /-- Something that is shown while it is compiled. -/
  | compiling {text : String} (htext : s.text source = .ok text)
      (h : Unshown plan source text)
  /-- Something that is done with its module. -/
  | delivering {text code : String} {c : Compilation} (htext : s.text source = .ok text)
      (hcompile : compile plan.options text (toString source) = .ok c) (hcode : c.code = some code)
      (h : Undelivered plan source code s)

/-- **A text is compiled** unless something is to be shown that has no encoding. -/
theorem agrees_compileText (plan : Plan) (source : Path) (text : String) (s : Session) :
    Agrees (compileText plan source text) (compileText plan source text) s
      (Unshown plan source text) := by
  refine Agrees.congr (agrees_stage (fun _ => agrees_pure _ s) fun parsed =>
    (agrees_showIf plan.arguments.dumpParse (parsed.tree.map (Syntax.Tree.outline 0)) s).bind
      (agrees_stage (fun _ => agrees_pure _ _) fun built =>
        (agrees_showIf plan.arguments.dumpDescriptor
          (built.descriptor.bind (Descriptor.dump? · (toString source))) _).bind
          (agrees_stage (fun _ => agrees_pure _ _) fun c => (?_ : Agrees _ _ _ False)))) ?_
  · dsimp only
    split
    · exact (agrees_forM_complaints _ _).next (agrees_pure _ _)
    · exact agrees_pure _ _
  · constructor
    · rintro ⟨parsed, hparse, ⟨hasked, line, hline, hcode⟩ | ⟨built, hbuild,
        ⟨hasked, line, hline, hcode⟩ | ⟨c, -, hfalse⟩⟩⟩
      · obtain ⟨tree, htree, rfl⟩ := Option.map_eq_some_iff.mp hline
        exact .tree hasked hparse htree hcode
      · exact .descriptor hasked hparse hbuild hline hcode
      · exact hfalse.elim
    · intro h
      cases h with
      | tree hasked hparse htree hcode =>
        exact ⟨_, hparse, Or.inl ⟨hasked, _, Option.map_eq_some_iff.mpr ⟨_, htree, rfl⟩, hcode⟩⟩
      | descriptor hasked hparse hbuild hdump hcode =>
        exact ⟨_, hparse, Or.inr ⟨_, hbuild, Or.inl ⟨hasked, _, hdump, hcode⟩⟩⟩

/-- What is refused of a source that is read. -/
theorem refuses_iff_of_text {plan : Plan} {source : Path} {text : String} {s : Session}
    (htext : s.text source = .ok text) :
    Refuses plan source s ↔ Unshown plan source text ∨ ∃ c code,
      compile plan.options text (toString source) = .ok c ∧ c.code = some code ∧
        Undelivered plan source code s := by
  constructor
  · intro h
    cases h with
    | compiling htext' h =>
      cases htext.symm.trans htext'
      exact Or.inl h
    | delivering htext' hcompile hcode h =>
      cases htext.symm.trans htext'
      exact Or.inr ⟨_, _, hcompile, hcode, h⟩
  · rintro (h | ⟨c, code, hcompile, hcode, h⟩)
    · exact .compiling htext h
    · exact .delivering htext hcompile hcode h

/-- A source that is not read is refused nothing. -/
theorem not_refuses_of_error {plan : Plan} {source : Path} {fault : Files.TextFault} {s : Session}
    (htext : s.text source = .error fault) : ¬Refuses plan source s := by
  intro h
  cases h with
  | compiling htext' | delivering htext' => cases htext.symm.trans htext'

/-- A source is refused the same if it is read as before and its module can be written where it
could be. -/
theorem refuses_congr {plan : Plan} {source : Path} {s s₀ : Session}
    (hsame : s.text source = s₀.text source)
    (hmodule : ∀ text, s.text source = .ok text → plan.arguments.check = false →
      (s.tree.Admits s.directory (plan.target source) ↔
        s₀.tree.Admits s₀.directory (plan.target source))) :
    Refuses plan source s ↔ Refuses plan source s₀ := by
  cases htext : s.text source with
  | error fault =>
    exact iff_of_false (not_refuses_of_error htext) (not_refuses_of_error (hsame.symm.trans htext))
  | ok text =>
    rw [refuses_iff_of_text htext, refuses_iff_of_text (hsame.symm.trans htext)]
    simp only [undelivered_congr (hmodule text htext)]

/-- **Nothing else makes a difference** to what is done with a source. -/
theorem agrees_runSource (plan : Plan) (source : Path) (s : Session) :
    Agrees (runSource plan source) (runSource plan source) s (Refuses plan source s) := by
  unfold runSource
  cases htext : s.text source with
  | error fault =>
    refine (?_ : Agrees _ _ s False).congr (iff_of_false not_false (not_refuses_of_error htext))
    refine (agrees_readText source s).next_of_run ((Session.run_readText s source).trans
      (by rw [htext])) ?_
    split
    · exact agrees_ok_complain _ s
    · exact agrees_pure _ s
    · next heq => cases heq
  | ok text =>
    refine (?_ : Agrees _ _ s _).congr (refuses_iff_of_text htext).symm
    refine (agrees_readText source s).next_of_run ((Session.run_readText s source).trans
      (by rw [htext])) ?_
    obtain ⟨shown, found, hprints⟩ := exists_prints_compileText plan source text
    refine (agrees_compileText plan source text s).bind ?_
    rw [hprints s]
    cases hcompile : compile plan.options text (toString source) with
    | error fault => exact (agrees_pure _ _).congr (by simp)
    | ok c =>
      refine (agrees_ofSession Host.terminal _).next ?_
      refine (agrees_ofSession Host.workingDirectory _).next ?_
      refine (agrees_write_complaints _ _).next ?_
      cases hcode : c.code with
      | none => exact (agrees_pure _ _).congr (by simp [hcode])
      | some code =>
        have hdelivered : Undelivered plan source code s ↔ ∃ c' code',
            (.ok c : Except CompileFault _) = .ok c' ∧ c'.code = some code' ∧
              Undelivered plan source code' s := by simp [hcode]
        refine (agrees_deliver plan source code c.exitCode _).congr (Iff.trans ?_ hdelivered)
        apply undelivered_congr
        exact fun _ => Iff.rfl

/-- **Nothing else makes a difference** to a run that works on sources. -/
theorem agrees_runSources (plan : Plan) (status : Nat) (sources : List String) (s : Session) :
    Agrees (runSources plan status sources) (runSources plan status sources) s
      (∃ v ∈ visits plan s sources, Refuses plan v.path v.before) := by
  induction sources generalizing status s with
  | nil => exact (agrees_pure _ s).congr (by simp [visits])
  | cons source rest ih =>
    obtain ⟨outcome, s', hrun, -, hvisits⟩ := visits_cons plan s source rest
    have hfirst := agrees_runSource plan (Path.ofString source) s
    unfold runSources
    rcases hvisits with ⟨why, rfl, hvisits⟩ | ⟨own, rfl, hvisits⟩
    · rw [hvisits]
      refine (hfirst.last ?_).congr (by simp [Visit.path])
      rw [hrun]
      exact agrees_pure _ _
    · rw [hvisits]
      refine (hfirst.bind (Q := ∃ v ∈ visits plan s' rest, Refuses plan v.path v.before) ?_).congr
        (by simp [Visit.path])
      rw [hrun]
      exact ih _ _

/-! ### Runs -/

/-- What has no encoding of all that a run writes. -/
inductive Arguments.Refuses (versions : Versions) (a : Arguments) (s : Session) : Prop
  /-- The line that tells the versions. -/
  | versions (hversion : a.version = true)
      (hcode : Encodings.unprintable (versions.banner ++ "\n") = true)
  /-- Something that is written for a source. -/
  | source {plan : Plan} {v : Visit} (hplanned : a.prospect s = .planned plan)
      (hv : v ∈ visits plan s plan.arguments.sources)
      (h : CommandLine.Refuses plan v.path v.before)

/-- What is refused of a run that tells the versions. -/
theorem Arguments.refuses_iff_of_version {versions : Versions} {a : Arguments} {s : Session}
    (hversion : a.version = true) :
    a.Refuses versions s ↔ Encodings.unprintable (versions.banner ++ "\n") = true := by
  refine ⟨fun h => ?_, .versions hversion⟩
  cases h with
  | versions _ hcode => exact hcode
  | source hplanned _ _ => cases hversion.symm.trans (prospect_eq_planned_iff.mp hplanned).1

/-- What is refused of a run with a plan. -/
theorem Arguments.refuses_iff_of_planned {versions : Versions} {a : Arguments} {plan : Plan}
    {s : Session} (h : a.prospect s = .planned plan) :
    a.Refuses versions s ↔ ∃ v ∈ visits plan s plan.arguments.sources,
      CommandLine.Refuses plan v.path v.before := by
  constructor
  · intro hrefuses
    cases hrefuses with
    | versions hversion _ => cases hversion.symm.trans (prospect_eq_planned_iff.mp h).1
    | source hplanned hv hsource =>
      cases h.symm.trans hplanned
      exact ⟨_, hv, hsource⟩
  · rintro ⟨v, hv, hsource⟩
    exact .source h hv hsource

/-- A run without a plan that does not tell the versions is refused nothing. -/
theorem Arguments.not_refuses_of_ended {versions : Versions} {a : Arguments}
    {outcome : Except Interruption Nat} {s : Session} (hversion : a.version = false)
    (h : a.prospect s = .ended outcome) : ¬a.Refuses versions s := by
  intro hrefuses
  cases hrefuses with
  | versions hversion' _ => cases hversion.symm.trans hversion'
  | source hplanned _ _ => cases h.symm.trans hplanned

/-- **Nothing else makes a difference** to a run. -/
theorem agrees_work (versions : Versions) (a : Arguments) (s : Session) :
    Agrees (work versions a) (work versions a) s (a.Refuses versions s) := by
  cases hversion : a.version with
  | true =>
    refine (?_ : Agrees _ _ s _).congr (Arguments.refuses_iff_of_version hversion).symm
    unfold work
    rw [if_pos hversion, if_pos hversion]
    exact (agrees_write_output _ s).last (agrees_pure _ _)
  | false =>
    by_cases hwrong : (a.sources.isEmpty || a.isMisused) = true
    · have hended : a.prospect s = .ended (.ok 2) := by
        rw [Arguments.prospect, hversion, if_neg Bool.false_ne_true, if_pos hwrong]
      refine (?_ : Agrees _ _ s False).congr
        (iff_of_false not_false (Arguments.not_refuses_of_ended hversion hended))
      unfold work
      rw [hversion, if_neg Bool.false_ne_true, if_neg Bool.false_ne_true]
      cases hsources : a.sources.isEmpty with
      | true => exact agrees_ok_complain _ s
      | false =>
        have hmisused : ((given a.out).isSome && decide (1 < a.sources.length)) = true := by
          rwa [hsources, Bool.false_or] at hwrong
        rw [if_neg Bool.false_ne_true, if_neg Bool.false_ne_true, if_pos hmisused, if_pos hmisused]
        exact agrees_ok_complain _ s
    · obtain ⟨hsources, hmisused⟩ : a.sources.isEmpty = false ∧ a.isMisused = false := by
        simpa using hwrong
      rw [work_eq hversion hsources hmisused, work_eq hversion hsources hmisused]
      cases hsettings : s.settings with
      | ok settings =>
        have hplanned := Arguments.prospect_eq_planned_iff.mpr
          ⟨hversion, List.isEmpty_eq_false_iff.mp hsources, hmisused, settings, hsettings, rfl⟩
        refine (?_ : Agrees _ _ s _).congr (Arguments.refuses_iff_of_planned hplanned).symm
        refine (agrees_load {} s).next_of_run ((Session.run_load s).trans (by rw [hsettings])) ?_
        exact agrees_runSources _ 0 a.sources s
      | error fault =>
        have hended : a.prospect s = .ended (endingWith fault) := by
          rw [Arguments.prospect, hversion, if_neg Bool.false_ne_true, if_neg hwrong, hsettings]
        refine (?_ : Agrees _ _ s False).congr
          (iff_of_false not_false (Arguments.not_refuses_of_ended hversion hended))
        refine (agrees_load {} s).next_of_run ((Session.run_load s).trans (by rw [hsettings])) ?_
        dsimp only
        split
        · exact agrees_ok_complain _ s
        · exact agrees_pure _ s

end Errata.CommandLine
