import Errata.CommandLine.Program
import Errata.Proofs.CommandLine.Arguments
import Errata.Proofs.Expression.Newline
import Errata.Proofs.Files.Session

/-!
# Runs with one source

A run with one source reads the settings and the source, compiles it, and shows what was found. If
that comes to a module, the module is written to its file or compared with what the file holds.

* `exists_prints_compileText`: compiling only writes to the streams.
* `run_eq_runSource`: **a run with one source** works on it with the settings that are found.
* `exists_run_delivering`: what happens to a source that comes to a module.
* `run_compare`: **a module is compared** with a file that it was written to.
* `of_run_writeTarget`: what a run leaves behind that has written a module.
-/

namespace Errata.CommandLine

open Session (Prints prints_output prints_complaints prints_timed exists_prints_bind
  exists_prints_forM)

/-! ### Writing to the streams -/

/-- Something may be shown. -/
theorem exists_prints_showIf (wanted : Bool) (text : Option String) :
    ∃ shown found, Prints (showIf wanted text : StateM Session Unit) () shown found := by
  unfold showIf
  split
  · exact ⟨_, _, prints_output _⟩
  · exact ⟨_, _, Prints.pure ()⟩

/-- A complaint is written. -/
theorem prints_complain (complaint : String) :
    Prints (complain complaint : StateM Session Nat) 2 "" ("error: " ++ complaint ++ "\n") :=
  fun s => by rw [Session.print, String.append_empty]; rfl

/-- A run that ends with a complaint has exit code 2. -/
theorem status_of_run_complain {complaint : String} {s s' : Session} {status : Nat}
    (h : (do return .ok (← complain complaint) : StateM Session (Except Interruption Nat)).run s =
      (.ok status, s')) : status = 2 := by
  rw [StateT.run_bind, prints_complain complaint s] at h
  cases h
  rfl

/-- A stage that gives up only takes its time, and one that does not hands its result on. -/
theorem exists_prints_stage {α β ε : Type} {x : Except ε α}
    {next : Except ε α × Nat → StateM Session (Except ε β)} {k : α → Except ε β}
    (herror : ∀ e, x = .error e → ∃ shown found, Prints (next (.error e, 0)) (.error e) shown found)
    (hok : ∀ a, x = .ok a → ∃ shown found, Prints (next (.ok a, 0)) (k a) shown found) :
    ∃ shown found, Prints (Host.timed (fun _ => x) >>= next) (x >>= k) shown found := by
  cases x with
  | error e => exact exists_prints_bind ⟨_, _, prints_timed _⟩ (herror e rfl)
  | ok a => exact exists_prints_bind ⟨_, _, prints_timed _⟩ (hok a rfl)

variable [Expression.Capacity]

/-- **Compiling a text** only writes to the streams. -/
theorem exists_prints_compileText (plan : Plan) (source : Path) (text : String) :
    ∃ shown found, Prints (compileText plan source text : StateM Session _)
      (compile plan.options text (toString source)) shown found := by
  have hfail : ∀ fault : CompileFault, ∃ shown found, Prints
      (pure (.error fault) : StateM Session (Except CompileFault Compilation)) (.error fault)
        shown found := fun fault => ⟨_, _, Prints.pure _⟩
  refine exists_prints_stage (fun fault _ => hfail fault) fun parsed _ => ?_
  refine exists_prints_bind (exists_prints_showIf _ _) ?_
  dsimp only
  refine exists_prints_stage (fun fault _ => hfail fault) fun built _ => ?_
  refine exists_prints_bind (exists_prints_showIf _ _) ?_
  refine exists_prints_bind ⟨_, _, prints_timed _⟩ ?_
  cases built.generate plan.options (toString source) with
  | error fault => exact hfail fault
  | ok c =>
    dsimp only
    split
    · exact exists_prints_bind
        (exists_prints_forM (fun line => ⟨_, _, prints_complaints _⟩) _) ⟨_, _, Prints.pure _⟩
    · exact ⟨_, _, Prints.pure _⟩

/-! ### The settings -/

/-- The gravest exit code of a single source is its own. -/
theorem runSources_singleton (plan : Plan) (source : String) :
    (runSources plan 0 [source] : StateM Session _) = runSource plan (Path.ofString source) := by
  rw [runSources]
  refine (bind_congr fun outcome => ?_).trans (bind_pure _)
  cases outcome with
  | error why => rfl
  | ok status =>
    dsimp only
    rw [Nat.zero_max, runSources]

section

variable {versions : Versions} {words : List String} {a : Arguments} {source : String}
  (hwords : Request.ofWords words = .ok (.work a)) (hversion : a.version = false)
  (hsources : a.sources = [source])
include hwords hversion hsources

/-- A run with one source starts with the settings. -/
theorem run_eq :
    (run versions words : StateM Session _) = (do
      match ← Settings.load {} with
      | .ok settings => runSources (.ofSettings a settings) 0 [source]
      | .error fault =>
        match fault.complaint? with
        | some complaint => return .ok (← complain complaint)
        | none => return .error (.settings fault)) := by
  have hcount : ((given a.out).isSome && decide (1 < [source].length)) = false :=
    Bool.and_false _
  rw [run, hwords]
  show work versions a = _
  rw [work, hversion, hsources, hcount]
  rfl

/-- **A run with one source** works on it with the settings that are found. -/
theorem run_eq_runSource {settings : Settings} {s : Session} (h : s.settings = .ok settings) :
    (run versions words : StateM Session _).run s =
      (runSource (.ofSettings a settings) (Path.ofString source) : StateM Session _).run s := by
  rw [run_eq hwords hversion hsources, StateT.run_bind, Session.run_load, h]
  exact congrArg (StateT.run · s) (runSources_singleton _ source)

/-- A run with a small exit code has found settings. -/
theorem exists_settings_of_run {s s' : Session} {status : Nat}
    (hrun : (run versions words : StateM Session _).run s = (.ok status, s'))
    (hstatus : status ≤ 1) : ∃ settings, s.settings = .ok settings := by
  rw [run_eq hwords hversion hsources, StateT.run_bind, Session.run_load] at hrun
  cases hsettings : s.settings with
  | ok settings => exact ⟨settings, rfl⟩
  | error fault =>
    rw [hsettings] at hrun
    have hrun : (match fault.complaint? with
      | some complaint => do return .ok (← complain complaint)
      | none => return .error (.settings fault) :
      StateM Session (Except Interruption Nat)).run s = (.ok status, s') := hrun
    cases hcomplaint : fault.complaint? with
    | none =>
      rw [hcomplaint] at hrun
      cases hrun
    | some complaint =>
      rw [hcomplaint] at hrun
      have := status_of_run_complain hrun
      omega

end

/-! ### The source -/

/-- What was found in a source that is read and compiled is shown. Then its module is delivered, if
there is one. -/
theorem run_runSource_of_compile {plan : Plan} {source : Path} {s : Session}
    {text shown found : String} {c : Compilation} (htext : s.text source = .ok text)
    (hprints : Prints (compileText plan source text : StateM Session _) (.ok c) shown found) :
    (runSource plan source : StateM Session _).run s =
      (c.code.elim (pure (.ok 2)) fun code => deliver plan source code c.exitCode :
          StateM Session _).run
        (s.print shown
          (found ++ c.report.printed ⟨.slash, s.directory⟩ (Style.detect {} none none))) := by
  have hreport : ∀ report, s.print shown (found ++ report) =
      { s.print shown found with complaints := (s.print shown found).complaints ++ report } :=
    fun report => by simp [Session.print, String.append_assoc]
  rw [runSource, StateT.run_bind, Session.run_readText, htext, hreport]
  show StateT.run (compileText plan source text >>= _) s = _
  rw [StateT.run_bind, hprints s]
  rcases c with ⟨report, stages, tree, descriptor, _ | code⟩ <;> rfl

/-- A source that comes to a module is compiled, and what was found is shown, before the module is
delivered. Whether it is compared makes no difference till then. -/
theorem exists_run_runSource {a : Arguments} {settings : Settings} {source : Path} {text : String}
    {c : Compilation} {code : String} (here : Place)
    (hcompile : compile (Plan.ofSettings a settings).options text (toString source) = .ok c)
    (hcode : c.code = some code) :
    ∃ shown found, ∀ (check : Bool) (s : Session), s.directory = here → s.text source = .ok text →
      (runSource (.ofSettings { a with check } settings) source : StateM Session _).run s =
        (deliver (.ofSettings { a with check } settings) source code c.exitCode :
          StateM Session _).run (s.print shown found) := by
  obtain ⟨shown, found, hprints⟩ :=
    exists_prints_compileText (.ofSettings a settings) source text
  rw [hcompile] at hprints
  refine ⟨shown, found ++ c.report.printed ⟨.slash, here⟩ (Style.detect {} none none), ?_⟩
  rintro check s rfl htext
  have hsame : Prints
      (compileText (.ofSettings { a with check } settings) source text : StateM Session _)
      (.ok c) shown found := hprints
  rw [run_runSource_of_compile htext hsame, hcode]
  rfl

/-- **A source that comes to a module**: the module is written or compared, after the same has been
shown. -/
theorem exists_run_delivering {a : Arguments} {settings : Settings} {source : Path} {text : String}
    {c : Compilation} {code : String} (here : Place) (hstdout : a.stdout = false)
    (hcheck : a.check = false)
    (hcompile : compile (Plan.ofSettings a settings).options text (toString source) = .ok c)
    (hcode : c.code = some code) :
    ∃ shown found, ∀ s : Session, s.directory = here → s.text source = .ok text →
      (runSource (.ofSettings a settings) source : StateM Session _).run s =
        (writeTarget ((Plan.ofSettings a settings).target source) code c.exitCode :
          StateM Session _).run (s.print shown found) ∧
      (runSource (.ofSettings a.checking settings) source : StateM Session _).run s =
        (compare source ((Plan.ofSettings a settings).target source) code c.exitCode :
          StateM Session _).run (s.print shown found) := by
  obtain ⟨shown, found, hruns⟩ := exists_run_runSource here hcompile hcode
  refine ⟨shown, found, fun s hhere htext => ⟨?_, ?_⟩⟩
  · have hwriting : ({ a with check := false } : Arguments) = a := by rw [← hcheck]
    have hrun := hruns false s hhere htext
    rw [hwriting] at hrun
    rw [hrun, deliver, show (Plan.ofSettings a settings).arguments = a from rfl, hstdout, hcheck]
    rfl
  · have hrun := hruns true s hhere htext
    refine hrun.trans ?_
    rw [deliver, show (Plan.ofSettings { a with check := true } settings).arguments.stdout =
      a.stdout from rfl, hstdout]
    rfl

/-- **A run with a small exit code** has compiled its source to a module. -/
theorem exists_code_of_run {plan : Plan} {source : Path} {s s' : Session} {status : Nat}
    (hrun : (runSource plan source : StateM Session _).run s = (.ok status, s'))
    (hstatus : status ≤ 1) :
    ∃ text c code, s.text source = .ok text ∧
      compile plan.options text (toString source) = .ok c ∧ c.code = some code := by
  cases htext : s.text source with
  | error fault =>
    rw [runSource, StateT.run_bind, Session.run_readText, htext] at hrun
    cases fault with
    | encoding fault => cases hrun
    | file fault =>
      cases fault with
      | nullCharacter => cases hrun
      | refused why path =>
        have := status_of_run_complain hrun
        omega
  | ok text =>
    obtain ⟨shown, found, hprints⟩ := exists_prints_compileText plan source text
    cases hcompile : compile plan.options text (toString source) with
    | error fault =>
      rw [runSource, StateT.run_bind, Session.run_readText, htext] at hrun
      have hrun : StateT.run (compileText plan source text >>= _) s = _ := hrun
      rw [StateT.run_bind, hprints s, hcompile] at hrun
      cases hrun
    | ok c =>
      rw [hcompile] at hprints
      cases hcode : c.code with
      | some code => exact ⟨text, c, code, rfl, hcompile, hcode⟩
      | none =>
        rw [run_runSource_of_compile htext hprints, hcode] at hrun
        cases hrun
        omega

/-! ### The module -/

omit [Expression.Capacity] in
/-- **A module that is compared** with the file that it was written to differs from it exactly if a
carriage return is in it. -/
theorem run_compare {source target : Path} {code : String} {status : Nat} {s : Session}
    (h : s.tree.read s.directory target = .ok (Bytes.encode code.toList)) :
    (compare source target code status : StateM Session _).run s =
      if '\r' ∈ code.toList then
        (.ok 2, s.print "" ("error: " ++ (toString target ++ " is out of date with " ++
          toString source) ++ "\n"))
      else (.ok status, s) := by
  rw [compare, StateT.run_bind, Session.run_readText, Session.text_of_read h]
  have hsame : String.ofList (universalNewlines code.toList) = code ↔ '\r' ∉ code.toList := by
    rw [← Expression.universalNewlines_eq_self_iff, ← String.toList_inj, String.toList_ofList]
  show StateT.run (if String.ofList (universalNewlines code.toList) = code then _ else _ :
    StateM Session _) s = _
  by_cases hreturn : '\r' ∈ code.toList
  · rw [if_pos hreturn, if_neg (hsame.not.mpr (not_not.mpr hreturn)), StateT.run_bind,
      prints_complain _ s]
    rfl
  · rw [if_neg hreturn, if_pos (hsame.mpr hreturn)]
    rfl

omit [Expression.Capacity] in
/-- **A module that is written** is found in its file, and a line is shown. -/
theorem of_run_writeTarget {target : Path} {code : String} {status status' : Nat} {s s' : Session}
    (hrun : (writeTarget target code status : StateM Session _).run s = (.ok status', s'))
    (hstatus : status' ≤ 1) :
    status' = status ∧
      s' = { s with tree := s'.tree }.print ("Generated " ++ toString target ++ "\n") "" ∧
      s'.tree.read s'.directory target = .ok (Bytes.encode code.toList) := by
  rw [writeTarget, StateT.run_bind] at hrun
  generalize hwritten : (writeModule code target : StateM Session _).run s = written at hrun
  obtain ⟨outcome, s₁⟩ := written
  cases outcome with
  | error fault =>
    cases fault with
    | nullCharacter => cases hrun
    | refused why path =>
      have := status_of_run_complain hrun
      omega
  | ok _ =>
    obtain ⟨hleft, hstored⟩ := Session.read_of_writeModule hwritten
    have hrun : (Files.writeLine .output ("Generated " ++ toString target) >>= fun _ =>
      pure (.ok status) : StateM Session (Except Interruption Nat)).run s₁ =
        (.ok status', s') := hrun
    rw [StateT.run_bind, Files.writeLine, prints_output _ s₁] at hrun
    cases hrun
    refine ⟨rfl, ?_, hstored⟩
    rw [Session.tree_print, ← hleft]

end Errata.CommandLine
