import Errata.Proofs.CommandLine.Run
import Errata.Proofs.Emission.Return
import Errata.Proofs.Ending
import Errata.Proofs.Path
import Errata.Proofs.Shadowing

/-!
# When a module is up to date

A module that was written is compared with what is generated again. Nothing that a module depends on
has changed, so what is generated is what was written; but what is read of a file has line feeds
where carriage returns were written. So a module is up to date after it was written exactly if there
is no carriage return in it.

* `return_mem_code`: where the carriage returns of a module come from.
* `HasWritten`, `hasWritten_of_run`: **what a run leaves behind** that has written a module.
* **`run_check_of_run`**: what the same run comes to afterwards if it compares the module.
* `not_run_check_of_run`: a module that is not up to date after it was written.
-/

namespace Errata.CommandLine

section

variable [Expression.Capacity]

/-! ### Carriage returns -/

/-- **The carriage returns of a module** come from the name of the source, from that of the support,
or from the expressions of messages and help texts. -/
theorem return_mem_code {options : CompileOptions} {source filename : String} {c : Compilation}
    {code : String} (h : compile options source filename = .ok c)
    (hclean : c.report.hasErrors = false) (hcode : c.code = some code) :
    ∃ d, c.descriptor = some d ∧
      ('\r' ∈ code.toList ↔ '\r' ∈ (Path.ofString filename).name.toList ∨
        '\r' ∈ options.runtimeModule.toList ∨ d.HoldsReturn) := by
  obtain ⟨items, d, blocks, hmodule⟩ := exists_isModuleOf h hclean
  obtain ⟨tree, hparse, hitems⟩ := hmodule.read
  obtain ⟨findings, hdescribed⟩ := hmodule.described
  have hnamed : ∀ e ∈ d.enumerations, Emission.IsPlainlyNamed e := fun e he =>
    (isPlainlyNamed_of_describe hparse hitems hdescribed e he).1
  have hworded : d.IsWorded :=
    describe_isWorded (Syntax.isWorded_of_fileItems hparse hitems) hdescribed
  have hreturn := Emission.return_mem_generate hnamed hworded
    (generate_of_isModuleOf hmodule hcode)
  exact ⟨d, hmodule.held, hreturn⟩

/-! ### Runs -/

/-- What a run leaves behind that has written the module of its source. -/
structure HasWritten (a : Arguments) (settings : Settings) (source : Path) (s s' : Session)
    (status : Nat) (c : Compilation) (code shown found : String) : Prop where
  /-- The settings are those that are found. -/
  configured : s.settings = .ok settings
  /-- The source was compiled. -/
  compiled : ∃ text, s.text source = .ok text ∧
    compile (Plan.ofSettings a settings).options text (toString source) = .ok c
  /-- It came to the module. -/
  generated : c.code = some code
  /-- The exit code tells how grave the diagnostics are. -/
  exit : status = c.exitCode
  /-- The module stands in its file. -/
  stored : s'.tree.read s'.directory ((Plan.ofSettings a settings).target source) =
    .ok (Bytes.encode code.toList)
  /-- Nothing else but the tree is changed, and the last line that is shown tells of the module. -/
  left : s' = { s with tree := s'.tree }.print
    (shown ++ ("Generated " ++ toString ((Plan.ofSettings a settings).target source) ++ "\n")) found

/-- The complaint about a module that is not up to date. -/
def staleComplaint (source target : Path) : String :=
  "error: " ++ (toString target ++ " is out of date with " ++ toString source) ++ "\n"

section

variable (versions : Versions) {words words' : List String} {a : Arguments} {source : String}
  {s s' : Session} {status : Nat} (hwords : Request.ofWords words = .ok (.work a))
  (hwords' : Request.ofWords words' = .ok (.work a.checking)) (hsources : a.sources = [source])
  (hversion : a.version = false) (hstdout : a.stdout = false) (hcheck : a.check = false)
  (hrun : (run versions words : StateM Session _).run s = (.ok status, s')) (hstatus : status ≤ 1)
  (hsettings : s'.settings = s.settings)
  (hsource : s'.text (Path.ofString source) = s.text (Path.ofString source))
include hwords hwords' hsources hversion hstdout hcheck hrun hstatus hsettings hsource

/-- **A run with a small exit code has written its module.** If the settings and the source are read
as before, the same run, now comparing, shows the same and ends with the same exit code, unless a
carriage return stands in the module: then it complains. -/
theorem hasWritten_of_run :
    ∃ settings c code shown found,
      HasWritten a settings (Path.ofString source) s s' status c code shown found ∧
      (run versions words' : StateM Session _).run s' =
        if '\r' ∈ code.toList then
          (.ok 2, s'.print shown (found ++ staleComplaint (Path.ofString source)
            ((Plan.ofSettings a settings).target (Path.ofString source))))
        else (.ok status, s'.print shown found) := by
  obtain ⟨settings, hfound⟩ := exists_settings_of_run hwords hversion hsources hrun hstatus
  rw [run_eq_runSource hwords hversion hsources hfound] at hrun
  obtain ⟨text, c, code, htext, hcompile, hcode⟩ := exists_code_of_run hrun hstatus
  obtain ⟨shown, found, hruns⟩ :=
    exists_run_delivering s.directory hstdout hcheck hcompile hcode
  -- the first run writes the module
  rw [(hruns s rfl htext).1] at hrun
  obtain ⟨hexit, hleft, hstored⟩ := of_run_writeTarget hrun hstatus
  have hplace : s'.directory = s.directory := by rw [hleft]; rfl
  -- the second run compares it
  have hcompared : (run versions words' : StateM Session _).run s' = _ :=
    (run_eq_runSource hwords' hversion hsources (hsettings.trans hfound)).trans
      (hruns s' hplace (hsource.trans htext)).2
  rw [run_compare (s := s'.print shown found) hstored, Session.print_print, String.append_empty,
    ← hexit] at hcompared
  refine ⟨settings, c, code, shown, found, ⟨hfound, ⟨text, htext, hcompile⟩, hcode, hexit,
    hstored, ?_⟩, hcompared⟩
  refine hleft.trans ((Session.print_print { s with tree := s'.tree } _ _ _ _).trans ?_)
  rw [String.append_empty]

/-- **A module that was written is up to date** exactly if no carriage return stands in it. A run
with one source that ends with a small exit code has written its module. If the settings and the
source are read as before, the same run, now comparing, shows the same and ends with the same exit
code, unless a carriage return stands in the module: then it complains that the module is out of
date. A carriage return comes from the name of the source, from that of the support, or from an
expression. -/
theorem run_check_of_run :
    ∃ settings c d code shown found,
      HasWritten a settings (Path.ofString source) s s' status c code shown found ∧
      c.descriptor = some d ∧
      ('\r' ∉ code.toList →
        (run versions words' : StateM Session _).run s' = (.ok status, s'.print shown found)) ∧
      ('\r' ∈ code.toList →
        (run versions words' : StateM Session _).run s' =
          (.ok 2, s'.print shown (found ++ staleComplaint (Path.ofString source)
            ((Plan.ofSettings a settings).target (Path.ofString source))))) ∧
      ('\r' ∈ code.toList ↔ '\r' ∈ (Path.ofString source).name.toList ∨
        '\r' ∈ (Plan.ofSettings a settings).options.runtimeModule.toList ∨ d.HoldsReturn) := by
  obtain ⟨settings, c, code, shown, found, hwritten, hcompared⟩ := hasWritten_of_run versions hwords
    hwords' hsources hversion hstdout hcheck hrun hstatus hsettings hsource
  have hclean : c.report.hasErrors = false := by
    have hexit := hwritten.exit
    rw [← Bool.not_eq_true, ← Compilation.exitCode_eq_two_iff]
    omega
  obtain ⟨text, -, hcompile⟩ := hwritten.compiled
  obtain ⟨d, hd, hreturn⟩ := return_mem_code hcompile hclean hwritten.generated
  rw [Path.ofString_toString (Path.isClean_ofString source)] at hreturn
  refine ⟨settings, c, d, code, shown, found, hwritten, hd, fun h => ?_, fun h => ?_, hreturn⟩
  · rw [hcompared, if_neg h]
  · rw [hcompared, if_pos h]

end

end

/-! ### A directory with one source -/

section

/-- A session in whose directory nothing but a source stands. -/
def single (text : String) : Session where
  tree := { entries := [(["e.errors"], .file (Bytes.encode text.toList))] }

/-- What is asked for if only the source is given. -/
theorem ofWords_single :
    Request.ofWords ["e.errors"] = .ok (.work { sources := ["e.errors"] }) := by
  decide_cbv

/-- The source is read as it is if there is no carriage return in it. -/
theorem text_single {text : String} (h : '\r' ∉ text.toList) :
    (single text).text (Path.ofString "e.errors") = .ok text := by
  have hread : (single text).tree.read (single text).directory (Path.ofString "e.errors") =
      .ok (Bytes.encode text.toList) := rfl
  rw [Session.text_of_read hread, Expression.universalNewlines_eq_self_iff.mpr h,
    String.ofList_toList]

/-- The tree in which the module stands beside the source. -/
def withModule (text code : String) : FileTree :=
  (single text).tree.put ["e_errors.py"] (.file (Bytes.encode code.toList))

/-- The module is written beside the source. -/
theorem run_writeTarget_single (text code : String) (status : Nat) (output complaints : String) :
    (writeTarget (Path.ofString "e_errors.py") code status : StateM Session _).run
        ⟨(single text).tree, [], output, complaints⟩ =
      (.ok status, ⟨withModule text code, [], output ++ ("Generated " ++
        toString (Path.ofString "e_errors.py") ++ "\n"), complaints⟩) :=
  rfl

/-- **A source that comes to a module** is compiled to a file beside it. -/
theorem exists_run_single (versions : Versions) {text code : String} {c : Compilation}
    (htext : '\r' ∉ text.toList) (hcompile : compile {} text "e.errors" = .ok c)
    (hcode : c.code = some code) :
    ∃ s', (run versions ["e.errors"] : StateM Session _).run (single text) =
        (.ok c.exitCode, s') ∧
      s'.settings = (single text).settings ∧
      s'.text (Path.ofString "e.errors") = (single text).text (Path.ofString "e.errors") := by
  have hsettings : (single text).settings = .ok {} := rfl
  have hplanned : compile (Plan.ofSettings { sources := ["e.errors"] } {}).options text
      (toString (Path.ofString "e.errors")) = .ok c := hcompile
  obtain ⟨shown, found, hruns⟩ := exists_run_delivering [] rfl rfl hplanned hcode
  have hrun : (run versions ["e.errors"] : StateM Session _).run (single text) = _ :=
    (run_eq_runSource ofWords_single rfl rfl hsettings).trans
      (hruns (single text) rfl (text_single htext)).1
  refine ⟨_, hrun.trans (run_writeTarget_single text code _ _ _), ?_, ?_⟩
  · rfl
  · have hread : (withModule text code).read [] (Path.ofString "e.errors") =
        .ok (Bytes.encode text.toList) := rfl
    exact (Session.text_of_read hread).trans (Session.text_of_read rfl).symm

/-- The module that is written is that of the source. -/
theorem HasWritten.of_single {text : String} {s' : Session} {settings : Settings} {status : Nat}
    {c c' : Compilation} {code shown found : String}
    (h : HasWritten { sources := ["e.errors"] } settings (Path.ofString "e.errors") (single text) s'
      status c' code shown found)
    (htext : '\r' ∉ text.toList) (hcompile : compile {} text "e.errors" = .ok c) :
    settings = {} ∧ c' = c := by
  obtain rfl : ({} : Settings) = settings := Except.ok.inj h.configured
  obtain ⟨text', hread, hcompile'⟩ := h.compiled
  obtain rfl : text = text' := Except.ok.inj ((text_single htext).symm.trans hread)
  exact ⟨rfl, Except.ok.inj (hcompile'.symm.trans hcompile)⟩

/-- The switch in front of the source. -/
theorem ofWords_check_single : Request.ofWords ["--check", "e.errors"] =
    .ok (.work (Arguments.checking { sources := ["e.errors"] })) := by
  rw [Request.ofWords_check, ofWords_single]
  rfl

/-- A source with one message that shows an expression. -/
def sourceWith (expression : String) : String :=
  "enum E \x7b #[error = \"\x7b" ++ expression ++ "\x7d\"] V \x7b x: int \x7d \x7d"

/-- There is no carriage return in it if there is none in the expression. -/
theorem return_not_mem_sourceWith {expression : String} (h : '\r' ∉ expression.toList) :
    '\r' ∉ (sourceWith expression).toList := by
  unfold sourceWith
  simp [h]

/-- What is compiled without warnings, and whether a carriage return stands in an expression of it.
-/
def comesTo (text : String) (holdsReturn : Bool) : Bool :=
  (compile {} text "e.errors").toOption.any fun c =>
    c.exitCode = 0 ∧ c.code.isSome ∧ c.descriptor.any fun d => d.HoldsReturn = holdsReturn

/-- The compilation that a text comes to. -/
theorem exists_of_comesTo {text : String} {holdsReturn : Bool}
    (h : comesTo text holdsReturn = true) :
    ∃ c code d, compile {} text "e.errors" = .ok c ∧ c.exitCode = 0 ∧ c.code = some code ∧
      c.descriptor = some d ∧ (d.HoldsReturn ↔ holdsReturn = true) := by
  obtain ⟨c, hc, h⟩ := (Option.any_eq_true _ _).mp h
  rw [Outcome.toOption_eq_some_iff] at hc
  obtain ⟨hexit, hcode, hd⟩ := of_decide_eq_true h
  obtain ⟨code, hcode⟩ := Option.isSome_iff_exists.mp hcode
  obtain ⟨d, hd, hreturn⟩ := (Option.any_eq_true _ _).mp hd
  exact ⟨c, code, d, hc, hexit, hcode, hd, by rw [← of_decide_eq_true hreturn, decide_eq_true_iff]⟩

/-- A module without carriage returns is up to date after it was written. -/
theorem run_check_of_run_single :
    ∃ s', (run ⟨"3.11", "1.3.1"⟩ ["e.errors"] : StateM Session _).run (single (sourceWith "(x)")) =
        (.ok 0, s') ∧
      ∃ shown found, (run ⟨"3.11", "1.3.1"⟩ ["--check", "e.errors"] : StateM Session _).run s' =
        (.ok 0, s'.print shown found) := by
  have hcompiled : comesTo (sourceWith "(x)") false = true := by decide +kernel
  have htext : '\r' ∉ (sourceWith "(x)").toList := return_not_mem_sourceWith (by decide)
  obtain ⟨c, code, d, hcompile, hexit, hcode, hd, hreturn⟩ := exists_of_comesTo hcompiled
  obtain ⟨s', hrun, hsettings, hsource⟩ :=
    exists_run_single ⟨"3.11", "1.3.1"⟩ htext hcompile hcode
  rw [hexit] at hrun
  obtain ⟨settings, c', d', code', shown, found, hwritten, hd', hfresh, -, horigin⟩ :=
    run_check_of_run ⟨"3.11", "1.3.1"⟩ ofWords_single ofWords_check_single rfl rfl rfl rfl hrun
      (Nat.zero_le _) hsettings hsource
  obtain ⟨rfl, rfl⟩ := hwritten.of_single htext hcompile
  obtain rfl : d' = d := Option.some.inj (hd'.symm.trans hd)
  refine ⟨s', hrun, shown, found, hfresh ?_⟩
  rw [horigin, hreturn]
  decide_cbv

/-- A carriage return in an expression makes a module out of date as soon as it is written. -/
theorem not_run_check_of_run :
    ¬∀ versions words words' a source (s s' : Session) status,
      Request.ofWords words = .ok (.work a) → Request.ofWords words' = .ok (.work a.checking) →
      a.sources = [source] → a.version = false → a.stdout = false → a.check = false →
      (run versions words : StateM Session _).run s = (.ok status, s') → status ≤ 1 →
      s'.settings = s.settings →
      s'.text (Path.ofString source) = s.text (Path.ofString source) →
      ∃ s'', (run versions words' : StateM Session _).run s' = (.ok status, s'') := by
  have hcompiled : comesTo (sourceWith "(x\\r)") true = true := by decide +kernel
  have htext : '\r' ∉ (sourceWith "(x\\r)").toList := return_not_mem_sourceWith (by decide)
  obtain ⟨c, code, d, hcompile, hexit, hcode, hd, hreturn⟩ := exists_of_comesTo hcompiled
  obtain ⟨s', hrun, hsettings, hsource⟩ :=
    exists_run_single ⟨"3.11", "1.3.1"⟩ htext hcompile hcode
  rw [hexit] at hrun
  intro hclaim
  obtain ⟨s'', hagain⟩ := hclaim _ _ _ _ _ _ _ _ ofWords_single ofWords_check_single rfl rfl rfl rfl
    hrun (Nat.zero_le _) hsettings hsource
  obtain ⟨settings, c', code', shown, found, hwritten, hcompared⟩ :=
    hasWritten_of_run ⟨"3.11", "1.3.1"⟩ ofWords_single ofWords_check_single rfl rfl rfl rfl hrun
      (Nat.zero_le _) hsettings hsource
  obtain ⟨rfl, rfl⟩ := hwritten.of_single htext hcompile
  obtain rfl : code' = code := Option.some.inj (hwritten.generated.symm.trans hcode)
  have hclean : c'.report.hasErrors = false := by
    rw [← Bool.not_eq_true, ← Compilation.exitCode_eq_two_iff, hexit]
    decide
  obtain ⟨d', hd', horigin⟩ := return_mem_code hcompile hclean hcode
  obtain rfl : d' = d := Option.some.inj (hd'.symm.trans hd)
  have hcode' : '\r' ∈ code'.toList := horigin.mpr (Or.inr (Or.inr (hreturn.mpr rfl)))
  rw [hcompared, if_pos hcode'] at hagain
  cases hagain

end

end Errata.CommandLine
