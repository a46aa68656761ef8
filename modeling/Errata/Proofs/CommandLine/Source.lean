import Errata.Proofs.CommandLine.Run
import Errata.Proofs.Files.Storing

/-!
# What is done with one source

A source is read and compiled. If that comes to a module, the module is shown, compared with what
its file holds, or written to it.

* `Delivery`, **`delivery_deliver`**: what is done with a module.
* `Course`, **`course_runSource`**: what is done with a source. Nothing else can happen.
* `Course.verdict_eq`: what comes of a source is told by the session before it.
* `Course.writes_or_keeps`, `Course.directory_eq`: the module is written, or the tree is left as it
  is; and the working directory stays the same.
-/

set_option linter.unusedSectionVars false

namespace Errata.CommandLine

open FileTree (Storing wayOf placeOf)

/-! ### Sessions that differ in what was written to the streams -/

/-- The text of a file is that of the bytes that are read. -/
theorem text_eq (s : Session) (p : Path) :
    s.text p = match s.tree.read s.directory p with
      | .error fault => .error (.file fault)
      | .ok bytes =>
        match Bytes.decode bytes with
        | .error fault => .error (.encoding fault)
        | .ok chars => .ok (String.ofList (universalNewlines chars)) := by
  rw [Session.text, Files.readText, StateT.run_bind]
  show (StateT.run (match s.tree.read s.directory p with
    | .error fault => pure (.error (.file fault))
    | .ok bytes => match Bytes.decode bytes with
      | .error fault => pure (.error (.encoding fault))
      | .ok chars => pure (.ok (String.ofList (universalNewlines chars))) :
    StateM Session (Except Files.TextFault String)) s).1 = _
  split
  · rfl
  · split <;> rfl

/-- What is read of a file depends on the tree and the working directory. -/
theorem text_congr {s s' : Session} (htree : s'.tree = s.tree)
    (hdirectory : s'.directory = s.directory) (p : Path) : s'.text p = s.text p := by
  rw [text_eq, text_eq, htree, hdirectory]

/-- A file that gives a text can be read. -/
theorem exists_read_of_text {s : Session} {p : Path} {text : String} (h : s.text p = .ok text) :
    ∃ content, s.tree.read s.directory p = .ok content := by
  rw [text_eq] at h
  split at h
  · cases h
  · next content hread => exact ⟨content, hread⟩

/-- Whether a computation writes nothing to the stream of results. -/
def IsQuiet {α : Type} (x : StateM Session α) : Prop :=
  ∀ s, (x.run s).2.output = s.output

/-- Giving a value writes nothing. -/
theorem IsQuiet.pure {α : Type} (a : α) : IsQuiet (pure a) :=
  fun _ => rfl

/-- Two computations write nothing if each does. -/
theorem IsQuiet.bind {α β : Type} {x : StateM Session α} {f : α → StateM Session β}
    (hx : IsQuiet x) (hf : ∀ a, IsQuiet (f a)) : IsQuiet (x >>= f) := by
  intro s
  rw [StateT.run_bind]
  exact (hf _ _).trans (hx s)

/-- Complaints are written to the other stream. -/
theorem isQuiet_complaints (line : String) :
    IsQuiet (Files.writeLine .complaints line : StateM Session Unit) :=
  fun _ => rfl

/-- Several complaints are written to the other stream. -/
theorem isQuiet_forM_complaints (lines : List String) :
    IsQuiet (lines.forM (Files.writeLine .complaints) : StateM Session Unit) := by
  induction lines with
  | nil => exact IsQuiet.pure ()
  | cons line lines ih => exact (isQuiet_complaints line).bind fun _ => ih

variable [Expression.Capacity]

/-- Compiling a text writes no results unless the parse tree or the descriptor is asked for. -/
theorem isQuiet_compileText {plan : Plan} (hparse : plan.arguments.dumpParse = false)
    (hdescriptor : plan.arguments.dumpDescriptor = false) (source : Path) (text : String) :
    IsQuiet (compileText plan source text : StateM Session _) := by
  have hshow : ∀ text, IsQuiet (showIf false text : StateM Session Unit) := fun _ => IsQuiet.pure ()
  unfold compileText
  dsimp only
  rw [hparse, hdescriptor]
  refine IsQuiet.bind (fun _ => rfl) fun parsed => ?_
  split
  · exact IsQuiet.pure _
  · refine (hshow _).bind fun _ => IsQuiet.bind (fun _ => rfl) fun built => ?_
    split
    · exact IsQuiet.pure _
    · refine (hshow _).bind fun _ => IsQuiet.bind (fun _ => rfl) fun generated => ?_
      split
      · exact IsQuiet.pure _
      · split
        · exact (isQuiet_forM_complaints _).bind fun _ => IsQuiet.pure _
        · exact IsQuiet.pure _

/-! ### Modules -/

/-- The line that tells of a module that was written. -/
def Plan.notice (plan : Plan) (source : Path) : String :=
  "Generated " ++ toString (plan.target source) ++ "\n"

/-- The line that tells of a module that is not up to date. -/
def Plan.reproach (plan : Plan) (source : Path) : String :=
  "error: " ++ (toString (plan.target source) ++ " is out of date with " ++ toString source) ++ "\n"

/-- The line that tells why a module could not be written. -/
def Plan.excuse (plan : Plan) (source : Path) (fault : Files.Fault) : String :=
  "error: " ++ ("cannot write " ++ toString (plan.target source) ++ ": " ++ fault.message) ++ "\n"

/-- What is done with a module: how the run goes on, and the session that is left. -/
inductive Delivery (plan : Plan) (source : Path) (code : String) (status : Nat) (s : Session) :
    Except Interruption Nat → Session → Prop where
  /-- It is shown. -/
  | shown (hmode : plan.arguments.stdout = true) :
      Delivery plan source code status s (.ok status) (s.print code "")
  /-- Its file holds it. -/
  | current (hmode : plan.arguments.stdout = false) (hcheck : plan.arguments.check = true)
      (htext : s.text (plan.target source) = .ok code) :
      Delivery plan source code status s (.ok status) s
  /-- Its file holds something else or is missing. -/
  | stale (hmode : plan.arguments.stdout = false)
      (hcheck : plan.arguments.check = true)
      (htext : (∃ text, s.text (plan.target source) = .ok text ∧ text ≠ code) ∨
        ∃ path, s.text (plan.target source) = .error (.file (.refused .missing path))) :
      Delivery plan source code status s (.ok 2) (s.print "" (plan.reproach source))
  /-- Its file is not missing and cannot be read. -/
  | uncompared {fault : Files.TextFault} (hmode : plan.arguments.stdout = false)
      (hcheck : plan.arguments.check = true)
      (htext : s.text (plan.target source) = .error fault)
      (hfault : ∀ path, fault ≠ .file (.refused .missing path)) :
      Delivery plan source code status s (.error (.source (.ofTextFault fault))) s
  /-- It is written to its file. -/
  | written {tree : FileTree} (hmode : plan.arguments.stdout = false)
      (hcheck : plan.arguments.check = false)
      (hstoring : Storing s.tree s.directory (plan.target source) (Bytes.encode code.toList)
        (.ok ()) tree) :
      Delivery plan source code status s (.ok status)
        ({ s with tree }.print (plan.notice source) "")
  /-- It cannot be written to its file. -/
  | unwritten {tree : FileTree} {why : Files.Refusal} {path : Path}
      (hmode : plan.arguments.stdout = false) (hcheck : plan.arguments.check = false)
      (hstoring : Storing s.tree s.directory (plan.target source) (Bytes.encode code.toList)
        (.error (.refused why path)) tree) :
      Delivery plan source code status s (.ok 2)
        ({ s with tree }.print "" (plan.excuse source (.refused why path)))
  /-- There is no such file. -/
  | unnamed {tree : FileTree} (hmode : plan.arguments.stdout = false)
      (hcheck : plan.arguments.check = false)
      (hstoring : Storing s.tree s.directory (plan.target source) (Bytes.encode code.toList)
        (.error .nullCharacter) tree) :
      Delivery plan source code status s (.error (.source (.file .nullCharacter)))
        { s with tree }

/-- A run that ends with a complaint. -/
theorem run_complain (complaint : String) (s : Session) :
    (do return .ok (← complain complaint) : StateM Session (Except Interruption Nat)).run s =
      (.ok 2, s.print "" ("error: " ++ complaint ++ "\n")) := by
  rw [StateT.run_bind, prints_complain complaint s]
  rfl

variable {plan : Plan} {source : Path} {code : String} {status : Nat}

/-- A module is compared with what its file holds. -/
theorem delivery_compare {s : Session} (hmode : plan.arguments.stdout = false)
    (hcheck : plan.arguments.check = true) :
    ∃ outcome s',
      (compare source (plan.target source) code status : StateM Session _).run s =
        (outcome, s') ∧
      Delivery plan source code status s outcome s' := by
  rw [compare, StateT.run_bind, Session.run_readText]
  cases htext : s.text (plan.target source) with
  | ok text =>
    by_cases hsame : text = code
    · subst hsame
      refine ⟨_, s, ?_, .current hmode hcheck htext⟩
      show StateT.run (if text = text then _ else _ : StateM Session _) s = _
      rw [if_pos rfl]
      rfl
    · refine ⟨_, _, ?_, .stale hmode hcheck (Or.inl ⟨text, htext, hsame⟩)⟩
      show StateT.run (if text = code then _ else _ : StateM Session _) s = _
      rw [if_neg hsame]
      exact run_complain _ s
  | error fault =>
    cases fault with
    | encoding fault => exact ⟨_, s, rfl, .uncompared hmode hcheck htext (by simp)⟩
    | file fault =>
      cases hmissing : fault.isMissing with
      | true =>
        obtain ⟨path, rfl⟩ : ∃ path, fault = .refused .missing path := by
          unfold Files.Fault.isMissing at hmissing
          split at hmissing
          · exact ⟨_, rfl⟩
          · cases hmissing
        exact ⟨_, _, run_complain _ s, .stale hmode hcheck (Or.inr ⟨path, htext⟩)⟩
      | false =>
        refine ⟨_, s, ?_, .uncompared hmode hcheck htext ?_⟩
        · show StateT.run (if fault.isMissing then _ else _ : StateM Session _) s = _
          rw [hmissing]
          rfl
        · rintro path ⟨⟩
          cases hmissing

/-- A module is written to its file. -/
theorem delivery_writeTarget {s : Session} (hmode : plan.arguments.stdout = false)
    (hcheck : plan.arguments.check = false) :
    ∃ outcome s',
      (writeTarget (plan.target source) code status : StateM Session _).run s = (outcome, s') ∧
      Delivery plan source code status s outcome s' := by
  obtain ⟨outcome, tree, hrun, hstoring⟩ :=
    Session.storing_writeModule code (plan.target source) s
  rw [writeTarget, StateT.run_bind, hrun]
  cases outcome with
  | ok _ =>
    refine ⟨_, _, ?_, .written hmode hcheck hstoring⟩
    show StateT.run (Files.writeLine .output ("Generated " ++ toString (plan.target source)) >>=
      fun _ => pure (.ok status) : StateM Session (Except Interruption Nat)) { s with tree } = _
    rw [StateT.run_bind, Files.writeLine, Session.prints_output _ { s with tree }]
    rfl
  | error fault =>
    cases fault with
    | refused why path =>
      exact ⟨_, _, run_complain _ { s with tree }, .unwritten hmode hcheck hstoring⟩
    | nullCharacter => exact ⟨_, _, rfl, .unnamed hmode hcheck hstoring⟩

/-- **What is done with a module.** -/
theorem delivery_deliver (plan : Plan) (source : Path) (code : String) (status : Nat)
    (s : Session) :
    ∃ outcome s', (deliver plan source code status : StateM Session _).run s = (outcome, s') ∧
      Delivery plan source code status s outcome s' := by
  unfold deliver
  cases hmode : plan.arguments.stdout with
  | true =>
    refine ⟨_, _, ?_, .shown hmode⟩
    rw [if_pos rfl, StateT.run_bind, Session.prints_output code s]
    rfl
  | false =>
    rw [if_neg Bool.false_ne_true]
    cases hcheck : plan.arguments.check with
    | true => exact delivery_compare hmode hcheck
    | false => exact delivery_writeTarget hmode hcheck

/-! ### Sources -/

/-- What is done with a source: how the run goes on, and the session that is left. -/
inductive Course (plan : Plan) (source : Path) (s : Session) :
    Except Interruption Nat → Session → Prop where
  /-- It cannot be read. -/
  | unread {why : Files.Refusal} {path : Path} {found : String}
      (htext : s.text source = .error (.file (.refused why path))) :
      Course plan source s (.ok 2) (s.print "" found)
  /-- There is no such file, or its bytes are the encoding of no text. -/
  | untold {fault : Files.TextFault} (htext : s.text source = .error fault)
      (hfault : ∀ why path, fault ≠ .file (.refused why path)) :
      Course plan source s (.error (.source (.ofTextFault fault))) s
  /-- It cannot be compiled. -/
  | uncompiled {text shown found : String} {fault : CompileFault} (htext : s.text source = .ok text)
      (hcompile : compile plan.options text (toString source) = .error fault)
      (hshown : plan.arguments.dumpParse = false → plan.arguments.dumpDescriptor = false →
        shown = "") :
      Course plan source s (.error (.source (.compiling fault))) (s.print shown found)
  /-- It is compiled and comes to no module. -/
  | withheld {text shown found : String} {c : Compilation} (htext : s.text source = .ok text)
      (hcompile : compile plan.options text (toString source) = .ok c) (hcode : c.code = none)
      (hshown : plan.arguments.dumpParse = false → plan.arguments.dumpDescriptor = false →
        shown = "") :
      Course plan source s (.ok 2) (s.print shown found)
  /-- It is compiled and comes to a module. -/
  | delivered {text shown found code : String} {c : Compilation} {outcome : Except Interruption Nat}
      {s' : Session} (htext : s.text source = .ok text)
      (hcompile : compile plan.options text (toString source) = .ok c) (hcode : c.code = some code)
      (hshown : plan.arguments.dumpParse = false → plan.arguments.dumpDescriptor = false →
        shown = "")
      (hdelivery : Delivery plan source code c.exitCode (s.print shown found) outcome s') :
      Course plan source s outcome s'

/-- What happens to a source that is read. -/
theorem course_of_text {s : Session} {text : String} (htext : s.text source = .ok text) :
    ∃ outcome s', (runSource plan source : StateM Session _).run s = (outcome, s') ∧
      Course plan source s outcome s' := by
  obtain ⟨shown, found, hprints⟩ := exists_prints_compileText plan source text
  have hshown : plan.arguments.dumpParse = false → plan.arguments.dumpDescriptor = false →
      shown = "" := by
    intro hparse hdescriptor
    have hquiet := isQuiet_compileText hparse hdescriptor source text {}
    rw [hprints {}] at hquiet
    exact (String.empty_append ..).symm.trans hquiet
  cases hcompile : compile plan.options text (toString source) with
  | error fault =>
    rw [runSource, StateT.run_bind, Session.run_readText, htext]
    show ∃ outcome s', StateT.run (compileText plan source text >>= _) s = _ ∧ _
    rw [StateT.run_bind, hprints s, hcompile]
    exact ⟨_, _, rfl, .uncompiled htext hcompile hshown⟩
  | ok c =>
    rw [hcompile] at hprints
    rw [run_runSource_of_compile htext hprints]
    cases hcode : c.code with
    | none => exact ⟨_, _, rfl, .withheld htext hcompile hcode hshown⟩
    | some code =>
      obtain ⟨outcome, s', hrun, hdelivery⟩ := delivery_deliver plan source code c.exitCode _
      exact ⟨outcome, s', hrun, .delivered htext hcompile hcode hshown hdelivery⟩

/-- **What is done with a source.** -/
theorem course_runSource (plan : Plan) (source : Path) (s : Session) :
    ∃ outcome s', (runSource plan source : StateM Session _).run s = (outcome, s') ∧
      Course plan source s outcome s' := by
  cases htext : s.text source with
  | ok text => exact course_of_text htext
  | error fault =>
    rw [runSource, StateT.run_bind, Session.run_readText, htext]
    cases fault with
    | encoding fault => exact ⟨_, _, rfl, .untold htext (by simp)⟩
    | file fault =>
      cases fault with
      | nullCharacter => exact ⟨_, _, rfl, .untold htext (by simp)⟩
      | refused why path => exact ⟨_, _, run_complain _ s, .unread htext⟩

/-! ### Exit codes -/

/-- How the run goes on after a source: with an exit code, or not at all. -/
def verdict (plan : Plan) (source : Path) (s : Session) : Except Interruption Nat :=
  match s.text source with
  | .error (.file (.refused _ _)) => .ok 2
  | .error fault => .error (.source (.ofTextFault fault))
  | .ok text =>
    match compile plan.options text (toString source) with
    | .error fault => .error (.source (.compiling fault))
    | .ok c =>
      match c.code with
      | none => .ok 2
      | some code =>
        if plan.arguments.stdout then .ok c.exitCode
        else if plan.arguments.check then
          match s.text (plan.target source) with
          | .ok held => if held = code then .ok c.exitCode else .ok 2
          | .error (.file (.refused .missing _)) => .ok 2
          | .error fault => .error (.source (.ofTextFault fault))
        else if s.tree.IsUnnamed s.directory (plan.target source) then
          .error (.source (.file .nullCharacter))
        else if s.tree.Admits s.directory (plan.target source) then .ok c.exitCode
        else .ok 2

variable {s s' : Session} {outcome : Except Interruption Nat}

/-- A source that cannot be read. -/
theorem verdict_of_refused {why : Files.Refusal} {path : Path}
    (htext : s.text source = .error (.file (.refused why path))) :
    verdict plan source s = .ok 2 := by
  rw [verdict, htext]

/-- There is no such source, or its bytes are the encoding of no text. -/
theorem verdict_of_error {fault : Files.TextFault} (htext : s.text source = .error fault)
    (hfault : ∀ why path, fault ≠ .file (.refused why path)) :
    verdict plan source s = .error (.source (.ofTextFault fault)) := by
  rw [verdict, htext]
  split
  · next heq =>
    cases heq
    exact absurd rfl (hfault _ _)
  · next heq =>
    cases heq
    rfl
  · next heq => cases heq

/-- A source that is read and comes to no module. -/
theorem verdict_of_text {text : String} (htext : s.text source = .ok text)
    (hcode : ∀ c, compile plan.options text (toString source) = .ok c → c.code = none) :
    verdict plan source s = match compile plan.options text (toString source) with
      | .error fault => .error (.source (.compiling fault))
      | .ok _ => .ok 2 := by
  rw [verdict, htext]
  dsimp only
  split
  · rfl
  · next c hcompile => rw [hcode c hcompile]

/-- A module that was delivered. -/
theorem verdict_of_code {text : String} {c : Compilation} (htext : s.text source = .ok text)
    (hcompile : compile plan.options text (toString source) = .ok c) (hcode : c.code = some code) :
    verdict plan source s =
      if plan.arguments.stdout then .ok c.exitCode
      else if plan.arguments.check then
        match s.text (plan.target source) with
        | .ok held => if held = code then .ok c.exitCode else .ok 2
        | .error (.file (.refused .missing _)) => .ok 2
        | .error fault => .error (.source (.ofTextFault fault))
      else if s.tree.IsUnnamed s.directory (plan.target source) then
        .error (.source (.file .nullCharacter))
      else if s.tree.Admits s.directory (plan.target source) then .ok c.exitCode
      else .ok 2 := by
  rw [verdict, htext]
  dsimp only
  rw [hcompile]
  dsimp only
  rw [hcode]

/-- The run goes on after a module as the exit code tells. -/
theorem Delivery.verdict_eq {text shown found : String} {c : Compilation}
    (htext : s.text source = .ok text)
    (hcompile : compile plan.options text (toString source) = .ok c) (hcode : c.code = some code)
    (h : Delivery plan source code c.exitCode (s.print shown found) outcome s') :
    verdict plan source s = outcome := by
  have hprint : ∀ p, (s.print shown found).text p = s.text p := text_congr rfl rfl
  rw [verdict_of_code htext hcompile hcode]
  cases h with
  | shown hmode => rw [if_pos hmode]
  | current hmode hcheck hheld =>
    rw [hprint] at hheld
    rw [hmode, hcheck, hheld]
    exact if_pos rfl
  | stale hmode hcheck hheld =>
    rw [hprint] at hheld
    rw [hmode, hcheck]
    rcases hheld with ⟨held, hheld, hne⟩ | ⟨path, hheld⟩
    · rw [hheld]
      exact if_neg hne
    · rw [hheld]
      rfl
  | uncompared hmode hcheck hheld hfault =>
    rw [hprint] at hheld
    rw [hmode, hcheck, hheld]
    show (match (.error _ : Except Files.TextFault String) with
      | .ok held => if held = code then .ok c.exitCode else .ok 2
      | .error (.file (.refused .missing _)) => .ok 2
      | .error fault => .error (.source (.ofTextFault fault)) : Except Interruption Nat) = _
    split
    · next heq => cases heq
    · next heq =>
      cases heq
      exact absurd rfl (hfault _)
    · next heq =>
      cases heq
      rfl
  | written hmode hcheck hstoring =>
    rw [hmode, hcheck]
    cases hstoring with
    | stored hadmits hstores =>
      exact (if_neg hadmits.not_isUnnamed).trans (if_pos hadmits)
  | unwritten hmode hcheck hstoring =>
    rw [hmode, hcheck]
    cases hstoring with
    | refused hnull hadmits hfurnished => exact (if_neg hnull).trans (if_neg hadmits)
  | unnamed hmode hcheck hstoring =>
    rw [hmode, hcheck]
    cases hstoring with
    | nullCharacter hnull hfurnished => exact if_pos hnull

/-- **The run goes on after a source** as the exit code tells. -/
theorem Course.verdict_eq (h : Course plan source s outcome s') :
    verdict plan source s = outcome := by
  cases h with
  | unread htext => exact verdict_of_refused htext
  | untold htext hfault => exact verdict_of_error htext hfault
  | uncompiled htext hcompile hshown =>
    rw [verdict_of_text htext (by simp [hcompile]), hcompile]
  | withheld htext hcompile hcode hshown =>
    rw [verdict_of_text htext (by simp [hcompile, hcode]), hcompile]
  | delivered htext hcompile hcode hshown hdelivery =>
    exact hdelivery.verdict_eq htext hcompile hcode

/-! ### Files -/

/-- What a source leaves behind whose module is written to its file. -/
structure Writes (plan : Plan) (source : Path) (s s' : Session)
    (outcome : Except Interruption Nat) (c : Compilation) (code : String) : Prop where
  /-- Modules are not shown. -/
  notShown : plan.arguments.stdout = false
  /-- Modules are not compared. -/
  notCompared : plan.arguments.check = false
  /-- The source is compiled. -/
  compiled : ∃ text, s.text source = .ok text ∧
    compile plan.options text (toString source) = .ok c
  /-- It comes to the module. -/
  generated : c.code = some code
  /-- The exit code tells how grave the diagnostics are. -/
  exit : outcome = .ok c.exitCode
  /-- The module can be written. -/
  admitted : s.tree.Admits s.directory (plan.target source)
  /-- It is written. -/
  stored : s.tree.Stores s'.tree s.directory (plan.target source) (Bytes.encode code.toList)
  /-- The line that tells of it is the last that is shown. -/
  told : ∃ shown, s'.output = s.output ++ shown ++ plan.notice source ∧
    (plan.arguments.dumpParse = false → plan.arguments.dumpDescriptor = false → shown = "")

/-- What a source leaves behind whose module is not written. -/
structure Keeps (plan : Plan) (source : Path) (s s' : Session)
    (outcome : Except Interruption Nat) : Prop where
  /-- Directories may have been made for the module. -/
  furnished : s.tree.Furnishes s'.tree (wayOf s.directory (plan.target source).parent)
  /-- None was made if there is no module to be written. -/
  untouched : (∀ text c code, s.text source = .ok text →
    compile plan.options text (toString source) = .ok c → c.code = some code →
      plan.arguments.stdout = true ∨ plan.arguments.check = true) → s'.tree = s.tree
  /-- Nothing is shown that was not asked for. -/
  quiet : ∃ shown, s'.output = s.output ++ shown ∧
    (plan.arguments.dumpParse = false → plan.arguments.dumpDescriptor = false →
      plan.arguments.stdout = false → shown = "")
  /-- The exit code is grave if the module was to be written. -/
  grave : plan.arguments.stdout = false → plan.arguments.check = false →
    ∀ status, outcome = .ok status → status = 2

/-- A source that only writes to the streams. -/
theorem keeps_print {shown found : String}
    (hshown : plan.arguments.dumpParse = false → plan.arguments.dumpDescriptor = false →
      plan.arguments.stdout = false → shown = "")
    (hgrave : plan.arguments.stdout = false → plan.arguments.check = false →
      ∀ status, outcome = .ok status → status = 2) :
    Keeps plan source s (s.print shown found) outcome :=
  ⟨.refl _ _, fun _ => rfl, ⟨shown, rfl, hshown⟩, hgrave⟩

/-- A module is written, or the files stay the same. -/
theorem Delivery.writes_or_keeps {text shown found : String} {c : Compilation}
    (htext : s.text source = .ok text)
    (hcompile : compile plan.options text (toString source) = .ok c) (hcode : c.code = some code)
    (hshown : plan.arguments.dumpParse = false → plan.arguments.dumpDescriptor = false →
      shown = "")
    (h : Delivery plan source code c.exitCode (s.print shown found) outcome s') :
    Writes plan source s s' outcome c code ∨ Keeps plan source s s' outcome := by
  have hquiet : plan.arguments.dumpParse = false → plan.arguments.dumpDescriptor = false →
      plan.arguments.stdout = false → shown = "" :=
    fun hparse hdescriptor _ => hshown hparse hdescriptor
  have hwanted : (∀ text c code, s.text source = .ok text →
      compile plan.options text (toString source) = .ok c → c.code = some code →
        plan.arguments.stdout = true ∨ plan.arguments.check = true) →
      plan.arguments.stdout = true ∨ plan.arguments.check = true :=
    fun h => h text c code htext hcompile hcode
  have hcompared : plan.arguments.check = true → plan.arguments.stdout = false →
      plan.arguments.check = false → ∀ status, outcome = .ok status → status = 2 := by
    intro hcheck _ hother
    cases hcheck.symm.trans hother
  cases h with
  | shown hmode =>
    right
    rw [Session.print_print]
    apply keeps_print
    · intro _ _ hother
      cases hmode.symm.trans hother
    · intro hother
      cases hmode.symm.trans hother
  | current hmode hcheck hheld => exact Or.inr (keeps_print hquiet (hcompared hcheck))
  | stale hmode hcheck hheld =>
    right
    rw [Session.print_print, String.append_empty]
    exact keeps_print hquiet (hcompared hcheck)
  | uncompared hmode hcheck hheld hfault =>
    exact Or.inr (keeps_print hquiet (hcompared hcheck))
  | written hmode hcheck hstoring =>
    left
    cases hstoring with
    | stored hadmits hstores =>
      exact ⟨hmode, hcheck, ⟨text, htext, hcompile⟩, hcode, rfl, hadmits, hstores, shown, rfl,
        hshown⟩
  | unwritten hmode hcheck hstoring =>
    right
    cases hstoring with
    | refused hnull hadmits hfurnished =>
      refine ⟨hfurnished, fun h => ?_, ⟨shown, String.append_empty, hquiet⟩, ?_⟩
      · simpa [hmode, hcheck] using hwanted h
      · rintro _ _ status ⟨⟩
        rfl
  | unnamed hmode hcheck hstoring =>
    right
    cases hstoring with
    | nullCharacter hnull hfurnished =>
      refine ⟨hfurnished, fun h => ?_, ⟨shown, rfl, hquiet⟩, ?_⟩
      · simpa [hmode, hcheck] using hwanted h
      · rintro _ _ status ⟨⟩

/-- **A source has its module written, or the files stay the same.** -/
theorem Course.writes_or_keeps (h : Course plan source s outcome s') :
    (∃ c code, Writes plan source s s' outcome c code) ∨ Keeps plan source s s' outcome := by
  cases h with
  | unread htext =>
    right
    apply keeps_print (fun _ _ _ => rfl)
    rintro _ _ status ⟨⟩
    rfl
  | untold htext hfault =>
    refine Or.inr ⟨.refl _ _, fun _ => rfl, ⟨"", String.append_empty.symm, fun _ _ _ => rfl⟩, ?_⟩
    rintro _ _ status ⟨⟩
  | uncompiled htext hcompile hshown =>
    right
    apply keeps_print (fun hparse hdescriptor _ => hshown hparse hdescriptor)
    rintro _ _ status ⟨⟩
  | withheld htext hcompile hcode hshown =>
    right
    apply keeps_print (fun hparse hdescriptor _ => hshown hparse hdescriptor)
    rintro _ _ status ⟨⟩
    rfl
  | delivered htext hcompile hcode hshown hdelivery =>
    exact (hdelivery.writes_or_keeps htext hcompile hcode hshown).imp_left fun h => ⟨_, _, h⟩

/-- The working directory stays the same. -/
theorem Course.directory_eq (h : Course plan source s outcome s') :
    s'.directory = s.directory := by
  cases h with
  | unread htext => rfl
  | untold htext hfault => rfl
  | uncompiled htext hcompile => rfl
  | withheld htext hcompile hcode hshown => rfl
  | delivered htext hcompile hcode hshown hdelivery => cases hdelivery <;> rfl

end Errata.CommandLine
