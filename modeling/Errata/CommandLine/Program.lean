import Errata.CommandLine.Arguments
import Errata.Files.Module
import Errata.Settings

/-!
# The program

The program compiles the sources it is given, one after the other, and ends with an exit code: 0 if
all is well, 1 if there were warnings, 2 if there were errors. One bad source does not keep the
others back; the gravest exit code counts.

## Main definitions

* `CommandLine.usage`, `CommandLine.helpText`: what the command line says about itself.
* `CommandLine.Plan`: what is to be done with every source.
* `CommandLine.compileText`: compiles a text and shows what is asked for.
* `CommandLine.deliver`: shows, compares or writes a module.
* `CommandLine.run`: the program.
-/

/-! ## What the command line says about itself

The texts are laid out for lines of eighty characters.
-/

namespace Errata.CommandLine

/-- How the command line is used. -/
def usage : String :=
  "usage: errorgen [-h] [-o OUT] [--out-dir DIR] [--check] [--stdout]\n" ++
  "                [--dump-parse] [--dump-ir] [--lenient-placeholders]\n" ++
  "                [--runtime-module M] [--timings] [--version]\n" ++
  "                [SOURCE ...]\n"

/-- What each part of the command line is for. -/
def helpText : String :=
  usage ++
  "\n" ++
  "Generate Python error enumerations from .errors files\n" ++
  "\n" ++
  "positional arguments:\n" ++
  "  SOURCE                Declaration files (.errors)\n" ++
  "\n" ++
  "options:\n" ++
  "  -h, --help            show this help message and exit\n" ++
  "  -o OUT, --out OUT     Output module path (single source only; default:\n" ++
  "                        <stem>_errors.py)\n" ++
  "  --out-dir DIR         Directory for generated modules\n" ++
  "  --check               Do not write; fail if a generated module is missing or\n" ++
  "                        out of date\n" ++
  "  --stdout              Print generated code instead of writing it\n" ++
  "  --dump-parse          Print raw Lark tree\n" ++
  "  --dump-ir             Print the error descriptors\n" ++
  "  --lenient-placeholders\n" ++
  "                        Keep empty `\x7b\x7d` placeholders as literal text instead\n" ++
  "                        of rejecting them\n" ++
  "  --runtime-module M    Module the generated code imports its runtime support\n" ++
  "                        from\n" ++
  "  --timings             Print per-stage timings to stderr\n" ++
  "  --version             Print version information and exit\n"

/-- What is said about a misuse. -/
def Misuse.report (m : Misuse) : String :=
  usage ++ "errorgen: error: " ++ m.message ++ "\n"

/-- The versions of what the program rests on. -/
structure Versions where
  /-- That of the language of generated modules. -/
  language : String
  /-- That of the grammar tool. -/
  grammar : String

/-- The line that tells the versions. -/
def Versions.banner (v : Versions) : String :=
  "errorgen 0.1.0 (Python " ++ v.language ++ ", lark " ++ v.grammar ++ ")"

end Errata.CommandLine

/-! ## The program -/

namespace Errata.CommandLine

/-- Why the program ends without an exit code. -/
inductive Interruption where
  /-- A source cannot be compiled, or a file cannot be read. -/
  | source (why : Abort)
  /-- The settings cannot be used. -/
  | settings (why : Settings.Fault)

/-- What is to be done with every source. -/
structure Plan where
  /-- What the command line asks for. -/
  arguments : Arguments
  /-- What compiling depends on. -/
  options : CompileOptions
  /-- The directory of modules, if they do not stand next to their sources. -/
  outputDirectory : Option Path

/-- A word that was given, unless it is empty. -/
def given (word : Option String) : Option String :=
  word.filter (· ≠ "")

/-- The plan that follows from a command line and settings. The command line wins. -/
def Plan.ofSettings (a : Arguments) (s : Settings) : Plan where
  arguments := a
  options :=
    { strictPlaceholders := s.strictPlaceholders && !a.lenient
      runtimeModule := (given a.runtimeModule).getD s.runtimeModule }
  outputDirectory := ((given a.outDirectory).map Path.ofString).or s.outputDirectory

/-- Where the module of a source goes. -/
def Plan.target (plan : Plan) (source : Path) : Path :=
  match given plan.arguments.out with
  | some out => Path.ofString out
  | none => outputPath source plan.outputDirectory

/-! ### The time that stages took -/

/-- A number of hundredths with two decimal places. -/
def hundredths (n : Nat) : String :=
  let places := toString (n % 100)
  toString (n / 100) ++ "." ++ (if n % 100 < 10 then "0" ++ places else places)

/-- A text with blanks before it, at least `width` characters wide. -/
def alignedRight (width : Nat) (s : String) : String :=
  String.ofList (List.replicate (width - s.length) ' ') ++ s

/-- A text with blanks after it, at least `width` characters wide. -/
def alignedLeft (width : Nat) (s : String) : String :=
  s ++ String.ofList (List.replicate (width - s.length) ' ')

/-- A line that tells a time, which is given in nanoseconds. -/
def timeLine (name : String) (time : Nat) (outcome : String) : String :=
  let milliseconds := hundredths ((time + 5000) / 10000)
  "  " ++ alignedLeft 12 name ++ " " ++ alignedRight 8 milliseconds ++ "ms" ++ outcome

/-- The lines that tell how long each stage took. -/
def timeLines (filename : String) (stages : List (Stage × Bool)) (times : List Nat) : List String :=
  ["", "=== Timing: " ++ filename ++ " ==="] ++
    (stages.zip times).map (fun ((stage, success), time) =>
      timeLine stage.name time (if success then " [OK]" else " [FAIL]")) ++
    [timeLine "TOTAL" ((times.take stages.length).foldl Nat.add 0) ""]

/-! ### One source -/

variable {m : Type → Type} [Monad m] [Host m]

/-- Shows something, if it is asked for and there. -/
def showIf (wanted : Bool) (text : Option String) : m Unit :=
  match wanted, text with
  | true, some text => Files.writeLine .output text
  | _, _ => pure ()

variable [Expression.Capacity]

/-- Compiles a text. The parse tree, the descriptor and the times are shown if they are asked for,
each as soon as it is there. -/
def compileText (plan : Plan) (source : Path) (text : String) :
    m (Except CompileFault Compilation) := do
  let a := plan.arguments
  let filename := toString source
  match ← Host.timed fun _ => Compilation.ofSource text filename with
  | (.error fault, _) => return .error fault
  | (.ok parsed, parseTime) =>
    showIf a.dumpParse (parsed.tree.map (Syntax.Tree.outline 0))
    match ← Host.timed fun _ => parsed.build plan.options text with
    | (.error fault, _) => return .error fault
    | (.ok built, buildTime) =>
      showIf a.dumpDescriptor (built.descriptor.bind (Descriptor.dump? · filename))
      match ← Host.timed fun _ => built.generate plan.options filename with
      | (.error fault, _) => return .error fault
      | (.ok c, generateTime) =>
        if a.timings then
          (timeLines filename c.stages [parseTime, buildTime, generateTime]).forM
            (Files.writeLine .complaints)
        return .ok c

/-- Writes a complaint and gives the exit code that goes with it. -/
def complain (complaint : String) : m Nat := do
  Files.writeLine .complaints ("error: " ++ complaint)
  return 2

/-- Compares a module with the file that should hold it. The file may be missing. -/
def compare (source target : Path) (code : String) (status : Nat) :
    m (Except Interruption Nat) := do
  let stale := complain (toString target ++ " is out of date with " ++ toString source)
  match ← Files.readText target with
  | .ok current => if current = code then return .ok status else return .ok (← stale)
  | .error (.file fault) =>
    if fault.isMissing then return .ok (← stale) else return .error (.source (.file fault))
  | .error (.encoding fault) => return .error (.source (.encoding fault))

/-- Writes a module to its file. -/
def writeTarget (target : Path) (code : String) (status : Nat) : m (Except Interruption Nat) := do
  match ← writeModule code target with
  | .ok () =>
    Files.writeLine .output ("Generated " ++ toString target)
    return .ok status
  | .error (.refused why path) =>
    return .ok (← complain ("cannot write " ++ toString target ++ ": " ++
      (Files.Fault.refused why path).message))
  | .error .nullCharacter => return .error (.source (.file .nullCharacter))

/-- Shows, compares or writes a module. -/
def deliver (plan : Plan) (source : Path) (code : String) (status : Nat) :
    m (Except Interruption Nat) := do
  if plan.arguments.stdout then
    Host.write .output code
    return .ok status
  else if plan.arguments.check then compare source (plan.target source) code status
  else writeTarget (plan.target source) code status

/-- Compiles a source and delivers its module, if there is one. What was found is reported. -/
def runSource (plan : Plan) (source : Path) : m (Except Interruption Nat) := do
  match ← Files.readText source with
  | .error (.file (.refused why path)) =>
    return .ok (← complain ("cannot read " ++ toString source ++ ": " ++
      (Files.Fault.refused why path).message))
  | .error fault => return .error (.source (.ofTextFault fault))
  | .ok text =>
    match ← compileText plan source text with
    | .error fault => return .error (.source (.compiling fault))
    | .ok c =>
      let style := Style.detect (← Host.terminal) none none
      Host.write .complaints (c.report.printed (← Host.workingDirectory) style)
      match c.code with
      | none => return .ok 2
      | some code => deliver plan source code c.exitCode

/-! ### All sources -/

/-- Does what is planned with each source in turn. The gravest exit code counts. -/
def runSources (plan : Plan) (status : Nat) : List String → m (Except Interruption Nat)
  | [] => return .ok status
  | source :: rest => do
    match ← runSource plan (Path.ofString source) with
    | .error why => return .error why
    | .ok next => runSources plan (max status next) rest

/-- Does what a command line asks for. -/
def work (versions : Versions) (a : Arguments) : m (Except Interruption Nat) := do
  if a.version then
    Files.writeLine .output versions.banner
    return .ok 0
  if a.sources.isEmpty then return .ok (← complain "at least one source file is required")
  if (given a.out).isSome && 1 < a.sources.length then
    return .ok (← complain "-o/--out requires exactly one source file")
  match ← Settings.load {} with
  | .ok settings => runSources (.ofSettings a settings) 0 a.sources
  | .error fault =>
    match fault.complaint? with
    | some complaint => return .ok (← complain complaint)
    | none => return .error (.settings fault)

/-- The program, given the words of its command line. -/
def run (versions : Versions) (words : List String) : m (Except Interruption Nat) := do
  match Request.ofWords words with
  | .error misuse =>
    Host.write .complaints misuse.report
    return .ok 2
  | .ok .help =>
    Host.write .output helpText
    return .ok 0
  | .ok (.work a) => work versions a

end Errata.CommandLine
