import Errata.Descriptor.Basic
import Errata.Descriptor.Build
import Errata.Emission.Module
import Errata.Path
import Errata.Syntax.Parser

/-!
# Compiling files

A declaration file is compiled in three stages: it is parsed, it is described, and a module is
generated. What is found goes into a report, and an error in the report keeps back the module.

## Main definitions

* `Compilation`: what came of compiling a file.
* `Compilation.ofSource`, `Compilation.build`, `Compilation.generate`: the stages.
* `compile`: compiles the text of a file.
-/

namespace Errata

/-- What compiling depends on besides the file. -/
structure CompileOptions where
  /-- Whether a placeholder without an argument is an error. -/
  strictPlaceholders : Bool := true
  /-- The module that generated code imports its support from. -/
  runtimeModule : String := "errorgen.runtime"

/-- The stages of compiling. -/
inductive Stage where
  /-- Parsing the text. -/
  | parse
  /-- Describing the items. -/
  | build
  /-- Generating the module. -/
  | generate
deriving DecidableEq, Repr

/-- The name of a stage. -/
def Stage.name : Stage → String
  | parse => "parse"
  | build => "build"
  | generate => "generate"

/-- What came of compiling a file. -/
structure Compilation where
  /-- What was found. -/
  report : Report
  /-- The stages that were entered, and whether each succeeded. -/
  stages : List (Stage × Bool)
  /-- The parse tree, if the text could be parsed. -/
  tree : Option Syntax.Tree := none
  /-- The descriptor, if the text could be parsed. -/
  descriptor : Option Descriptor := none
  /-- The module, if there is no error. -/
  code : Option String := none

namespace Compilation

/-- Whether there is a module. -/
def isOk (c : Compilation) : Bool :=
  c.code.isSome

/-- The exit code that tells how grave the diagnostics are. -/
def exitCode (c : Compilation) : Nat :=
  if c.report.hasErrors then 2 else if c.report.hasWarnings then 1 else 0

end Compilation

/-- Why compiling a file came to nothing. -/
inductive CompileFault where
  /-- An argument cannot be handed to the reader of expressions. -/
  | unreadable (u : Descriptor.Unreadable)
  /-- The parse tree does not follow the grammar. -/
  | misfit (m : Syntax.Misfit)
  /-- The descriptor breaks a rule. -/
  | defect (d : Emission.Defect)
  /-- The automaton does not follow the grammar. -/
  | stuck

/-- Records a syntax error. An error of which there is no description is not recorded. -/
def Report.recordSyntaxError (r : Report) (e : Syntax.SyntaxError) : Option Report := do
  let detail ← e.what.describe?
  let code := Code.syntaxError
  let message ← (code.message [("detail", detail)]).toOption
  return r.add code.entry.severity code.entry.label message (if e.line > 0 then e.span else none)

namespace Compilation

/-- The first stage: parses the text of a file with the given name. -/
def ofSource (source filename : String) : Except CompileFault Compilation :=
  let report : Report := { source := some source, filename }
  match Syntax.parse source.toList with
  | .ok tree => .ok { report, stages := [(.parse, true)], tree := some tree }
  | .error .stuck => .error .stuck
  | .error (.syntaxError e) =>
    .ok { report := (report.recordSyntaxError e).getD report, stages := [(.parse, false)] }

/-- The second stage: describes the items. It is not entered without a parse tree. -/
def build [Expression.Capacity] (options : CompileOptions) (source : String) (c : Compilation) :
    Except CompileFault Compilation := do
  let some tree := c.tree | return c
  let items ← (Syntax.fileItems source.toList tree).mapError .misfit
  let description ← (describe options.strictPlaceholders items).mapError .unreadable
  return { c with
    report := description.findings.foldl Report.record c.report
    stages := c.stages ++ [(.build, true)]
    descriptor := some description.descriptor }

/-- The third stage: generates the module. It is not entered without a descriptor, nor after an
error. -/
def generate (options : CompileOptions) (filename : String) (c : Compilation) :
    Except CompileFault Compilation := do
  let some descriptor := c.descriptor | return c
  if c.report.hasErrors then return c
  let code ← (Emission.generate
    { runtimeModule := options.runtimeModule
      sourceName := (Path.ofString filename).name } descriptor).mapError .defect
  return { c with stages := c.stages ++ [(.generate, true)], code := some code }

end Compilation

/-- Compiles the text of a file with the given name. -/
def compile [Expression.Capacity] (options : CompileOptions) (source filename : String) :
    Except CompileFault Compilation := do
  let parsed ← Compilation.ofSource source filename
  let built ← parsed.build options source
  built.generate options filename

end Errata
