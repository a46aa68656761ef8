import Errata.Compile
import Errata.Files.Host
import Errata.Toml.Document

/-!
# Settings

Settings stand in the table `tool.errorgen` of the nearest `pyproject.toml`: the one in the
directory itself, else the one in the first directory above it that has one. Without such a file,
without the table, and for a key that it lacks, there are defaults.

## Main definitions

* `Settings`: the settings.
* `Settings.Fault`: why there are none; `Settings.Fault.complaint?` for those that are reported.
* `Settings.ofDocument`: the settings in a document.
* `Settings.load`: finds and reads the settings for a directory.
-/

namespace Errata

/-- What can be set for all files of a project. -/
structure Settings where
  /-- Whether a placeholder without an argument is an error. -/
  strictPlaceholders : Bool := true
  /-- The module that generated code imports its support from. -/
  runtimeModule : String := "errorgen.runtime"
  /-- The directory of generated modules, if they do not stand next to their sources. -/
  outputDirectory : Option Path := none
  /-- The file in which the settings stand. -/
  file : Option Path := none
deriving DecidableEq, Repr

namespace Settings

/-- The kinds of values in a document. -/
inductive Kind where
  /-- A string. -/
  | text
  /-- An integer. -/
  | integer
  /-- A float. -/
  | float
  /-- A truth value. -/
  | bool
  /-- A date together with a time. -/
  | dateTime
  /-- A date. -/
  | date
  /-- A time of day. -/
  | time
  /-- An array. -/
  | array
  /-- A table. -/
  | table
deriving DecidableEq, Repr

namespace Kind

/-- The kind of a value. -/
def ofValue : Toml.Value → Kind
  | .text _ => text
  | .integer _ => integer
  | .float _ => float
  | .bool _ => bool
  | .dateTime _ => dateTime
  | .date _ => date
  | .time _ => time
  | .array _ => array
  | .table _ => table

/-- The name of a kind. -/
def name : Kind → String
  | text => "str"
  | integer => "int"
  | float => "float"
  | bool => "bool"
  | dateTime => "datetime"
  | date => "date"
  | time => "time"
  | array => "list"
  | table => "dict"

/-- The name of a kind together with that of its home. -/
def fullName : Kind → String
  | dateTime => "datetime.datetime"
  | date => "datetime.date"
  | time => "datetime.time"
  | kind => kind.name

end Kind

/-- The keys that are settings. -/
inductive Key where
  /-- Whether a placeholder without an argument is an error. -/
  | strictPlaceholders
  /-- The module that generated code imports its support from. -/
  | runtimeModule
  /-- The directory of generated modules. -/
  | outputDirectory
deriving DecidableEq, Repr

/-- The written form of a key. -/
def Key.written : Key → String
  | strictPlaceholders => "strict-placeholders"
  | runtimeModule => "runtime-module"
  | outputDirectory => "out-dir"

/-- Why there are no settings. -/
inductive Fault where
  /-- A value is of the wrong kind. -/
  | mistyped (file : Path) (key : Key) (expected actual : Kind)
  /-- The document is malformed. -/
  | malformed (file : Path) (document : List Char) (problem : Toml.Problem)
  /-- The document breaks a limit of its reader. -/
  | beyondLimit (document : List Char) (problem : Toml.Problem)
  /-- What should be the table of tools is a value in which nothing can be looked up. -/
  | notTable (kind : Kind)
  /-- What should be the table of settings is a value without members. -/
  | noMembers (kind : Kind)
  /-- What should be the table of settings has a key as a member, but not the value of a key. -/
  | notIndexed (kind : Kind)
  /-- The file cannot be read. -/
  | unreadable (fault : Files.Fault)
  /-- The bytes of the file are the encoding of no text. -/
  | undecodable (fault : Bytes.Fault)

namespace Fault

/-- The wording of a fault. -/
def message : Fault → String
  | mistyped file key expected actual =>
    toString file ++ ": [tool.errorgen] " ++ key.written ++ " must be a " ++ expected.name ++
      ", got " ++ actual.name
  | malformed file document problem => toString file ++ ": " ++ problem.message document
  | beyondLimit document problem => problem.message document
  | notTable kind => "'" ++ kind.fullName ++ "' object has no attribute 'get'"
  | noMembers kind => "argument of type '" ++ kind.fullName ++ "' is not iterable"
  | notIndexed .text => "string indices must be integers, not 'str'"
  | notIndexed _ => "list indices must be integers or slices, not str"
  | unreadable fault => fault.message
  | undecodable fault => fault.reason

/-- The complaint about a fault that the author of the settings is told of. The other faults end a
run. -/
def complaint? : Fault → Option String
  | mistyped file key expected actual => some (mistyped file key expected actual).message
  | malformed file document problem => some (malformed file document problem).message
  | _ => none

end Fault

/-! ### Settings in a document -/

/-- The member of a table of tools. A member that is missing reads as an empty table. -/
def member (key : String) : Toml.Value → Except Fault Toml.Value
  | .table entries => .ok ((Toml.Table.get? entries key).getD (.table []))
  | v => .error (.notTable (.ofValue v))

/-- Whether the value is the string. -/
def isText (s : String) : Toml.Value → Bool
  | .text t => t = s
  | _ => false

/-- Whether a text occurs within another. -/
def occursIn (part : List Char) : List Char → Bool
  | [] => part.isEmpty
  | c :: rest => part.isPrefixOf (c :: rest) || occursIn part rest

/-- The value of a key in what should be the table of settings. A string has the texts within it as
members and an array its items, but neither has values of keys. -/
def valueOf (table : Toml.Value) (key : Key) : Except Fault (Option Toml.Value) :=
  match table with
  | .table entries => .ok (Toml.Table.get? entries key.written)
  | .text s =>
    if occursIn key.written.toList s.toList then .error (.notIndexed .text) else .ok none
  | .array items =>
    if items.any (isText key.written) then .error (.notIndexed .array) else .ok none
  | v => .error (.noMembers (.ofValue v))

/-- The truth value of a key, if the key is there. -/
def boolOf (file : Path) (table : Toml.Value) (key : Key) : Except Fault (Option Bool) := do
  match ← valueOf table key with
  | none => return none
  | some (.bool b) => return some b
  | some v => throw (.mistyped file key .bool (.ofValue v))

/-- The string of a key, if the key is there. -/
def textOf (file : Path) (table : Toml.Value) (key : Key) : Except Fault (Option String) := do
  match ← valueOf table key with
  | none => return none
  | some (.text s) => return some s
  | some v => throw (.mistyped file key .text (.ofValue v))

/-- The settings in a document that is read from a file. A directory is seen from that of the file.
The first fault counts, in the order of the keys. -/
def ofDocument (file : Path) (document : Toml.Table) : Except Fault Settings := do
  let tools ← member "tool" (.table document)
  let table ← member "errorgen" tools
  let strict ← boolOf file table .strictPlaceholders
  let runtime ← textOf file table .runtimeModule
  let directory ← textOf file table .outputDirectory
  let defaults : Settings := {}
  return {
    strictPlaceholders := strict.getD defaults.strictPlaceholders
    runtimeModule := runtime.getD defaults.runtimeModule
    outputDirectory := directory.map fun d => file.parent / Path.ofString d
    file := some file }

/-- The settings in the bytes of a file. -/
def ofBytes (file : Path) (bytes : List UInt8) : Except Fault Settings := do
  let document ← (Bytes.decode bytes).mapError .undecodable
  match Toml.read document with
  | .ok table => ofDocument file table
  | .error problem =>
    throw (if problem.fault.isMalformed then .malformed file document problem
      else .beyondLimit document problem)

/-! ### Settings for a directory -/

/-- A directory and those above it, from the nearest to the farthest. -/
def upward (directory : Path) : List Path :=
  (List.range (directory.parts.length + 1)).reverse.map fun n =>
    { directory with parts := directory.parts.take n }

variable {m : Type → Type} [Monad m] [Host m]

/-- The first of several paths at which there is a file. -/
def firstFile? : List Path → m (Option Path)
  | [] => return none
  | p :: rest => do if ← Host.isFile p then return some p else firstFile? rest

/-- Finds and reads the settings for a directory. -/
def load (start : Path) : m (Except Fault Settings) := do
  if start.parts.any fun name => name.toList.contains '\x00' then
    return .error (.unreadable .nullCharacter)
  let directory := (← Host.workingDirectory).resolve start
  let files := (upward directory).map fun d => d.child "pyproject.toml"
  match ← firstFile? files with
  | none => return .ok {}
  | some file =>
    match ← Host.readFile file with
    | .error fault => return .error (.unreadable fault)
    | .ok bytes => return ofBytes file bytes

end Settings

end Errata
