import Errata.Text.Quoted
import Errata.Unicode.Ranges

/-!
# Arguments of the command line

The words of a command line are sources, switches and values of switches. A long name may be cut
short as long as it starts no other, and a value may follow an equals sign; letters may be written
together after one dash. The sources stand in one row. After a word of two dashes every word is an
argument.

## Main definitions

* `CommandLine.Switch`: the switches, with `spellings` and `ofSpelling?`.
* `CommandLine.Misuse`, `CommandLine.Misuse.message`: what can be wrong with a command line.
* `CommandLine.Word.understand`: what a word is.
* `CommandLine.Arguments`: what a command line asks for.
* `CommandLine.Request.ofWords`: reads a command line.
-/

/-! ## Switches of the command line

A switch is written with a long name after two dashes, and some also with a letter after one dash.
-/

namespace Errata.CommandLine

/-- A switch of the command line. -/
inductive Switch where
  /-- Shows the help. -/
  | help
  /-- The path of the module. -/
  | out
  /-- The directory of modules. -/
  | outDirectory
  /-- Modules are compared, not written. -/
  | check
  /-- Modules are shown, not written. -/
  | stdout
  /-- The parse tree is shown. -/
  | dumpParse
  /-- The descriptor is shown. -/
  | dumpDescriptor
  /-- Placeholders without an argument are kept as text. -/
  | lenient
  /-- The module that generated code imports its support from. -/
  | runtimeModule
  /-- The time that each stage took is shown. -/
  | timings
  /-- The versions are shown. -/
  | version
deriving DecidableEq, Repr

namespace Switch

/-- All switches, in the order in which they are listed. -/
def all : List Switch :=
  [help, out, outDirectory, check, stdout, dumpParse, dumpDescriptor, lenient, runtimeModule,
    timings, version]

/-- How a switch is written. -/
def spellings : Switch → List String
  | help => ["-h", "--help"]
  | out => ["-o", "--out"]
  | outDirectory => ["--out-dir"]
  | check => ["--check"]
  | stdout => ["--stdout"]
  | dumpParse => ["--dump-parse"]
  | dumpDescriptor => ["--dump-ir"]
  | lenient => ["--lenient-placeholders"]
  | runtimeModule => ["--runtime-module"]
  | timings => ["--timings"]
  | version => ["--version"]

/-- Whether a value belongs to a switch. -/
def takesValue : Switch → Bool
  | out => true
  | outDirectory => true
  | runtimeModule => true
  | _ => false

/-- The name of a switch in complaints. -/
def name (s : Switch) : String :=
  "/".intercalate s.spellings

/-- Every spelling with its switch. -/
def spelled : List (String × Switch) :=
  all.flatMap fun s => s.spellings.map fun spelling => (spelling, s)

/-- The switch that is written a certain way. -/
def ofSpelling? (spelling : String) : Option Switch :=
  spelled.lookup spelling

end Switch

end Errata.CommandLine

/-! ## Arguments of the command line -/

namespace Errata.CommandLine

/-- What can be wrong with a command line. -/
inductive Misuse where
  /-- A name that is cut short starts several names. -/
  | ambiguous (word : String) (spellings : List String)
  /-- A switch lacks its value. -/
  | missingValue (s : Switch)
  /-- A switch has a value that it does not take. -/
  | ignoredValue (s : Switch) (value : String)
  /-- Some words mean nothing. -/
  | unrecognized (words : List String)
deriving DecidableEq, Repr

/-- The wording of a misuse. -/
def Misuse.message : Misuse → String
  | ambiguous word spellings =>
    "ambiguous option: " ++ word ++ " could match " ++ ", ".intercalate spellings
  | missingValue s => "argument " ++ s.name ++ ": expected one argument"
  | ignoredValue s value =>
    "argument " ++ s.name ++ ": ignored explicit argument " ++ quoted value
  | unrecognized words => "unrecognized arguments: " ++ " ".intercalate words

/-! ### Words -/

/-- What is written in one word with a switch. -/
structure Attachment where
  /-- Whether an equals sign stands before it. -/
  afterEquals : Bool
  /-- What is written. -/
  text : List Char
deriving DecidableEq, Repr

/-- What a word of the command line is. -/
inductive Word where
  /-- A source or a value. -/
  | argument (text : String)
  /-- The two dashes after which every word is an argument. -/
  | dashes
  /-- A switch, written by its letter or by its name. -/
  | switch (s : Switch) (byLetter : Bool) (attached : Option Attachment)
  /-- What looks like a switch but is none. -/
  | unknown (text : String)
deriving DecidableEq, Repr

namespace Word

/-- What stands before the first equals sign, and what stands after it. -/
def cutAtEquals (word : List Char) : List Char × Option (List Char) :=
  match word.dropWhile (· ≠ '=') with
  | _ :: after => (word.takeWhile (· ≠ '='), some after)
  | [] => (word, none)

/-- Whether a switch is written by its letter. -/
def isByLetter : List Char → Bool
  | '-' :: '-' :: _ => false
  | _ => true

/-- The switches that a word may stand for which is not written in full, with the spelling of
each. -/
def candidates (word : List Char) : List (String × Word) :=
  match word with
  | '-' :: '-' :: _ =>
    let (start, value) := cutAtEquals word
    (Switch.spelled.filter fun (spelling, _) => start.isPrefixOf spelling.toList).map
      fun (spelling, s) => (spelling, .switch s false (value.map (⟨true, ·⟩)))
  | dash :: letter :: rest =>
    (Switch.spelled.filter fun (spelling, _) => spelling.toList = [dash, letter]).map
      fun (spelling, s) => (spelling, .switch s true (some ⟨false, rest⟩))
  | _ => []

/-- Whether the text is a row of digits. -/
def isDigits (s : List Char) : Bool :=
  s.all fun c => (Unicode.digitValue? c).isSome

/-- Whether a word is a number below zero. A line feed at its end does no harm. -/
def isNegative : List Char → Bool
  | '-' :: body =>
    let body := if body.getLast? = some '\n' then body.dropLast else body
    match body.dropWhile (· ≠ '.') with
    | '.' :: fraction =>
      isDigits (body.takeWhile (· ≠ '.')) && isDigits fraction && !fraction.isEmpty
    | _ => isDigits body && !body.isEmpty
  | _ => false

/-- What a word is that is not two dashes. -/
def understand (word : String) : Except Misuse Word :=
  match word.toList with
  | '-' :: c :: rest =>
    let chars := '-' :: c :: rest
    let (start, value) := cutAtEquals chars
    match Switch.ofSpelling? word, Switch.ofSpelling? (String.ofList start), value with
    | some s, _, _ => .ok (.switch s (isByLetter chars) none)
    | none, some s, some text => .ok (.switch s (isByLetter chars) (some ⟨true, text⟩))
    | none, _, _ =>
      match candidates chars with
      | [] => .ok (if isNegative chars || chars.contains ' ' then .argument word else .unknown word)
      | [(_, w)] => .ok w
      | several => .error (.ambiguous word (several.map Prod.fst))
  | _ => .ok (.argument word)

/-- What the words of a command line are. -/
def understandAll : List String → Except Misuse (List Word)
  | [] => .ok []
  | "--" :: rest => .ok (.dashes :: rest.map .argument)
  | word :: rest => do return (← understand word) :: (← understandAll rest)

end Word

/-! ### Switches written in one word -/

/-- How a word of switches ends. -/
inductive Ending where
  /-- With a switch, whose value, if it takes one, is the next word. -/
  | bare (s : Switch)
  /-- With a switch and its value. -/
  | valued (s : Switch) (value : String)
  /-- With what means nothing. -/
  | leftover (text : String)
deriving DecidableEq, Repr

/-- The switches of a word: those that end nothing, and how the word ends. A switch without a value
that is written by its letter may be followed by another letter. -/
def unfold (s : Switch) (byLetter afterEquals : Bool) :
    List Char → Except Misuse (List Switch × Ending)
  | [] => if s.takesValue then .ok ([], .valued s "") else .error (.ignoredValue s "")
  | letter :: rest =>
    let text := String.ofList (letter :: rest)
    if s.takesValue then .ok ([], .valued s text)
    else if !byLetter || afterEquals || letter = '-' then .error (.ignoredValue s text)
    else
      match Switch.ofSpelling? (String.ofList ['-', letter]), rest with
      | none, _ => .ok ([s], .leftover ("-" ++ text))
      | some next, [] => .ok ([s], .bare next)
      | some next, '=' :: value => do
        let (before, ending) ← unfold next true true value
        return (s :: before, ending)
      | some next, c :: value => do
        let (before, ending) ← unfold next true false (c :: value)
        return (s :: before, ending)
termination_by text => text.length

/-! ### The command line -/

/-- What a command line asks for. -/
structure Arguments where
  /-- The sources. -/
  sources : List String := []
  /-- The path of the module. -/
  out : Option String := none
  /-- The directory of modules. -/
  outDirectory : Option String := none
  /-- Whether modules are compared, not written. -/
  check : Bool := false
  /-- Whether modules are shown, not written. -/
  stdout : Bool := false
  /-- Whether the parse tree is shown. -/
  dumpParse : Bool := false
  /-- Whether the descriptor is shown. -/
  dumpDescriptor : Bool := false
  /-- Whether placeholders without an argument are kept as text. -/
  lenient : Bool := false
  /-- The module that generated code imports its support from. -/
  runtimeModule : Option String := none
  /-- Whether the time that each stage took is shown. -/
  timings : Bool := false
  /-- Whether the versions are shown. -/
  version : Bool := false
deriving DecidableEq, Repr

namespace Arguments

/-- Turns on a switch that takes no value. -/
def turnOn (a : Arguments) : Switch → Arguments
  | .check => { a with check := true }
  | .stdout => { a with stdout := true }
  | .dumpParse => { a with dumpParse := true }
  | .dumpDescriptor => { a with dumpDescriptor := true }
  | .lenient => { a with lenient := true }
  | .timings => { a with timings := true }
  | .version => { a with version := true }
  | _ => a

/-- Gives a switch its value. -/
def give (a : Arguments) (value : String) : Switch → Arguments
  | .out => { a with out := value }
  | .outDirectory => { a with outDirectory := value }
  | .runtimeModule => { a with runtimeModule := value }
  | _ => a

end Arguments

/-- What a command line asks the program to do. -/
inductive Request where
  /-- To show the help. -/
  | help
  /-- To work. -/
  | work (a : Arguments)
deriving DecidableEq, Repr

/-- How far the row of sources is read. -/
inductive Row where
  /-- It has not begun. -/
  | ahead
  /-- The last word belongs to it. -/
  | within
  /-- It has ended. -/
  | passed
deriving DecidableEq, Repr

/-- A command line that is read in part. -/
structure Reader where
  /-- What it asks for so far. -/
  arguments : Arguments := {}
  /-- How far the row of sources is read. -/
  row : Row := .ahead
  /-- The words that mean nothing. -/
  leftover : List String := []

namespace Reader

/-- Ends the row of sources, if it has begun. -/
def endRow (r : Reader) : Reader :=
  if r.row = .within then { r with row := .passed } else r

/-- Adds an argument that is no value of a switch. -/
def addArgument (r : Reader) (text : String) : Reader :=
  if r.row = .passed then { r with leftover := r.leftover ++ [text] }
  else
    { r with
      arguments := { r.arguments with sources := r.arguments.sources ++ [text] }
      row := .within }

/-- Passes over two dashes. -/
def addDashes (r : Reader) : Reader :=
  if r.row = .passed then { r with leftover := r.leftover ++ ["--"] } else { r with row := .within }

/-- Adds a word that means nothing. -/
def addLeftover (r : Reader) (text : String) : Reader :=
  { r.endRow with leftover := r.leftover ++ [text] }

/-- Turns on switches, unless one of them asks for help. -/
def turnOn? (r : Reader) (switches : List Switch) : Option Reader :=
  if switches.contains .help then none
  else some { r.endRow with arguments := switches.foldl Arguments.turnOn r.arguments }

/-- Gives a switch its value. -/
def give (r : Reader) (s : Switch) (value : String) : Reader :=
  { r.endRow with arguments := r.arguments.give value s }

/-- What the words ask for that were read. -/
def finish (r : Reader) : Except Misuse Request :=
  if r.leftover.isEmpty then .ok (.work r.arguments) else .error (.unrecognized r.leftover)

/-- Reads words. Help is shown as soon as it is asked for. -/
def read (r : Reader) : List Word → Except Misuse Request
  | [] => r.finish
  | .argument text :: rest => (r.addArgument text).read rest
  | .dashes :: rest => r.addDashes.read rest
  | .unknown text :: rest => (r.addLeftover text).read rest
  | .switch s byLetter attached :: rest => do
    let (before, ending) ←
      match attached with
      | none => pure ([], .bare s)
      | some a => unfold s byLetter a.afterEquals a.text
    match ending, rest with
    | .valued last value, rest =>
      match r.turnOn? before with
      | none => return .help
      | some r => (r.give last value).read rest
    | .leftover text, rest =>
      match r.turnOn? before with
      | none => return .help
      | some r => (r.addLeftover text).read rest
    | .bare last, rest =>
      if last.takesValue then
        match rest with
        | .argument value :: rest =>
          match r.turnOn? before with
          | none => return .help
          | some r => (r.give last value).read rest
        | _ => throw (.missingValue last)
      else
        match r.turnOn? (before ++ [last]) with
        | none => return .help
        | some r => r.read rest
termination_by words => words.length

end Reader

/-- Reads a command line. -/
def Request.ofWords (words : List String) : Except Misuse Request := do
  Reader.read {} (← Word.understandAll words)

end Errata.CommandLine
