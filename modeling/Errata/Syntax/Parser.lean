import Errata.Syntax.Automaton
import Errata.Syntax.Grammar
import Errata.Syntax.Scanner
import Errata.Syntax.Token
import Errata.Text.Lines
import Errata.Text.Quoted

/-!
# Parsing

The parser runs the automaton of the grammar over a source text. It keeps a stack of symbols that
have been read, each with the state reached by it and with the fragment of the parse tree that it
stands for. Before each token it asks the scanner for the terminals that the state on top of the
stack accepts.

## Main definitions

* `Unexpected`, `SyntaxError`: what should not stand where it stands.
* `Config`: what the parser knows between two steps.
* `step`: reads a token, reduces by a production, shifts a token, or stops.
* `parse`: runs the parser over a source text.
-/

/-! ## Syntax errors

What a file can have in a place where something else should stand, and how it is described in one
line.
-/

namespace Errata.Syntax

/-- Something that should not stand where it stands. -/
inductive Unexpected where
  /-- A character that starts no token. -/
  | character (c : Char)
  /-- A token, with the labels of what could stand in its place. -/
  | token (label text : String) (expected : List String)
  /-- The end of the input. -/
  | endOfInput
  /-- Something else, described elsewhere. -/
  | other (description : String)
deriving DecidableEq, Repr

/-- The description in one line; there is none if a description from elsewhere has no lines. Of the
labels that could stand in the place the first six are listed in the order of code points. -/
def Unexpected.describe? : Unexpected → Option String
  | character c => some ("unexpected character " ++ quoted (String.singleton c))
  | token label text expected =>
    let listed := (expected.mergeSort fun a b => decide (a ≤ b)).take 6
    some ("unexpected " ++ label ++ " " ++ quoted text ++ " (expected one of: " ++
      ", ".intercalate listed ++ ")")
  | endOfInput => some "unexpected end of input"
  | other description => (displayLines description.toList).head?.map String.ofList

/-- A syntax error: what is unexpected, and where. -/
structure SyntaxError where
  /-- What should not stand there. -/
  what : Unexpected
  /-- Its line. -/
  line : Int
  /-- Its column. -/
  column : Int
deriving DecidableEq, Repr

/-- The span of a syntax error. -/
def SyntaxError.span (e : SyntaxError) : Span :=
  .point e.line e.column

end Errata.Syntax

/-! ## Parsing -/

namespace Errata.Syntax

/-- The part of a parse tree that a symbol stands for: one node or token, several, or none. -/
structure Fragment where
  /-- From the first to the last token of the symbol. -/
  extent : Option Extent
  /-- The trees it hands on. -/
  children : List Tree

namespace Fragment

/-- The fragment of a token. -/
def ofToken (t : Token) : Fragment where
  extent := some t.extent
  children := if t.terminal.isKept then [.leaf t] else []

/-- From the start of the first extent to the stop of the last. -/
def joinExtents (extents : List Extent) : Option Extent :=
  match extents.head?, extents.getLast? with
  | some first, some last => some (first.to last)
  | _, _ => none

/-- The fragment of a symbol that consists of others. -/
def combine (kind : Option Kind) (parts : List Fragment) : Fragment :=
  let extent := joinExtents (parts.filterMap Fragment.extent)
  let children := parts.flatMap Fragment.children
  match kind with
  | some kind => ⟨extent, [.node kind extent children]⟩
  | none => ⟨extent, children⟩

end Fragment

/-- A symbol on the stack of the parser. -/
structure Frame where
  /-- The symbol. -/
  symbol : Symbol
  /-- The state reached by it. -/
  state : Nat
  /-- What it stands for. -/
  fragment : Fragment

/-- What the parser knows between two steps. -/
structure Config where
  /-- The symbols read so far, the last one first. -/
  stack : List Frame
  /-- The position in the source text. -/
  position : Position
  /-- The source text from there on. -/
  rest : List Char
  /-- The next token, or `none` for the end of the input, once that is known. -/
  lookahead : Option (Option Token)
  /-- The last token read. -/
  last : Option Token

/-- The configuration before anything is read. -/
def Config.initial (source : List Char) : Config :=
  ⟨[], {}, source, none, none⟩

/-- The state on top of the stack. -/
def Config.state (c : Config) : State :=
  Syntax.state ((c.stack.head?.map Frame.state).getD 0)

/-- Why there is no parse tree. -/
inductive Failure where
  /-- The source text does not follow the grammar. -/
  | syntaxError (e : SyntaxError)
  /-- The automaton does not follow the grammar. -/
  | stuck

/-- What a step leads to. -/
inductive Outcome where
  /-- Another configuration. -/
  | next (c : Config)
  /-- The parse tree. -/
  | done (tree : Tree)
  /-- A failure. -/
  | failed (reason : Failure)

/-- The outcome for a token that cannot stand where it stands. -/
def refuse (t : Token) (expected : List (Option Terminal)) : Outcome :=
  .failed (.syntaxError
    { what := .token t.terminal.label (String.ofList t.text) (expected.map Terminal.labelOrEnd)
      line := t.extent.start.line
      column := t.extent.start.column })

/-- Finds out what comes next. -/
def readNext (c : Config) : Outcome :=
  match scan c.state.accepted c.position c.rest with
  | .token t rest =>
    .next { c with position := t.extent.stop, rest, lookahead := some (some t), last := some t }
  | .atEnd => .next { c with lookahead := some none }
  | .misplaced t => refuse t ((tried c.state.accepted).map some)
  | .stray position ch =>
    .failed (.syntaxError ⟨.character ch, position.line, position.column⟩)

/-- Takes frames with the given symbols off the stack, the last symbol being on top. -/
def popSymbols : List Symbol → List Frame → Option (List Frame)
  | [], stack => some stack
  | s :: symbols, frame :: stack => if frame.symbol = s then popSymbols symbols stack else none
  | _ :: _, [] => none

/-- Replaces the right side of a production, which is on top of the stack, by its left side. -/
def reduce (p : Production) (c : Config) : Outcome :=
  match popSymbols p.rhs.reverse c.stack with
  | none => .failed .stuck
  | some stack =>
    let parts := ((c.stack.take p.rhs.length).map Frame.fragment).reverse
    match { c with stack }.state.gotos.lookup p.lhs with
    | none => .failed .stuck
    | some state => .next { c with stack := ⟨.n p.lhs, state, .combine p.kind parts⟩ :: stack }

/-- Puts a token on the stack. -/
def shift (t : Token) (c : Config) : Outcome :=
  match c.state.shifts.lookup t.terminal with
  | some state =>
    .next { c with stack := ⟨.t t.terminal, state, .ofToken t⟩ :: c.stack, lookahead := none }
  | none => refuse t c.state.lookaheads

/-- Ends the parse at the end of the input. -/
def finish (c : Config) : Outcome :=
  if c.state.accepting then
    match c.stack with
    | [] => .done (.node .file none [])
    | [⟨.n .file, _, ⟨_, [tree]⟩⟩] => .done tree
    | _ => .failed .stuck
  else
    let position := (c.last.map fun t => t.extent.start).getD {}
    .failed (.syntaxError ⟨.endOfInput, position.line, position.column⟩)

/-- One step of the parser. -/
def step (c : Config) : Outcome :=
  match c.lookahead with
  | none => readNext c
  | some lookahead =>
    match c.state.reduction? (lookahead.map Token.terminal) with
    | some index =>
      match productions[index]? with
      | some p => reduce p c
      | none => .failed .stuck
    | none =>
      match lookahead with
      | some t => shift t c
      | none => finish c

/-- Runs the parser for at most `fuel` steps. -/
def run : Nat → Config → Except Failure Tree
  | 0, _ => .error .stuck
  | fuel + 1, c =>
    match step c with
    | .next c => run fuel c
    | .done tree => .ok tree
    | .failed reason => .error reason

/-- The parse tree of a source text. A token is read, shifted and reduced in at most 32 steps. -/
def parse (source : List Char) : Except Failure Tree :=
  run (32 * (source.length + 1)) (.initial source)

end Errata.Syntax
