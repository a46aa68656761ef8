import Errata.Descriptor.Basic
import Errata.Descriptor.Problem
import Errata.Expression.Check
import Errata.Message.Escape
import Errata.Message.Placeholder
import Errata.Name
import Errata.Syntax.Token
import Errata.Text.Lines
import Errata.Unicode.Identifier

/-!
# Compiling literals

A literal is decoded, made into a template, and its arguments are checked one by one. Everything
that is found at fault is given a place in the source: an index leads from the decoded text back
into the literal.

## Main definitions

* `Obstacle`: why a file or a part of it cannot be described.
* `compileLiteral`: compiles the literal of a token.
-/

namespace Errata.Descriptor

/-- An argument that cannot be handed to the reader of expressions. -/
inductive Unreadable where
  /-- It holds surrogates. -/
  | surrogates (run : SurrogateRun)
  /-- It holds the null character. -/
  | nullCharacter
  /-- It exhausts the reader. -/
  | exhausted (what : Expression.Exhaustion)
deriving DecidableEq, Repr

/-- Why a file or a part of it cannot be described. -/
inductive Obstacle where
  /-- A rule is violated; the declaration is left out. -/
  | violation (f : Finding)
  /-- An argument cannot be read; the whole file is given up. -/
  | unreadable (u : Unreadable)
deriving DecidableEq, Repr

/-- An obstacle at a place. -/
def violation (problem : Problem) (span : Option Span) : Obstacle :=
  .violation ⟨problem, span⟩

/-- The span of `length` code points of a decoded literal, from `offset` on, for a literal with the
given span. -/
def narrowed (literal : Span) (decoded : Escape.Decoded) (offset length : Nat) : Span :=
  let position (i : Nat) : Nat := (decoded.index[min i decoded.text.length]?).getD 0
  literal.narrow (1 + position offset) ((position (offset + length) : Int) - position offset)

/-- The problem for a fault of a message literal. -/
def problemOfFault : Placeholder.Fault → Problem
  | .unterminated _ _ => .unterminatedPlaceholder
  | .emptyArgument _ _ => .emptyPlaceholder
  | .malformed _ cause => .malformedTemplate cause.reason

variable [Expression.Capacity]

/-- The expression for an argument that is no mere name. -/
def expression (text : Text) (span : Span) : Except Obstacle String :=
  let stripped := text.strip
  match Expression.check stripped with
  | .ok () => .ok (String.ofList (stripped.filterMap CodePoint.char?))
  | .error (.surrogates run) => .error (.unreadable (.surrogates run))
  | .error .nullCharacter => .error (.unreadable .nullCharacter)
  | .error (.exhausted what) => .error (.unreadable (.exhausted what))
  | .error fault =>
    .error (violation (.badExpression (String.ofList (text.filterMap CodePoint.char?))
      (fault.reason?.getD "")) span)

/-- Whether the text is a name that is no keyword. -/
def isName (text : Text) : Bool :=
  match text.characters? with
  | some chars => Unicode.isIdentifier chars && !isKeyword (String.ofList chars)
  | none => false

/-- Describes an argument. -/
def argument (span : Span) (a : Placeholder.Argument) : Except Obstacle Argument := do
  let text := String.ofList (a.text.filterMap CodePoint.char?)
  if isName a.text then return ⟨text, a.offset, text, true, span⟩
  else return ⟨text, a.offset, ← expression a.text span, false, span⟩

/-- Compiles the literal of a token. -/
def compileLiteral (strict : Bool) (token : Syntax.Token) : Except Obstacle Message :=
  let span := token.span
  match Escape.decode (token.text.drop 1).dropLast with
  | .error e =>
    .error (violation (.invalidEscape (String.ofList e.escape))
      (span.narrow (1 + e.offset) e.escape.length))
  | .ok decoded =>
    match Placeholder.compile strict decoded.text with
    | .error fault =>
      .error (violation (problemOfFault fault) (narrowed span decoded fault.offset fault.length))
    | .ok message => do
      let arguments ← message.arguments.mapM fun a =>
        argument (narrowed span decoded a.offset a.text.length) a
      return ⟨message.template, arguments, decoded.text, span⟩

end Errata.Descriptor
