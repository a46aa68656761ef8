import Errata.Expression.Recogniser
import Errata.Text.CodePoint

/-!
# Checking expressions

A message may show any expression that is well formed and does not wait for a value or yield one.
The expression itself is not changed.

How deep an expression may be nested is up to the interpreter that reads it, and it differs from one
to the next: what an interpreter is exhausted by is a parameter of the checker.

## Main definitions

* `Expression.Capacity`: the expressions an interpreter is exhausted by.
* `Expression.Fault`: why an expression cannot be shown.
* `Expression.check`: checks an expression.
-/

namespace Errata.Expression

/-- What an interpreter runs out of while it reads an expression. -/
inductive Exhaustion where
  /-- The stack of its parser. -/
  | memory
  /-- The depth to which it follows a tree. -/
  | recursion
deriving DecidableEq, Repr

/-- What an interpreter can read. An expression that is nested too deep, or that calls for too many
attempts, exhausts it before it can tell whether the expression is well formed. -/
class Capacity where
  /-- What the interpreter runs out of while it reads the expression, if it does. -/
  exhausted? (expression : List Char) : Option Exhaustion

/-- An interpreter that reads every expression. -/
instance (priority := low) Capacity.unlimited : Capacity where
  exhausted? _ := none

/-- Why an expression cannot be shown in a message. -/
inductive Fault where
  /-- It is not well formed. -/
  | malformed (reason : String)
  /-- It holds a node that no message may hold. -/
  | forbidden (kind : String)
  /-- It holds surrogates, so that it cannot be encoded. -/
  | surrogates (run : SurrogateRun)
  /-- It holds the null character. -/
  | nullCharacter
  /-- It exhausts the interpreter. -/
  | exhausted (what : Exhaustion)
deriving DecidableEq, Repr

/-- The reason given for a fault, unless the interpreter cannot read the expression. -/
def Fault.reason? : Fault → Option String
  | malformed reason => some reason
  | forbidden kind => some (kind ++ " is not allowed in a message")
  | surrogates _ | nullCharacter | exhausted _ => none

/-- Checks an expression. -/
def check [Capacity] (expression : Text) : Except Fault Unit :=
  match expression.firstSurrogates? with
  | some run => .error (.surrogates run)
  | none =>
    let chars := expression.filterMap CodePoint.char?
    if '\x00' ∈ chars then .error .nullCharacter
    else
      match Capacity.exhausted? chars with
      | some what => .error (.exhausted what)
      | none =>
        match recognise (tokens chars).toArray with
        | .error reason => .error (.malformed reason)
        | .ok nodes =>
          match nodes.findSome? Node.forbidden? with
          | some kind => .error (.forbidden kind)
          | none => .ok ()

end Errata.Expression
