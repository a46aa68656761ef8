import Errata.Error.Class
import Errata.Format.Field
import Errata.Message.Filling
import Errata.Text.Encoding

/-!
# Values and failures

What the fields of errors hold: plain values, places, help texts, references to errors and
selectors, and values of other types, which only the interpreter can tell from each other.
Operations on values and errors can fail; a failure is itself an error of a class, with a message.

## Main definitions

* `Location`: where an error was made.
* `Value`: a value.
* `Failure`: why an operation came to nothing, with `Failure.className` and `Failure.message`.
-/

namespace Errata.Error

/-- Where an error was made. -/
structure Location where
  /-- The file. -/
  file : String
  /-- The line. -/
  line : Int
  /-- The function. -/
  function : String
deriving DecidableEq, Repr

/-- The plain form of a place. -/
instance : ToString Location where
  toString l := l.file ++ ":" ++ toString l.line

/-- A reference to an error or a selector. -/
abbrev Ref := Nat

/-- A value. -/
inductive Value where
  /-- No value. -/
  | none
  /-- A truth value. -/
  | bool (b : Bool)
  /-- An integer. -/
  | int (n : Int)
  /-- A string. -/
  | text (t : Text)
  /-- A list. -/
  | list (items : List Value)
  /-- A place. -/
  | location (l : Location)
  /-- A help text. -/
  | help (t : Text)
  /-- An error or a selector. -/
  | object (r : Ref)
  /-- A value of another type. -/
  | other (type : String) (token : Nat)

namespace Value

/-- Whether there is no value. -/
def isNone : Value → Bool
  | none => true
  | _ => false

/-- The string that a value is, if it is one. -/
def text? : Value → Option Text
  | text t => some t
  | _ => Option.none

/-- The integer that a value is, if it is one. -/
def int? : Value → Option Int
  | int n => some n
  | _ => Option.none

/-- The entries of a list. -/
def items? : Value → Option (List Value)
  | list items => some items
  | _ => Option.none

/-- Whether a value counts something: it is an integer or a truth value. -/
def isNumber : Value → Bool
  | int _ | bool _ => true
  | _ => false

mutual

/-- Whether two values are equal. `same` compares objects. Truth values are equal to the integers 0
and 1; help texts are all different. -/
def equal (same : Ref → Ref → Bool) : Value → Value → Bool
  | none, none => true
  | bool a, bool b => a == b
  | int a, int b => a == b
  | bool a, int b => (if a then 1 else 0) == b
  | int a, bool b => a == (if b then 1 else 0)
  | text a, text b => a == b
  | list a, list b => allEqual same a b
  | location a, location b => a == b
  | object a, object b => same a b
  | other a i, other b j => a == b && i == j
  | _, _ => false

/-- Whether the values of two lists are equal one by one. -/
def allEqual (same : Ref → Ref → Bool) : List Value → List Value → Bool
  | [], [] => true
  | a :: as, b :: bs => equal same a b && allEqual same as bs
  | _, _ => false

end

end Value

/-- Why an operation came to nothing. -/
inductive Failure where
  /-- A format specification does not suit the value. -/
  | specification (fault : Spec.Fault)
  /-- Only the empty specification suits values of the type. -/
  | specificationFor (type : String)
  /-- A template cannot be filled. -/
  | template (misfit : Template.Misfit Value)
  /-- A name stands for nothing. -/
  | undefinedName (name : String)
  /-- A value is of no variant. -/
  | unreachable (type : String)
  /-- A value of the type has no such attribute. -/
  | noAttribute (type name : String)
  /-- A type has no such attribute. -/
  | noTypeAttribute (type name : String)
  /-- A module has no such attribute. -/
  | noModuleAttribute (module name : String)
  /-- A value that is no error cannot be bound. -/
  | unboundable (type : String)
  /-- A selector is not made for the cause. -/
  | wrongCause (selector expected got : String)
  /-- Something that is no type was taken for one. -/
  | notAType
  /-- A value that is no error was taken for a cause. -/
  | notACause
  /-- A value that is no error was raised. -/
  | notAnError
  /-- An attribute may not be set. -/
  | frozen (name : String)
  /-- A parameter is not known. -/
  | unexpectedArgument (callee name : String)
  /-- A parameter is already taken. -/
  | repeatedArgument (callee name : String)
  /-- Parameters were left out. -/
  | missingArguments (callee : String) (areNamed : Bool) (names : List String)
  /-- No named arguments are taken. -/
  | noNamedArguments (callee : String)
  /-- A value of the type cannot be called. -/
  | uncallable (type : String)
  /-- A type cannot be indexed. -/
  | unindexable (type : String)
  /-- Values of the types have no union. -/
  | noUnion (left right : String)
  /-- There are not enough calls under way. -/
  | shallowStack
  /-- Errors contain each other in a circle. -/
  | endless
  /-- A module does not exist. -/
  | noModule (name : String)
  /-- An import is relative to a package, and there is none. -/
  | noPackage
  /-- The text of a module is not well formed. -/
  | malformedModule
  /-- A text cannot be encoded. -/
  | unencodable (run : SurrogateRun)
  /-- The interpreter raised an error of its own. -/
  | raised (type : String) (message : Text)

namespace Failure

/-- The class of the error that a fault of a specification is. -/
def specificationClass : Spec.Fault → String
  | .noCodePoint | .tooLargeForCodePoint | .tooLargeForFloat => "OverflowError"
  | _ => "ValueError"

/-- The class of the error that a misfit is. -/
def misfitClass : Template.Misfit Value → String
  | .named _ => "KeyError"
  | .missing _ => "IndexError"
  | .part _ (.char '.' :: _) => "AttributeError"
  | .part _ _ => "TypeError"
  | _ => "ValueError"

/-- The name of the class of the error that a failure is. -/
def className : Failure → String
  | specification fault => specificationClass fault
  | template misfit => misfitClass misfit
  | undefinedName _ => "NameError"
  | unreachable _ => "UnreachableError"
  | noAttribute _ _ | noTypeAttribute _ _ | noModuleAttribute _ _ => "AttributeError"
  | frozen _ => "FrozenInstanceError"
  | shallowStack => "ValueError"
  | endless => "RecursionError"
  | noModule _ => "ModuleNotFoundError"
  | noPackage => "ImportError"
  | malformedModule => "SyntaxError"
  | unencodable _ => "UnicodeEncodeError"
  | raised type _ => type
  | specificationFor _ | unboundable _ | wrongCause _ _ _ | notAType | notACause | notAnError
  | unexpectedArgument _ _ | repeatedArgument _ _ | missingArguments _ _ _ | noNamedArguments _
  | uncallable _ | unindexable _ | noUnion _ _ => "TypeError"

/-- The wording of a misfit. -/
def misfitMessage : Template.Misfit Value → Text
  | .malformed fault => Text.ofString fault.reason
  | .named name => name
  | .missing index =>
    Text.ofString ("Replacement index " ++ toString index ++
      " out of range for positional args tuple")
  | .tooManyDigits => Text.ofString "Too many decimal digits in format string"
  | .numberedAfterUnnamed =>
    Text.ofString "cannot switch from automatic field numbering to manual field specification"
  | .unnamedAfterNumbered =>
    Text.ofString "cannot switch from manual field specification to automatic field numbering"
  | .tooDeep => Text.ofString "Max string recursion exceeded"
  | .unknownConversion letter =>
    Text.ofString "Unknown conversion specifier " ++ Spec.letterName letter
  | .part _ path => Text.ofString "no part " ++ path

/-- Names in quotes, joined by commas and the word for both or all. -/
def enumerated (names : List String) : String :=
  let shown := names.map fun name => "'" ++ name ++ "'"
  match shown with
  | [] => ""
  | [a] => a
  | [a, b] => a ++ " and " ++ b
  | _ => ", ".intercalate shown.dropLast ++ ", and " ++ shown.getLastD ""

/-- The wording of a failure. -/
def message : Failure → Text
  | specification fault => fault.message
  | template misfit => misfitMessage misfit
  | specificationFor type =>
    Text.ofString ("unsupported format string passed to " ++ type ++ ".__format__")
  | undefinedName name => Text.ofString ("name '" ++ name ++ "' is not defined")
  | unreachable type => Text.ofString (type ++ " is not a variant of its error enum")
  | noAttribute type name =>
    Text.ofString ("'" ++ type ++ "' object has no attribute '" ++ name ++ "'")
  | noTypeAttribute type name =>
    Text.ofString ("type object '" ++ type ++ "' has no attribute '" ++ name ++ "'")
  | noModuleAttribute module name =>
    Text.ofString ("module '" ++ module ++ "' has no attribute '" ++ name ++ "'")
  | unboundable type => Text.ofString ("cannot bind a successful value of type " ++ type)
  | wrongCause selector expected got =>
    Text.ofString (selector ++ " needs a " ++ expected ++ " cause, got " ++ got)
  | notAType => Text.ofString "isinstance() arg 2 must be a type, a tuple of types, or a union"
  | notACause => Text.ofString "exception cause must be None or derive from BaseException"
  | notAnError => Text.ofString "exceptions must derive from BaseException"
  | frozen name => Text.ofString ("cannot assign to field '" ++ name ++ "'")
  | unexpectedArgument callee name =>
    Text.ofString (callee ++ "() got an unexpected keyword argument '" ++ name ++ "'")
  | repeatedArgument callee name =>
    Text.ofString (callee ++ "() got multiple values for argument '" ++ name ++ "'")
  | missingArguments callee areNamed names =>
    Text.ofString (callee ++ "() missing " ++ toString names.length ++ " required " ++
      (if areNamed then "keyword-only" else "positional") ++
      (if names.length = 1 then " argument: " else " arguments: ") ++ enumerated names)
  | noNamedArguments callee => Text.ofString (callee ++ "() takes no keyword arguments")
  | uncallable type => Text.ofString ("'" ++ type ++ "' object is not callable")
  | unindexable type => Text.ofString ("type '" ++ type ++ "' is not subscriptable")
  | noUnion left right =>
    Text.ofString ("unsupported operand type(s) for |: '" ++ left ++ "' and '" ++ right ++ "'")
  | shallowStack => Text.ofString "call stack is not deep enough"
  | endless => Text.ofString "maximum recursion depth exceeded while getting the str of an object"
  | noModule name => Text.ofString ("No module named '" ++ name ++ "'")
  | noPackage => Text.ofString "attempted relative import with no known parent package"
  | malformedModule => Text.ofString "invalid syntax"
  | unencodable run => Text.ofString run.reason
  | raised _ message => message

end Failure

end Errata.Error
