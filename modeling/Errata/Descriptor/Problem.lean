import Errata.Diagnostic.Report

/-!
# Problems of declarations

What can be wrong with declarations that follow the grammar. A problem carries what its message
tells, and every message can be written.

## Main definitions

* `Problem`: what can be wrong.
* `Problem.message`: the message of a problem.
* `Finding`: a problem and the place where it was found.
-/

namespace Errata

/-- What can be wrong with a declaration. -/
inductive Problem where
  /-- A field has no type. -/
  | untypedField (name : String)
  /-- A literal holds an invalid escape. -/
  | invalidEscape (escape : String)
  /-- A declaration is no enumeration. -/
  | notAnEnum
  /-- A variant or a declaration has a body without names. -/
  | notNamedFields
  /-- An inner attribute stands in a declaration. -/
  | innerAttribute
  /-- A variant has no message. -/
  | noMessage
  /-- A variant has a second field for the wrapped error. -/
  | secondSource
  /-- A variant has a second field for the place. -/
  | secondLocation
  /-- The field for the wrapped error has another name than `source`. -/
  | misnamedSource
  /-- The field for the place has another name than `location`. -/
  | misnamedLocation
  /-- A variant has the name of an earlier one. -/
  | duplicateVariant (name : String) (earlier : Span)
  /-- A field has the name of an earlier one. -/
  | duplicateField (name variant : String)
  /-- A name is reserved. -/
  | reservedName (name what : String)
  /-- An enumeration has the name of an earlier one. -/
  | duplicateDeclaration (name : String) (earlier : Span)
  /-- An attribute for a message has no string literal. -/
  | noLiteral (name : String)
  /-- Two generated items have the same name. -/
  | nameCollision (name : String)
  /-- A placeholder has no end. -/
  | unterminatedPlaceholder
  /-- A placeholder has no argument. -/
  | emptyPlaceholder
  /-- An argument is no expression that can be shown. -/
  | badExpression (expression reason : String)
  /-- A template is malformed. -/
  | malformedTemplate (reason : String)
  /-- A name in a message is not that of a field. -/
  | notAField (name variant : String)
  /-- An attribute has no meaning. -/
  | unknownAttribute (name : String)
  /-- An enumeration is marked twice as top-level. -/
  | repeatedTopLevel
deriving DecidableEq, Repr

namespace Problem

/-- The diagnostic of a problem. -/
def code : Problem → Code
  | untypedField _ => .syntaxError
  | invalidEscape _ => .invalidEscape
  | notAnEnum => .notAnEnum
  | notNamedFields => .notNamedFields
  | innerAttribute => .innerAttribute
  | noMessage => .noMessage
  | secondSource => .secondSource
  | secondLocation => .secondLocation
  | misnamedSource => .misnamedSource
  | misnamedLocation => .misnamedLocation
  | duplicateVariant _ _ => .duplicateVariant
  | duplicateField _ _ => .duplicateField
  | reservedName _ _ => .reservedName
  | duplicateDeclaration _ _ => .duplicateDeclaration
  | noLiteral _ => .noLiteral
  | nameCollision _ => .nameCollision
  | unterminatedPlaceholder => .unterminatedPlaceholder
  | emptyPlaceholder => .emptyPlaceholder
  | badExpression _ _ => .badExpression
  | malformedTemplate _ => .malformedTemplate
  | notAField _ _ => .notAField
  | unknownAttribute _ => .unknownAttribute
  | repeatedTopLevel => .repeatedTopLevel

/-- The values of the parameters of the message. -/
def values : Problem → List (String × String)
  | untypedField name =>
    [("detail", "field '" ++ name ++ "' needs a type: `" ++ name ++ ": <type>`")]
  | invalidEscape escape => [("escape", escape)]
  | duplicateVariant name earlier | duplicateDeclaration name earlier =>
    [("name", name), ("prev_loc", toString earlier)]
  | duplicateField name variant | notAField name variant => [("name", name), ("variant", variant)]
  | reservedName name what => [("name", name), ("what", what)]
  | noLiteral name | nameCollision name | unknownAttribute name => [("name", name)]
  | badExpression expression reason => [("expr", expression), ("reason", reason)]
  | malformedTemplate reason => [("reason", reason)]
  | _ => []

/-- The message of a problem can be written: the values of all its parameters are known. -/
theorem message_isOk (p : Problem) : (p.code.message p.values).isOk = true := by
  cases p <;> rfl

/-- The message of a problem. -/
def message (p : Problem) : String :=
  match h : p.code.message p.values with
  | .ok message => message
  | .error _ => absurd p.message_isOk (by simp [h, Except.isOk, Except.toBool])

/-- How grave a problem is. -/
def severity (p : Problem) : Severity :=
  p.code.entry.severity

end Problem

/-- A problem and the place where it was found. -/
structure Finding where
  /-- The problem. -/
  problem : Problem
  /-- Its place. -/
  span : Option Span
deriving DecidableEq, Repr

/-- Adds a finding to a report. -/
def Report.record (r : Report) (f : Finding) : Report :=
  r.add f.problem.severity f.problem.code.entry.label f.problem.message f.span

end Errata
