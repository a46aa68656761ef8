import Errata.Text.Quoted

/-!
# The catalogue of diagnostics

Every diagnostic has an entry: its label, its severity, a category, the wording of its message with
named parameters, and a sentence that explains it. Labels are stable; wordings are for people.

## Main definitions

* `Code`: the diagnostics there are, in the order of the catalogue.
* `Code.entry`: the entry of a diagnostic.
* `Code.message`: the message for given parameters, or the first parameter that is missing.
-/

namespace Errata

/-- How grave a diagnostic is. -/
inductive Severity where
  /-- It suppresses the output. -/
  | error
  /-- It does not. -/
  | warning
deriving DecidableEq, Repr

/-- The word for a severity. -/
def Severity.word : Severity → String
  | error => "error"
  | warning => "warning"

/-- What part of a file a diagnostic is about. -/
inductive Category where
  /-- Anything. -/
  | general
  /-- The grammar of declarations. -/
  | syntactic
  /-- A declaration as a whole. -/
  | declaration
  /-- A variant. -/
  | variant
  /-- A field. -/
  | field
  /-- A message literal. -/
  | format
  /-- The generator itself. -/
  | internal
deriving DecidableEq, Repr

/-- The word for a category. -/
def Category.word : Category → String
  | general => "general"
  | syntactic => "syntax"
  | declaration => "declaration"
  | variant => "variant"
  | field => "field"
  | format => "format"
  | internal => "internal"

/-- A part of the wording of a message. -/
inductive Wording where
  /-- Fixed words. -/
  | text (words : String)
  /-- The value of the parameter with this name. -/
  | parameter (name : String)
deriving DecidableEq, Repr

/-- The written form of a wording: parameters stand in braces. -/
def Wording.written : List Wording → String
  | [] => ""
  | text words :: rest => words ++ written rest
  | parameter name :: rest => "\x7b" ++ name ++ "\x7d" ++ written rest

/-- Fills in the parameters of a wording, or names the first that has no value. -/
def Wording.fill (values : List (String × String)) : List Wording → Except String String
  | [] => return ""
  | text words :: rest => return words ++ (← fill values rest)
  | parameter name :: rest =>
    match values.lookup name with
    | some value => return value ++ (← fill values rest)
    | none => throw name

/-- An entry of the catalogue. -/
structure CatalogueEntry where
  /-- The stable label. -/
  label : String
  /-- How grave the diagnostic is. -/
  severity : Severity
  /-- What it is about. -/
  category : Category
  /-- The wording of its message. -/
  wording : List Wording
  /-- An explanation. -/
  explanation : String

/-- The diagnostics. -/
inductive Code where
  /-- A field reached code generation without a valid role. -/
  | unknownRole
  /-- Binding generation met a residual shape outside the closed set. -/
  | unknownShape
  /-- The descriptor builder found a parse tree node the grammar cannot produce. -/
  | unknownNode
  /-- The declaration file does not match the declaration grammar. -/
  | syntaxError
  /-- Only \n \t \r \\ \" \' \0 \xNN and \uNNNN are recognized. -/
  | invalidEscape
  /-- Error declarations must be enumerations. -/
  | notAnEnum
  /-- Variants are either unit variants or carry named fields. -/
  | notNamedFields
  /-- Use outer attributes (#[...]) instead of inner attributes (#![...]). -/
  | innerAttribute
  /-- Every variant needs a message to render. -/
  | noMessage
  /-- A variant wraps at most one causing error. -/
  | secondSource
  /-- A variant captures at most one location. -/
  | secondLocation
  /-- The cause field has a fixed name. -/
  | misnamedSource
  /-- The captured location field has a fixed name. -/
  | misnamedLocation
  /-- Variant names must be unique within an enum. -/
  | duplicateVariant
  /-- Field names must be unique within a variant. -/
  | duplicateField
  /-- Python keywords and names used by generated code are not allowed. -/
  | reservedName
  /-- Each enum in a file generates module-level names and must be unique. -/
  | duplicateDeclaration
  /-- Message and help attributes take a string literal value. -/
  | noLiteral
  /-- Selector values and constructors share the module namespace with enums. -/
  | nameCollision
  /-- A '{' opens a placeholder that is never closed. -/
  | unterminatedPlaceholder
  /-- Placeholders must name a field or an expression. -/
  | emptyPlaceholder
  /-- Non-identifier placeholder arguments must be Python expressions. -/
  | badExpression
  /-- The compiled template is not a valid str.format template. -/
  | malformedTemplate
  /-- Bare identifiers normally name a field of the variant. -/
  | notAField
  /-- The attribute has no meaning for error declarations. -/
  | unknownAttribute
  /-- The marker only needs to appear once. -/
  | repeatedTopLevel
deriving DecidableEq, Repr

namespace Code

/-- The entry of a diagnostic. -/
def entry : Code → CatalogueEntry
  | unknownRole =>
    ⟨"CE0001", .error, .internal,
      [.text "unknown field role '", .parameter "role", .text "' on field '",
       .parameter "field", .text "'"],
      "A field reached code generation without a valid role."⟩
  | unknownShape =>
    ⟨"CE0002", .error, .internal,
      [.text "unknown residual shape '", .parameter "shape", .text "' for variant '",
       .parameter "variant", .text "'"],
      "Binding generation met a residual shape outside the closed set."⟩
  | unknownNode =>
    ⟨"CE0003", .error, .internal,
      [.text "unknown parse node '", .parameter "node", .text "'"],
      "The descriptor builder found a parse tree node the grammar cannot produce."⟩
  | syntaxError =>
    ⟨"CE0100", .error, .syntactic,
      [.text "syntax error: ", .parameter "detail"],
      "The declaration file does not match the declaration grammar."⟩
  | invalidEscape =>
    ⟨"CE0101", .error, .syntactic,
      [.text "invalid escape sequence '", .parameter "escape", .text "' in string literal"],
      "Only \\n \\t \\r \\\\ \\\" \\' \\0 \\xNN and \\uNNNN are recognized."⟩
  | notAnEnum =>
    ⟨"CE1001", .error, .declaration,
      [.text "only enum errors are supported"],
      "Error declarations must be enumerations."⟩
  | notNamedFields =>
    ⟨"CE1002", .error, .variant,
      [.text "only enums with named fields are supported"],
      "Variants are either unit variants or carry named fields."⟩
  | innerAttribute =>
    ⟨"CE1003", .error, .declaration,
      [.text "inner attributes are not supported in this position"],
      "Use outer attributes (#[...]) instead of inner attributes (#![...])."⟩
  | noMessage =>
    ⟨"CE1004", .error, .variant,
      [.text "at least one `#[error = \"msg\"]` attribute is required"],
      "Every variant needs a message to render."⟩
  | secondSource =>
    ⟨"CE1005", .error, .field,
      [.text "more than one `#[source]` attribute"],
      "A variant wraps at most one causing error."⟩
  | secondLocation =>
    ⟨"CE1006", .error, .field,
      [.text "more than one `#[location]` attribute"],
      "A variant captures at most one location."⟩
  | misnamedSource =>
    ⟨"CE1007", .error, .field,
      [.text "field of `#[source]` must be named `source`"],
      "The cause field has a fixed name."⟩
  | misnamedLocation =>
    ⟨"CE1008", .error, .field,
      [.text "field of `#[location]` must be named `location`"],
      "The captured location field has a fixed name."⟩
  | duplicateVariant =>
    ⟨"CE1009", .error, .variant,
      [.text "duplicate variant '", .parameter "name", .text "' (first declared at ",
       .parameter "prev_loc", .text ")"],
      "Variant names must be unique within an enum."⟩
  | duplicateField =>
    ⟨"CE1010", .error, .field,
      [.text "duplicate field '", .parameter "name", .text "' in variant '",
       .parameter "variant", .text "'"],
      "Field names must be unique within a variant."⟩
  | reservedName =>
    ⟨"CE1011", .error, .declaration,
      [.text "'", .parameter "name", .text "' is reserved and cannot be used as a ",
       .parameter "what", .text " name"],
      "Python keywords and names used by generated code are not allowed."⟩
  | duplicateDeclaration =>
    ⟨"CE1012", .error, .declaration,
      [.text "duplicate declaration '", .parameter "name", .text "' (first declared at ",
       .parameter "prev_loc", .text ")"],
      "Each enum in a file generates module-level names and must be unique."⟩
  | noLiteral =>
    ⟨"CE1013", .error, .variant,
      [.text "attribute `#[", .parameter "name", .text "]` expects a string literal: `#[",
       .parameter "name", .text " = \"...\"]`"],
      "Message and help attributes take a string literal value."⟩
  | nameCollision =>
    ⟨"CE1014", .error, .declaration,
      [.text "name '", .parameter "name",
       .text "' is used by more than one generated item in this file"],
      "Selector values and constructors share the module namespace with enums."⟩
  | unterminatedPlaceholder =>
    ⟨"CE2001", .error, .format,
      [.text "malformed format string: unterminated placeholder"],
      "A '\x7b' opens a placeholder that is never closed."⟩
  | emptyPlaceholder =>
    ⟨"CE2002", .error, .format,
      [.text "positional argument in format string, but no arguments were given"],
      "Placeholders must name a field or an expression."⟩
  | badExpression =>
    ⟨"CE2003", .error, .format,
      [.text "cannot parse `", .parameter "expr", .text "` as an expression: ",
       .parameter "reason"],
      "Non-identifier placeholder arguments must be Python expressions."⟩
  | malformedTemplate =>
    ⟨"CE2004", .error, .format,
      [.text "malformed format string: ", .parameter "reason"],
      "The compiled template is not a valid str.format template."⟩
  | notAField =>
    ⟨"CW1001", .warning, .format,
      [.text "format argument `", .parameter "name", .text "` is not a field of variant '",
       .parameter "variant", .text "'; it is resolved in module scope"],
      "Bare identifiers normally name a field of the variant."⟩
  | unknownAttribute =>
    ⟨"CW1002", .warning, .general,
      [.text "unknown attribute `#[", .parameter "name", .text "]` is ignored"],
      "The attribute has no meaning for error declarations."⟩
  | repeatedTopLevel =>
    ⟨"CW1003", .warning, .declaration,
      [.text "duplicate `#[top_level]` attribute"],
      "The marker only needs to appear once."⟩

/-- All diagnostics in the order of the catalogue. -/
def all : List Code :=
  [
   .unknownRole, .unknownShape, .unknownNode, .syntaxError, .invalidEscape, .notAnEnum,
    .notNamedFields, .innerAttribute, .noMessage, .secondSource, .secondLocation,
    .misnamedSource, .misnamedLocation, .duplicateVariant, .duplicateField, .reservedName,
    .duplicateDeclaration, .noLiteral, .nameCollision, .unterminatedPlaceholder,
    .emptyPlaceholder, .badExpression, .malformedTemplate, .notAField, .unknownAttribute,
    .repeatedTopLevel ]

/-- The diagnostic with the given label. -/
def ofLabel? (label : String) : Option Code :=
  all.find? fun code => code.entry.label == label

end Code

/-- A message lacks the value of a parameter. -/
structure MissingParameter where
  /-- The diagnostic whose message was wanted. -/
  code : Code
  /-- The parameter. -/
  name : String

/-- What is said about a missing parameter. -/
def MissingParameter.message (m : MissingParameter) : String :=
  "missing text key '" ++ m.name ++ "' for " ++ m.code.entry.label ++ " (needed by: " ++
    quoted (Wording.written m.code.entry.wording) ++ ")"

/-- The message of a diagnostic for the given values of its parameters. -/
def Code.message (code : Code) (values : List (String × String)) :
    Except MissingParameter String :=
  match Wording.fill values code.entry.wording with
  | .ok message => .ok message
  | .error name => .error ⟨code, name⟩

end Errata
