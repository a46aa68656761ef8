import Errata.Diagnostic.Span
import Errata.Name
import Errata.Text.CodePoint
import Errata.Text.Quoted

/-!
# Descriptors

A descriptor says all about a file that the generated code depends on: its imports and its error
enumerations, with the variants of each, the fields of each variant and its compiled messages.

A field plays one of three roles. The fields a selector holds are given by the caller; the field
`source` holds the error that was wrapped; the field `location` holds the place where the error was
made.

## Main definitions

* `Descriptor`: a file.
* `Descriptor.Enumeration`, `Descriptor.Variant`, `Descriptor.Field`, `Descriptor.Message`: its
  parts.
* `Descriptor.dump?`: a readable form of it.
-/

namespace Errata.Descriptor

/-- A value that a message shows. -/
structure Argument where
  /-- The argument as written in the message. -/
  text : String
  /-- The position of its first character in the decoded literal. -/
  offset : Nat
  /-- The expression that yields the value. -/
  expression : String
  /-- Whether it is a mere name, and so normally that of a field. -/
  isField : Bool
  /-- Where it is written. -/
  span : Option Span
deriving DecidableEq, Repr

/-- A compiled message. -/
structure Message where
  /-- The template, in which the fields have no names. -/
  template : Text
  /-- What fills the template, in order. -/
  arguments : List Argument
  /-- The decoded literal it was compiled from. -/
  literal : Text
  /-- Where the literal is written. -/
  span : Option Span
deriving DecidableEq, Repr

/-- What a field is for. -/
inductive Role where
  /-- It is given by the caller. -/
  | selector
  /-- It holds the error that was wrapped. -/
  | source
  /-- It holds the place where the error was made. -/
  | location
  /-- None of these. -/
  | other (word : String)
deriving DecidableEq, Repr

/-- The word for a role. -/
def Role.word : Role → String
  | selector => "selector"
  | source => "source"
  | location => "location"
  | other word => word

/-- A field of a variant. -/
structure Field where
  /-- Its name. -/
  name : String
  /-- Its type as written, in one line. -/
  type : String
  /-- What it is for. -/
  role : Role
  /-- Where it is declared. -/
  span : Option Span
  /-- Where its name stands. -/
  nameSpan : Option Span
deriving DecidableEq, Repr

/-- A variant of an enumeration. -/
structure Variant where
  /-- The name of the enumeration. -/
  enumeration : String
  /-- Its own name. -/
  name : String
  /-- The parts of its message. -/
  messages : List Message
  /-- The parts of its help text. -/
  helps : List Message
  /-- Its fields. -/
  fields : List Field
  /-- Where it is declared. -/
  span : Option Span
  /-- Where its name stands. -/
  nameSpan : Option Span
deriving DecidableEq, Repr

namespace Variant

/-- The names of all fields. -/
def fieldNames (v : Variant) : List String :=
  v.fields.map Field.name

/-- The fields of a role. -/
def fieldsOf (v : Variant) (role : Role) : List Field :=
  v.fields.filter fun f => f.role = role

/-- The fields a selector holds. -/
def selectorFields (v : Variant) : List Field :=
  v.fieldsOf .selector

/-- The field that holds the wrapped error. -/
def source? (v : Variant) : Option Field :=
  v.fields.find? fun f => f.role = .source

/-- The field that holds the place where the error was made. -/
def location? (v : Variant) : Option Field :=
  v.fields.find? fun f => f.role = .location

/-- Whether there are no fields. -/
def isUnit (v : Variant) : Bool :=
  v.fields.isEmpty

/-- The name of the class of the variant. -/
def className (v : Variant) : String :=
  v.enumeration ++ "_" ++ v.name

/-- The name of the function that makes an error of the variant. There is none for a variant that
wraps an error. -/
def constructor? (v : Variant) : Option String :=
  if v.source?.isSome then none else some (snakeCase v.name)

/-- The names that the variant takes in the generated module. -/
def generatedNames (v : Variant) : List String :=
  [v.name, v.className] ++ v.constructor?.toList

end Variant

/-- An error enumeration. -/
structure Enumeration where
  /-- Its name. -/
  name : String
  /-- Its variants. -/
  variants : List Variant
  /-- Whether its errors show the help texts of the errors they wrap. -/
  isTopLevel : Bool
  /-- Where it is declared. -/
  span : Option Span
  /-- Where its name stands. -/
  nameSpan : Option Span
deriving DecidableEq, Repr

/-- An import. -/
structure Import where
  /-- The statement. -/
  text : String
  /-- Where it stands. -/
  span : Option Span
deriving DecidableEq, Repr

end Errata.Descriptor

namespace Errata

/-- A file of error enumerations. -/
structure Descriptor where
  /-- The imports in order. -/
  imports : List Descriptor.Import
  /-- The enumerations in order. -/
  enumerations : List Descriptor.Enumeration
deriving DecidableEq, Repr

end Errata

/-! ## Dumps

A readable form of a descriptor for people: one line for each import, enumeration, variant, message
and field, each level indented by two more blanks.
-/

namespace Errata.Descriptor

/-- The written form of the expressions of a message. -/
def Message.dumpArguments (m : Message) : String :=
  "[" ++ ", ".intercalate (m.arguments.map fun a => quoted a.expression) ++ "]"

/-- The line of a message after the word for its use. -/
def Message.dump (m : Message) : String :=
  m.template.quoted ++ " <- " ++ m.dumpArguments

/-- A word filled up with blanks to eight characters. -/
def padded (word : String) : String :=
  word ++ String.ofList (List.replicate (8 - word.length) ' ')

/-- The line of a field. There is none for a field without one of the three roles. -/
def Field.dump? (f : Field) : Option String :=
  match f.role with
  | .other _ => none
  | role => some (padded role.word ++ " " ++ f.name ++ ": " ++ f.type)

/-- The lines of a variant. -/
def Variant.dump? (v : Variant) : Option (List String) := do
  let fields ← v.fields.mapM Field.dump?
  return ["    variant " ++ v.name] ++
    (v.messages.map fun m => "      error " ++ m.dump) ++
    (v.helps.map fun m => "      help  " ++ m.dump) ++
    (fields.map fun line => "      " ++ line)

/-- The lines of an enumeration. -/
def Enumeration.dump? (e : Enumeration) : Option (List String) := do
  let variants ← e.variants.mapM Variant.dump?
  return ("  enum " ++ e.name ++ if e.isTopLevel then " [top_level]" else "") :: variants.flatten

end Errata.Descriptor

namespace Errata

/-- The dump of a descriptor, unless a field has none of the three roles. -/
def Descriptor.dump? (d : Descriptor) (filename : String) : Option String := do
  let enumerations ← d.enumerations.mapM Descriptor.Enumeration.dump?
  return "\n".intercalate
    (["module " ++ filename] ++ (d.imports.map fun i => "  " ++ i.text) ++ enumerations.flatten)

end Errata
