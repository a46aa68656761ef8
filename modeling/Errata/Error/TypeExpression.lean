import Errata.Error.Value
import Errata.Expression.Check
import Errata.Unicode.Ranges

/-!
# Evaluating types

The type of the causes of a selector is evaluated when a module is loaded. A type is a name, with
names of parts after it, or a union of types.

## Main definitions

* `Meaning`: what a name can stand for.
* `evaluateType`: what a type stands for where names are known.
-/

namespace Errata.Error

/-- The values of the language that are neither classes nor functions, and those that every
generated module has, with their types. -/
def plainValues : List (String × String) :=
  [("NotImplemented", "NotImplementedType"), ("Ellipsis", "ellipsis"), ("__debug__", "bool"),
    ("copyright", "_Printer"), ("credits", "_Printer"), ("exit", "Quitter"), ("help", "_Helper"),
    ("license", "_Printer"), ("quit", "Quitter"), ("__all__", "list"), ("__builtins__", "dict"),
    ("__cached__", "str"), ("__file__", "str"), ("__loader__", "SourceFileLoader"),
    ("__name__", "str"), ("__package__", "str"), ("__spec__", "ModuleSpec"),
    ("annotations", "_Feature")]

/-- What a name can stand for. -/
inductive Meaning where
  /-- A kind of errors. -/
  | kind (k : Kind)
  /-- A module or something in one, of which nothing is known. -/
  | imported (path : String)
  /-- A value or a function of the language. -/
  | builtin (name : String)
  /-- A string. -/
  | text

namespace Meaning

/-- The name of the type of what a name stands for. -/
def typeName : Meaning → String
  | text => "str"
  | builtin name => (plainValues.lookup name).getD "builtin_function_or_method"
  | kind .nothing => "NoneType"
  | kind (.function _) => "function"
  | kind (.union _) => "types.UnionType"
  | kind (.tuple _) => "tuple"
  | kind _ | imported _ => "type"

/-- The kind a name stands for. Which errors belong to an imported class is not told by its name. -/
def toKind : Meaning → Kind
  | kind k => k
  | imported path => .others path
  | builtin name => .function name
  | text => .others "str"

/-- A part of what a name stands for. Enumerations have their variants as parts. -/
def part (d : Meaning) (name : String) : Except Failure Meaning :=
  match d with
  | imported path => .ok (imported (path ++ "." ++ name))
  | kind (.errors (.enumeration e)) =>
    match e.variants.find? fun v => v.name = name with
    | some v => .ok (kind (.errors (.variant e v)))
    | none => .error (.noTypeAttribute e.name name)
  | kind (.errors c) => .error (.noTypeAttribute c.definedName name)
  | kind (.others type) => .error (.noTypeAttribute type name)
  | kind .everything => .error (.noTypeAttribute "object" name)
  | d => .error (.noAttribute d.typeName name)

/-- The members of a union that a kind stands for by itself. -/
def members : Kind → List Kind
  | .union ks => ks
  | k => [k]

/-- Whether two members of unions are the same. -/
def sameMember : Kind → Kind → Bool
  | .errors c, .errors d => c = d
  | .others a, .others b => a = b
  | .everything, .everything | .nothing, .nothing => true
  | _, _ => false

/-- The union of what two names stand for. One of them has to be a type, and a union is named once
for each of its members. -/
def union (a b : Meaning) : Except Failure Meaning :=
  let isType : Meaning → Bool
    | imported _ => true
    | kind (.errors _) | kind (.others _) | kind .everything | kind (.union _) => true
    | _ => false
  let canJoin : Meaning → Bool
    | kind .nothing => true
    | d => isType d
  if canJoin a && canJoin b && (isType a || isType b) then
    let all := members a.toKind ++ members b.toKind
    let distinct := all.foldl (fun found k =>
      if found.any (sameMember k) then found else found ++ [k]) []
    match distinct with
    | [k] => .ok (kind k)
    | ks => .ok (kind (.union ks))
  else .error (.noUnion a.typeName b.typeName)

end Meaning

/-- What the names of a place stand for. -/
abbrev Names := String → Option Meaning

/-- Follows the parts of a name. -/
def followParts (d : Meaning) : List Expression.Lexeme →
    Except Failure (Meaning × List Expression.Lexeme)
  | .op "." :: .name part :: rest => do
    let d ← d.part part
    followParts d rest
  | .op "[" :: _ =>
    match d with
    | .imported _ => .ok (d, [])
    | .kind (.errors c) => .error (.unindexable c.definedName)
    | d => .ok (d, [])
  | rest => .ok (d, rest)

/-- A type without unions, at the start of lexemes. Of a type that is no name nothing is known. -/
def evaluateTerm (names : Names) : List Expression.Lexeme →
    Except Failure (Meaning × List Expression.Lexeme)
  | .name name :: rest =>
    match names name with
    | some d => followParts d rest
    | none => .error (.undefinedName name)
  | .keyword "None" :: rest => .ok (.kind .nothing, rest)
  | .string _ _ :: rest => .ok (.text, rest)
  | _ => .ok (.imported "", [])

/-- The union of a type with those that follow it. At most `fuel` follow. -/
def evaluateUnion (names : Names) (fuel : Nat) (left : Meaning) (rest : List Expression.Lexeme) :
    Except Failure Meaning :=
  match fuel, rest with
  | fuel + 1, .op "|" :: rest => do
    let (right, rest) ← evaluateTerm names rest
    let both ← left.union right
    evaluateUnion names fuel both rest
  | _, _ => .ok left

/-- A lexeme of a place where names stand for other names. -/
def renamed (rename : String → String) : Expression.Lexeme → Expression.Lexeme
  | .name name => .name (rename name)
  | lexeme => lexeme

/-- What a type stands for in a place where names stand for other names. It has to be well formed.
-/
def evaluateType (names : Names) (rename : String → String) (type : String) :
    Except Failure Kind := do
  let stripped := type.toList.dropWhile Unicode.isBlank
  let lexemes := (Expression.tokens stripped).map fun t => renamed rename t.lexeme
  let (first, rest) ← evaluateTerm names lexemes
  let all ← evaluateUnion names lexemes.length first rest
  return all.toKind

end Errata.Error
