import Errata.Emission.Module
import Errata.Error.Binding
import Errata.Error.Import
import Errata.Error.TypeExpression
import Errata.Path
import Errata.Text.Lines

/-!
# Loading generated modules

When a generated module is loaded, its imports are looked up, its classes are made, and then its
selectors, whose types of causes are evaluated on the way. After that its names can be called.

## Main definitions

* `Surroundings`: what a module is loaded into.
* `Library`: a loaded module.
* `Library.load`: loads the module of a descriptor.
* `Library.call`: calls what a name of a module stands for.
-/

namespace Errata.Error

/-- What a module is loaded into. -/
structure Surroundings where
  /-- The name the module is loaded under. -/
  home : String
  /-- The support module. -/
  support : String
  /-- The other modules that can be imported. -/
  modules : List String

/-- What a name of a module stands for. -/
inductive Definition where
  /-- Something that was imported. -/
  | imported (path : String)
  /-- An enumeration. -/
  | enumeration (e : Descriptor.Enumeration)
  /-- The class of a variant. -/
  | variant (e : Descriptor.Enumeration) (v : Descriptor.Variant)
  /-- The selector of a variant, with its type of causes. -/
  | selector (e : Descriptor.Enumeration) (v : Descriptor.Variant) (causeType : Kind)
  /-- The function that makes an error of a variant. -/
  | constructor (e : Descriptor.Enumeration) (v : Descriptor.Variant)

/-- What a definition is in an expression. -/
def Definition.meaning (name : String) : Definition → Meaning
  | imported path => .imported path
  | enumeration e => .kind (.errors (.enumeration e))
  | variant e v => .kind (.errors (.variant e v))
  | selector _ v _ => .kind (.others v.name)
  | constructor _ _ => .kind (.function name)

/-- A loaded module. -/
structure Library where
  /-- The name it was loaded under. -/
  home : String
  /-- The names it offers to all that import it. -/
  exports : List String
  /-- Its names, the latest first. -/
  definitions : List (String × Definition)

namespace Library

/-! ### Names -/

/-- The classes of the language that are no classes of errors. -/
def plainClasses : List String :=
  ["bool", "memoryview", "bytearray", "bytes", "classmethod", "complex", "dict", "enumerate",
    "filter", "float", "frozenset", "property", "int", "list", "map", "range", "reversed", "set",
    "slice", "staticmethod", "str", "super", "tuple", "type", "zip"]

/-- The functions of the language. -/
def plainFunctions : List String :=
  ["__build_class__", "__import__", "abs", "aiter", "all", "anext", "any", "ascii", "bin",
    "breakpoint", "callable", "chr", "compile", "delattr", "dir", "divmod", "eval", "exec",
    "format", "getattr", "globals", "hasattr", "hash", "hex", "id", "input", "isinstance",
    "issubclass", "iter", "len", "locals", "max", "min", "next", "oct", "open", "ord", "pow",
    "print", "repr", "round", "setattr", "sorted", "sum", "vars"]

/-- What the names of the language stand for, and those of every generated module. -/
def languageName (name : String) : Option Meaning :=
  match foreignClass? name with
  | some c => some (.kind (.errors (.foreign c)))
  | none =>
    if name = "object" then some (.kind .everything)
    else if plainClasses.contains name then some (.kind (.others name))
    else if name = "__doc__" then some (.kind .nothing)
    else if plainFunctions.contains name || (plainValues.lookup name).isSome then
      some (.builtin name)
    else none

/-- The names that a module imports its support under. -/
def supportAliases : List String :=
  ["_eg_dataclasses", "_eg_rt"]

/-- What the names stand for in a module with some definitions. Its support is imported before, and
the names of the language are known everywhere. -/
def namesIn (definitions : List (String × Definition)) : Names := fun name =>
  match definitions.lookup name with
  | some d => some (d.meaning name)
  | none => if supportAliases.contains name then some (.imported name) else languageName name

/-! ### Form -/

/-- Whether a name may be defined or imported. -/
def isBindable (name : String) : Bool :=
  Unicode.isIdentifier name.toList && !isKeyword name

/-- Whether the text is a path of names. -/
def isPath (path : List Char) : Bool :=
  (Path.splitAll '.' path).all fun part => isBindable (String.ofList part)

/-- Whether an expression is well formed. It was read once when its module was made; how much the
interpreter that loads the module can read is set apart. -/
def isExpression (text : Text) : Bool :=
  (@Expression.check .unlimited text).toOption.isSome

/-- Whether the text of a variant is well formed: the types of its fields, its messages with their
arguments in place, and the type of its causes. -/
def isWellFormedVariant (v : Descriptor.Variant) : Bool :=
  (v.fields.all fun f => isExpression (Text.ofString f.type)) &&
    ((v.messages ++ v.helps).all fun m => isExpression (Text.ofString (Emission.message m))) &&
    v.source?.all fun f => isExpression (Text.strip (Text.ofString (Emission.causeType f)))

/-- Whether the text of a module is well formed. -/
def isWellFormed (support : String) (d : Descriptor) : Bool :=
  isPath support.toList && (d.imports.all fun i => (readImport i).isSome) &&
    (d.enumerations.flatMap Descriptor.Enumeration.variants).all isWellFormedVariant

/-! ### Imports -/

/-- The paths that lead to a module: its own, and those of the packages it is in, outermost first.
-/
def pathsTo (path : String) : List String :=
  let parts := (Path.splitAll '.' path.toList).map String.ofList
  (List.range parts.length).map fun i => ".".intercalate (parts.take (i + 1))

/-- Looks for a module. -/
def find (w : Surroundings) (path : String) : Except Failure Unit :=
  match (pathsTo path).find? fun p => p ≠ w.support && !w.modules.contains p with
  | some p => .error (.noModule p)
  | none => .ok ()

/-- The names an import defines. -/
def loadImport (w : Surroundings) (i : Descriptor.Import) :
    Except Failure (List (String × Definition)) :=
  match readImport i with
  | none => .error .malformedModule
  | some statement =>
    if 0 < statement.level then .error .noPackage
    else do
      find w (".".intercalate statement.path)
      return statement.boundNames.map fun name => (name, .imported name)

/-! ### Loading -/

/-- Makes the classes of an enumeration. The first message of a variant is the description of its
class, which has to be text that can be encoded. -/
def loadClasses (e : Descriptor.Enumeration) : Except Failure (List (String × Definition)) := do
  let variants ← e.variants.mapM fun v => do
    if let some run := (v.messages.head?.map Descriptor.Message.literal).bind
        Text.firstSurrogates? then
      throw (.unencodable run)
    return (v.className, Definition.variant e v)
  return variants.reverse ++ [(e.name, .enumeration e)]

/-- Makes the selector of a variant, and the function that makes an error of it. -/
def loadSelector (definitions : List (String × Definition)) (e : Descriptor.Enumeration)
    (v : Descriptor.Variant) : Except Failure (List (String × Definition)) := do
  let causeType ←
    match v.source? with
    | some f => evaluateType (namesIn definitions) (privateName v.name) (Emission.causeType f)
    | none => pure .nothing
  let made := (v.name, Definition.selector e v causeType) :: definitions
  return match v.constructor? with
    | some name => (name, .constructor e v) :: made
    | none => made

/-- The variants of a descriptor, in order, each with its enumeration. -/
def variantsOf (d : Descriptor) : List (Descriptor.Enumeration × Descriptor.Variant) :=
  d.enumerations.flatMap fun e => e.variants.map fun v => (e, v)

/-- The names that a module has before its selectors: those of its imports, and of its classes. -/
def loadDeclared (w : Surroundings) (support : String) (d : Descriptor) :
    Except Failure (List (String × Definition)) := do
  if !isWellFormed support d then throw .malformedModule
  find w support
  let imported ← d.imports.foldlM (fun found i => do
    let more ← loadImport w i
    return more.reverse ++ found) []
  if support ≠ w.support ∧ d.enumerations ≠ [] then
    throw (.noModuleAttribute support "ErrorEnum")
  d.enumerations.foldlM (fun found e => do
    let more ← loadClasses e
    return more ++ found) imported

/-- Makes the selectors of variants one after the other. -/
def loadSelectors (definitions : List (String × Definition))
    (variants : List (Descriptor.Enumeration × Descriptor.Variant)) :
    Except Failure (List (String × Definition)) :=
  variants.foldlM (fun found (e, v) => loadSelector found e v) definitions

/-- Loads the module that is generated from a descriptor. -/
def load (w : Surroundings) (support : String) (d : Descriptor) : Except Failure Library := do
  let declared ← loadDeclared w support d
  let definitions ← loadSelectors declared (variantsOf d)
  return { home := w.home, exports := Emission.exportedNames d, definitions }

/-! ### Using a module -/

/-- What a name of a module stands for. -/
def definition (l : Library) (name : String) : Except Failure Definition :=
  match l.definitions.lookup name with
  | some d => .ok d
  | none => .error (.noModuleAttribute l.home name)

/-- What a name of a module, or a name of a variant behind that of its enumeration, stands for. -/
def definitionAt (l : Library) (path : String) : Except Failure Definition :=
  match (Path.splitAll '.' path.toList).map String.ofList with
  | [first, second] => do
    match ← l.definition first with
    | .enumeration e =>
      match e.variants.find? fun v => v.name = second with
      | some v => return .variant e v
      | none => throw (.noTypeAttribute e.name second)
    | _ => throw (.noTypeAttribute first second)
  | _ => l.definition path

/-- Calls what a definition stands for, with named arguments. -/
def call (s : Store) (stack : List Frame) (values : List (String × Value)) :
    Definition → Except Failure (Ref × Store)
  | .imported _ => .error (.uncallable "module")
  | .enumeration e => makeBareError s e values
  | .variant e v => makeError s stack e v values
  | .selector e v causeType => makeSelector s e v causeType values
  | .constructor e v => callConstructor s stack e v (v.constructor?.getD "") values

/-- The kind of errors that a name stands for: a class of the language, an enumeration, or a
variant. -/
def kindAt (l : Option Library) (path : String) : Except Failure Kind :=
  match foreignClass? path, l with
  | some c, _ => .ok (.errors (.foreign c))
  | none, some l => do
    let d ← l.definitionAt path
    return (d.meaning path).toKind
  | none, none => .error (.undefinedName path)

end Library

end Errata.Error
