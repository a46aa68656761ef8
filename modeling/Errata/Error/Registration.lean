import Errata.Association
import Errata.Emission.Module
import Errata.Error.Value

/-!
# Registered variants

When the statements of a generated module run, the class of an enumeration is made first, then the
classes of its variants, and then these are set as attributes of the class of the enumeration, in
the same place as those that it inherits. Selectors and constructors follow.

## Main definitions

* `Attribute`: what an attribute of the class of an enumeration holds.
* `Scene`: what the statements of a module have made so far.
* `Statement`: the statements of a module behind its header, with the lines they are written in.
* `Scene.exec`: runs a statement.
* `Scene.run`: runs the statements of a descriptor.
-/

namespace Errata.Error

open Descriptor (Enumeration Variant)

/-! ### Attributes -/

/-- What an attribute of the class of an enumeration holds. -/
inductive Attribute where
  /-- Whether the enumeration is top-level. -/
  | flag (isTopLevel : Bool)
  /-- The numbers of the classes of variants, by the names of the variants. -/
  | table (entries : List (String × Nat))
  /-- The class of a variant, by its number. -/
  | variant (number : Nat)
  /-- A part of the class itself. -/
  | own (name : String)
  /-- A part of its base class. -/
  | inherited (name : String)
deriving DecidableEq, Repr

/-- The attributes that classes of errors have from the language. -/
def languageAttributes : List String :=
  ["__annotations__", "__cause__", "__class__", "__context__", "__delattr__", "__dict__", "__dir__",
    "__doc__", "__eq__", "__format__", "__ge__", "__getattribute__", "__getstate__", "__gt__",
    "__hash__", "__init__", "__init_subclass__", "__le__", "__lt__", "__module__", "__ne__",
    "__new__", "__reduce__", "__reduce_ex__", "__repr__", "__setattr__", "__setstate__",
    "__sizeof__", "__str__", "__subclasshook__", "__suppress_context__", "__traceback__",
    "__weakref__", "add_note", "args", "with_traceback"]

/-- The methods of the base class of enumerations. -/
def baseMethods : List String :=
  ["cause", "provide", "_eg_render"]

/-- The attributes of the base class of enumerations. -/
def baseAttribute (name : String) : Option Attribute :=
  if name = "top_level" then some (.flag false)
  else if name = "variants" then some (.table [])
  else if baseMethods.contains name || languageAttributes.contains name then some (.inherited name)
  else none

/-- The attributes that the class of an enumeration is made with. -/
def ownAttributes (e : Enumeration) : List (String × Attribute) :=
  [("__module__", .own "__module__"), ("__doc__", .own "__doc__")] ++
    (if e.isTopLevel then [("top_level", .flag true)] else []) ++ [("__str__", .own "__str__")]

/-- An attribute of a class with some attributes of its own. -/
def attributeIn (own : List (String × Attribute)) (name : String) : Option Attribute :=
  (own.lookup name).or (baseAttribute name)

/-! ### Scenes -/

/-- What a name of a module stands for while its statements run. -/
inductive Referent where
  /-- The support module. -/
  | runtime
  /-- The module for data classes. -/
  | dataclasses
  /-- Something that was imported. -/
  | imported
  /-- The class of an enumeration, by its number. -/
  | enumeration (number : Nat)
  /-- The class of a variant, by its number. -/
  | variant (number : Nat)
  /-- A selector. -/
  | selector
  /-- A function that makes an error. -/
  | constructor
deriving DecidableEq, Repr

/-- The class of a variant. -/
structure VariantClass where
  /-- Its name. -/
  name : String
  /-- The name that it is shown by. -/
  qualifiedName : String
  /-- The number of the class that it is based on. -/
  base : Nat
deriving DecidableEq, Repr

/-- What the statements of a module have made so far. -/
structure Scene where
  /-- The names, the latest first. -/
  names : List (String × Referent)
  /-- The attributes of the classes of enumerations, by their numbers. -/
  enumerations : List (List (String × Attribute))
  /-- The classes of variants, by their numbers. -/
  variants : List VariantClass

/-! ### Statements -/

/-- A statement of a module behind its header. -/
inductive Statement where
  /-- Makes the class of an enumeration. -/
  | enumeration (e : Enumeration)
  /-- Makes the class of a variant. -/
  | variant (v : Variant)
  /-- Sets the name that the class of a variant is shown by. -/
  | qualify (e : Enumeration) (v : Variant)
  /-- Sets the class of a variant as an attribute of that of the enumeration. -/
  | attach (e : Enumeration) (v : Variant)
  /-- Sets the table of the variants of an enumeration. -/
  | list (e : Enumeration)
  /-- Makes the selector of a variant. -/
  | selector (v : Variant)
  /-- Makes the function that makes errors of a variant. -/
  | constructor (v : Variant) (name : String)

namespace Statement

/-- The lines that a statement is written in. -/
def lines : Statement → Except Emission.Defect Emission.Lines
  | enumeration e => .ok (Emission.enumerationClass e)
  | variant v => Emission.variantClass v
  | qualify e v => .ok [v.className ++ ".__qualname__ = \"" ++ e.name ++ "." ++ v.name ++ "\""]
  | attach e v => .ok [e.name ++ "." ++ v.name ++ " = " ++ v.className]
  | list e => .ok [e.name ++ ".variants = \x7b" ++
      ", ".intercalate (e.variants.map fun v => "\"" ++ v.name ++ "\": " ++ v.className) ++ "\x7d"]
  | selector v => Emission.selector [] v
  | constructor v name => .ok (Emission.constructor v name)

/-- The statements that make the variants of an enumeration known to its class. -/
def registering (e : Enumeration) : List Statement :=
  (e.variants.flatMap fun v => [.qualify e v, .attach e v]) ++ [.list e]

/-- The statements for the classes of an enumeration. -/
def classes (e : Enumeration) : List Statement :=
  .enumeration e :: e.variants.map .variant ++ registering e

/-- The statements for the use of a variant. -/
def binding (v : Variant) : List Statement :=
  .selector v :: v.constructor?.toList.map (.constructor v)

/-- The statements of a module behind its header. -/
def ofDescriptor (d : Descriptor) : List Statement :=
  d.enumerations.flatMap classes ++ (d.enumerations.flatMap Enumeration.variants).flatMap binding

end Statement

namespace Scene

variable (s : Scene)

/-- The failure of looking up an attribute of what does not have it. -/
def lacks (name member : String) : Referent → Failure
  | .enumeration _ | .variant _ | .selector => .noTypeAttribute name member
  | .constructor => .noAttribute "function" member
  | .runtime | .dataclasses | .imported => .noModuleAttribute name member

/-- Looks up an attribute of a module that the header imports. What else goes by its name does not
have the attribute. -/
def reach (name : String) (expected : Referent) (member : String) : Except Failure Unit :=
  match s.names.lookup name with
  | none => .error (.undefinedName name)
  | some found => if found = expected then .ok () else .error (lacks name member found)

/-- The number of the class of an enumeration. -/
def enumerationCalled (name : String) : Except Failure Nat :=
  match s.names.lookup name with
  | some (.enumeration r) => .ok r
  | _ => .error (.undefinedName name)

/-- The number of the class of a variant. -/
def variantCalled (name : String) : Except Failure Nat :=
  match s.names.lookup name with
  | some (.variant r) => .ok r
  | _ => .error (.undefinedName name)

/-- The entries of a table, of which the last counts for each key. -/
def table (entries : List (String × Nat)) : List (String × Nat) :=
  entries.foldl (fun made entry => setEntry entry.1 entry.2 made) []

/-- Runs a statement. `evaluate` evaluates the type of the causes of a variant. -/
def exec (evaluate : List (String × Referent) → Variant → Except Failure Unit) (s : Scene) :
    Statement → Except Failure Scene
  | .enumeration e => do
    s.reach "_eg_rt" .runtime "ErrorEnum"
    return { s with
      names := (e.name, .enumeration s.enumerations.length) :: s.names
      enumerations := s.enumerations ++ [ownAttributes e] }
  | .variant v => do
    let base ← s.enumerationCalled v.enumeration
    return { s with
      names := (v.className, .variant s.variants.length) :: s.names
      variants := s.variants ++ [⟨v.className, v.className, base⟩] }
  | .qualify e v => do
    let q ← s.variantCalled v.className
    return { s with
      variants := s.variants.modify q fun c => { c with qualifiedName := e.name ++ "." ++ v.name } }
  | .attach e v => do
    let q ← s.variantCalled v.className
    let r ← s.enumerationCalled e.name
    return { s with enumerations := s.enumerations.modify r (setEntry v.name (.variant q)) }
  | .list e => do
    let entries ← e.variants.mapM fun v => do return (v.name, ← s.variantCalled v.className)
    let r ← s.enumerationCalled e.name
    return { s with
      enumerations := s.enumerations.modify r (setEntry "variants" (.table (table entries))) }
  | .selector v => do
    s.reach "_eg_dataclasses" .dataclasses "dataclass"
    evaluate s.names v
    s.reach "_eg_rt" .runtime "Shape"
    return { s with names := (v.name, .selector) :: s.names }
  | .constructor _ name => .ok { s with names := (name, .constructor) :: s.names }

/-- What there is behind the header of a module that imports some names. -/
def start (imported : List String) : Scene where
  names := (imported.map fun name => (name, .imported)).reverse ++
    [("_eg_rt", .runtime), ("_eg_dataclasses", .dataclasses)]
  enumerations := []
  variants := []

/-- Runs the statements of a module that imports some names. -/
def run (evaluate : List (String × Referent) → Variant → Except Failure Unit)
    (imported : List String) (d : Descriptor) : Except Failure Scene :=
  (Statement.ofDescriptor d).foldlM (exec evaluate) (start imported)

/-- An attribute of the class of an enumeration. -/
def attributeOf (number : Nat) (name : String) : Option Attribute :=
  s.enumerations[number]?.bind fun own => attributeIn own name

end Scene

end Errata.Error
