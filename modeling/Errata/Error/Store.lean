import Errata.Association
import Errata.Emission.Selector
import Errata.Error.Value

/-!
# Stores of errors and selectors

Errors and selectors are objects: what refers to one sees its changes, and two of them are the same
only if they are one object. A store holds the objects that were made so far.

## Main definitions

* `ErrorObject`: an error.
* `Selector`: a selector.
* `Store`: the objects made so far.
* `Store.attributeOf`, `Store.setAttribute`: reading and setting attributes.
-/

namespace Errata.Error

/-- An error. -/
structure ErrorObject where
  /-- Its class. -/
  kind : Class
  /-- What it was made with. -/
  arguments : List Value := []
  /-- Its attributes, among them the fields of a variant. -/
  attributes : List (String × Value) := []
  /-- The error it is chained to. -/
  chained : Option Ref := none

/-- What a selector makes. -/
inductive Product where
  /-- An error of a variant. -/
  | variant (e : Descriptor.Enumeration) (v : Descriptor.Variant)
  /-- An error that shows a text and is chained to the cause. -/
  | wrapped (text : Text)

/-- A selector. -/
structure Selector where
  /-- The name of its class. -/
  name : String
  /-- The shapes it can be bound to. -/
  shapes : List Emission.Shape
  /-- The type of causes, unless the selector does not say. -/
  causeType : Option Kind
  /-- What it makes. -/
  product : Product
  /-- The values it holds. -/
  fields : List (String × Value) := []

/-- An object. -/
inductive Object where
  /-- An error. -/
  | error (e : ErrorObject)
  /-- A selector. -/
  | selector (s : Selector)

/-- The objects made so far. -/
structure Store where
  /-- The objects, in order of making. -/
  objects : List Object := []

namespace Store

/-- The number of objects. -/
def size (s : Store) : Nat :=
  s.objects.length

/-- The object of a reference. -/
def get? (s : Store) (r : Ref) : Option Object :=
  s.objects[r]?

/-- Adds an object. -/
def add (s : Store) (o : Object) : Ref × Store :=
  (s.size, ⟨s.objects ++ [o]⟩)

/-- Puts another object in the place of one. -/
def put (s : Store) (r : Ref) (o : Object) : Store :=
  ⟨s.objects.set r o⟩

/-- The error a value refers to. -/
def error? (s : Store) : Value → Option (Ref × ErrorObject)
  | .object r =>
    match s.get? r with
    | some (.error e) => some (r, e)
    | _ => none
  | _ => none

/-- The selector a value refers to. -/
def selector? (s : Store) : Value → Option Selector
  | .object r =>
    match s.get? r with
    | some (.selector x) => some x
    | _ => none
  | _ => none

/-- The name of the type of a value. `nameOf` says which name an error goes by. -/
def typeBy (nameOf : Class → String) (s : Store) : Value → String
  | .none => "NoneType"
  | .bool _ => "bool"
  | .int _ => "int"
  | .text _ => "str"
  | .list _ => "list"
  | .location _ => "Location"
  | .help _ => "Help"
  | .other type _ => type
  | .object r =>
    match s.get? r with
    | some (.error e) => nameOf e.kind
    | some (.selector x) => x.name
    | none => "object"

/-- The name of the type of a value, with that of the enumeration for a variant. -/
def typeName (s : Store) (v : Value) : String :=
  s.typeBy Class.name v

/-- The name under which the type of a value was first defined. -/
def definedTypeName (s : Store) (v : Value) : String :=
  s.typeBy Class.definedName v

/-- The failure to find an attribute of a value. -/
def lacks (s : Store) (v : Value) (name : String) : Failure :=
  .noAttribute (s.definedTypeName v) name

/-! ### Chaining -/

/-- The name of the attribute that holds the error another one is chained to. -/
def chainAttribute : String := "__cause__"

/-- The error that a value may be chained to, or nothing. -/
def chainable (s : Store) (v : Value) : Except Failure (Option Ref) :=
  if v.isNone then .ok none
  else
    match s.error? v with
    | some (r, _) => .ok (some r)
    | none => .error .notACause

/-- The error a value is chained to. -/
def chainedTo (s : Store) (v : Value) : Except Failure Value :=
  match s.error? v with
  | some (_, e) => .ok ((e.chained.map Value.object).getD .none)
  | none => .error (s.lacks v chainAttribute)

/-! ### Attributes -/

/-- An attribute of a value. -/
def attributeOf (s : Store) (v : Value) (name : String) : Except Failure Value :=
  let found :=
    match v with
    | .location l =>
      [("filename", Value.text (Text.ofString l.file)), ("lineno", .int l.line),
        ("function", .text (Text.ofString l.function))].lookup name
    | .help t => [("msg", Value.text t)].lookup name
    | _ =>
      match s.error? v, s.selector? v with
      | some (_, e), _ => e.attributes.lookup name
      | none, some x => x.fields.lookup name
      | none, none => none
  match found with
  | some value => .ok value
  | none => if name = chainAttribute then s.chainedTo v else .error (s.lacks v name)

/-- Sets an attribute of a value. Only errors can be changed. -/
def setAttribute (s : Store) (v : Value) (name : String) (value : Value) : Except Failure Store :=
  match v, s.error? v with
  | .location _, _ => .error (.frozen name)
  | _, some (r, e) =>
    if name = chainAttribute then do
      let chained ← s.chainable value
      return s.put r (.error { e with chained })
    else
      .ok (s.put r (.error { e with attributes := setEntry name value e.attributes }))
  | _, none =>
    if (s.selector? v).isSome then .error (.frozen name) else .error (s.lacks v name)

/-- Chains an error to another one, whatever it was chained to before. -/
def chain (s : Store) (r : Ref) (cause : Option Ref) : Store :=
  match s.get? r with
  | some (.error e) => s.put r (.error { e with chained := cause })
  | _ => s

/-- Adds the error that a failure is. -/
def addFailure (s : Store) (f : Failure) : Ref × Store :=
  s.add (.error { kind := .foreign f.className, arguments := [.text f.message] })

/-! ### Equality -/

/-- Whether two selectors are of the same class. -/
def sameClass (a b : Selector) : Bool :=
  match a.product, b.product with
  | .variant e v, .variant f w => decide (e = f ∧ v = w)
  | _, _ => false

/-- Whether two objects are equal: they are one object, or selectors of one class with equal values.
Comparing goes no deeper than `depth`. -/
def sameObject (s : Store) : Nat → Ref → Ref → Bool
  | 0, a, b => a == b
  | depth + 1, a, b =>
    a == b ||
      match s.selector? (.object a), s.selector? (.object b) with
      | some x, some y =>
        sameClass x y &&
          Value.allEqual (s.sameObject depth) (x.fields.map Prod.snd) (y.fields.map Prod.snd)
      | _, _ => false

/-- Whether two values are equal. -/
def equal (s : Store) (a b : Value) : Bool :=
  Value.equal (s.sameObject s.size) a b

end Store

end Errata.Error
