import Errata.Error.Store
import Errata.Error.Value

/-!
# Making errors and selectors

The classes of variants, the selectors and the functions that make errors are called with named
arguments. The arguments have to match the parameters. A field without a value for its place
captures the place of the caller.

## Main definitions

* `Frame`: a call under way.
* `capture`: the place of a caller.
* `mismatch?`: how arguments fail to match parameters.
* `makeError`: calls the class of a variant.
* `makeSelector`: calls a selector.
* `callConstructor`: calls the function that makes an error of a variant.
-/

/-! ## Capturing places

An error with a place remembers where it was made. The place is found on the stack of calls under
way: from a caller outwards, the first call that is not one of the support code.
-/

namespace Errata.Error

/-- Whose code a call belongs to. -/
inductive Origin where
  /-- The support code of generated modules. -/
  | support
  /-- Any other file. -/
  | file (name : String)
deriving DecidableEq, Repr

/-- A call under way. -/
structure Frame where
  /-- Whose code it belongs to. -/
  origin : Origin
  /-- The line it is at. -/
  line : Int
  /-- The function that was called. -/
  function : String
deriving DecidableEq, Repr

/-- The place a call is at, unless it is one of the support code. -/
def Frame.location? (f : Frame) : Option Location :=
  match f.origin with
  | .support => none
  | .file name => some ⟨name, f.line, f.function⟩

/-- The place where all calls belong to the support code. -/
def unknownLocation : Location :=
  ⟨"<unknown>", 0, "<module>"⟩

/-- The place of the call `depth` levels above the innermost. The stack lists the innermost call
first. -/
def capture (depth : Nat) (stack : List Frame) : Except Failure Location :=
  if depth < stack.length then
    .ok (((stack.drop depth).findSome? Frame.location?).getD unknownLocation)
  else
    .error .shallowStack

/-- A call of the support code. -/
def supportFrame : Frame :=
  ⟨.support, 0, "support"⟩

/-- A call of a generated function. -/
def generatedFrame (function : String) : Frame :=
  ⟨.file "<generated>", 0, function⟩

end Errata.Error

/-! ## Making errors and selectors -/

namespace Errata.Error

/-! ### Arguments -/

/-- A parameter. -/
structure Parameter where
  /-- Its name. -/
  name : String
  /-- Whether it may be left out. -/
  isOptional : Bool := false

/-- How named arguments fail to match parameters. -/
def mismatch? (callee : String) (areNamed isMethod : Bool) (parameters : List Parameter)
    (names : List String) : Option Failure :=
  let known (name : String) : Bool := parameters.any fun p => p.name = name
  match names.find? fun name => !known name with
  | some name =>
    if isMethod && name == "self" then some (.repeatedArgument callee name)
    else some (.unexpectedArgument callee name)
  | none =>
    let missing := (parameters.filter fun p => !p.isOptional && !names.contains p.name).map
      Parameter.name
    if missing.isEmpty then none else some (.missingArguments callee areNamed missing)

/-! ### Errors -/

/-- The parameters of the class of a variant. -/
def variantParameters (v : Descriptor.Variant) : List Parameter :=
  v.fields.map fun f => ⟨privateName v.className f.name, f.role = .location⟩

/-- The attribute a field of an error is set to, and the error it is chained to. The place of the
caller is captured if there is no place. The attribute of a field whose name belongs to the class
alone goes by the name that it stands for. -/
def initialField (s : Store) (stack : List Frame) (values : List (String × Value))
    (state : List (String × Value) × Option Ref) (v : Descriptor.Variant) (f : Descriptor.Field) :
    Except Failure (List (String × Value) × Option Ref) := do
  let (attributes, chained) := state
  let name := privateName v.className f.name
  let value := (values.lookup name).getD .none
  match f.role with
  | .source =>
    let chained ← s.chainable value
    return (attributes ++ [(name, value)], chained)
  | .location =>
    if value.isNone then do
      let place ← capture 1 (generatedFrame "__init__" :: stack)
      return (attributes ++ [(name, .location place)], chained)
    else
      return (attributes ++ [(name, value)], chained)
  | _ => return (attributes ++ [(name, value)], chained)

/-- Calls the class of a variant. -/
def makeError (s : Store) (stack : List Frame) (e : Descriptor.Enumeration)
    (v : Descriptor.Variant) (values : List (String × Value)) : Except Failure (Ref × Store) := do
  let names := values.map Prod.fst
  if v.isUnit then
    if names.isEmpty then return s.add (.error { kind := .variant e v })
    else throw (.noNamedArguments v.className)
  else
    if let some failure :=
      mismatch? (v.className ++ ".__init__") true true (variantParameters v) names then
      throw failure
    let (attributes, chained) ← v.fields.foldlM
      (fun state f => initialField s stack values state v f) ([], none)
    return s.add (.error { kind := .variant e v, attributes, chained })

/-- Calls the class of an enumeration. -/
def makeBareError (s : Store) (e : Descriptor.Enumeration) (values : List (String × Value)) :
    Except Failure (Ref × Store) :=
  if values.isEmpty then .ok (s.add (.error { kind := .enumeration e }))
  else .error (.noNamedArguments e.name)

/-- The arguments with which the class of a variant is called on behalf of another caller: the place
of that caller, and the other fields by `valueOf`. -/
def assembled (stack : List Frame) (v : Descriptor.Variant)
    (valueOf : Descriptor.Field → Except Failure Value) :
    Except Failure (List (String × Value)) :=
  v.fields.mapM fun f => do
    let value ←
      if f.role = .location then do
        let place ← capture 1 stack
        pure (Value.location place)
      else valueOf f
    return (f.name, value)

/-- Calls the function that makes an error of a variant which wraps none. A parameter with the name
of the class of the variant hides the class, and its value cannot be called. -/
def callConstructor (s : Store) (stack : List Frame) (e : Descriptor.Enumeration)
    (v : Descriptor.Variant) (name : String) (values : List (String × Value)) :
    Except Failure (Ref × Store) := do
  let parameters := v.selectorFields.map fun f => { name := f.name : Parameter }
  if let some failure := mismatch? name true false parameters (values.map Prod.fst) then
    throw failure
  let stack := generatedFrame name :: stack
  let arguments ← assembled stack v fun f => .ok ((values.lookup f.name).getD .none)
  if v.selectorFields.any fun f => f.name = v.className then
    throw (.uncallable (s.definedTypeName ((values.lookup v.className).getD .none)))
  makeError s stack e v arguments

/-! ### Selectors -/

/-- The shapes that errors of a variant can be made from. -/
def selectorShapes (v : Descriptor.Variant) : List Emission.Shape :=
  Emission.acceptedShapes v

/-- Calls a selector of a variant. -/
def makeSelector (s : Store) (e : Descriptor.Enumeration) (v : Descriptor.Variant)
    (causeType : Kind) (values : List (String × Value)) : Except Failure (Ref × Store) := do
  let names := v.selectorFields.map fun f => privateName v.name f.name
  if let some failure :=
    mismatch? (v.name ++ ".__init__") false true (names.map fun name => { name })
      (values.map Prod.fst) then
    throw failure
  let fields := names.map fun name => (name, (values.lookup name).getD .none)
  return s.add (.selector
    { name := v.name
      shapes := selectorShapes v
      causeType := some causeType
      product := .variant e v
      fields })

end Errata.Error
