import Errata.Error.Call

/-!
# Binding

An operation that failed leaves an error or no value. A selector turns that into an error of its
variant, if the variant can be made from it. Around a block of code, a selector turns the errors
that leave the block.

## Main definitions

* `Store.shapeOf`: the shape of what a failed operation left.
* `Store.extractCause`: the error in it, if a selector can be bound to it.
* `Store.bind`: binds a selector.
* `Store.context`, `Store.withContext`: what leaves a block of code under a selector.
* `Store.ensure`: a value, or the error of a selector in its place.
-/

namespace Errata.Error

namespace Store

variable [Hierarchy]

/-- The shape of what a failed operation left, for a type of causes. -/
def shapeOf (s : Store) (residual : Value) (causeType : Kind) :
    Except Failure Emission.Shape :=
  if residual.isNone then .ok .empty
  else
    match s.error? residual with
    | none => .error (.unboundable (s.typeName residual))
    | some (_, e) =>
      if causeType.isNothing then .ok .anyError
      else
        match causeType.admits? e.kind with
        | none => .error .notAType
        | some true => .ok .error
        | some false => .ok .anyError

/-- The error in what a failed operation left, or nothing, if the selector can be bound to it.
`home` is the module of the generated classes. -/
def extractCause (s : Store) (home : String) (x : Selector) (residual : Value) :
    Except Failure (Option Ref) := do
  let some causeType := x.causeType | throw (.noAttribute x.name "cause_type")
  let shape ← s.shapeOf residual causeType
  if x.shapes.contains shape then
    return (s.error? residual).map Prod.fst
  else
    throw (.wrongCause x.name (causeType.title home)
      (if residual.isNone then "None" else s.typeName residual))

/-- A reference, or nothing, as a value. -/
def valueOfRef (r : Option Ref) : Value :=
  (r.map Value.object).getD .none

/-- Binds a selector to what a failed operation left. The stack starts with the caller. The class of
the variant is called from the body of the class of the selector, where a name that belongs to that
class alone stands for nothing. -/
def bind (s : Store) (home : String) (stack : List Frame) (x : Selector) (residual : Value) :
    Except Failure (Ref × Store) := do
  let cause ← s.extractCause home x residual
  match x.product with
  | .wrapped text =>
    return s.add (.error { kind := .wrapped, arguments := [.text text], chained := cause })
  | .variant e v =>
    let callee := privateName v.name v.className
    if callee ≠ v.className then throw (.undefinedName callee)
    let stack := generatedFrame "bind" :: stack
    let arguments ← assembled stack v fun f =>
      if f.role = .source then .ok (valueOfRef cause)
      else .ok ((x.fields.lookup (privateName v.name f.name)).getD .none)
    let (r, made) ← makeError s stack e v arguments
    return (r, if v.source?.isSome then made else made.chain r cause)

/-- The selector a value refers to, or the failure to find an attribute of selectors. -/
def asSelector (s : Store) (v : Value) (wanted : String) : Except Failure Selector :=
  match s.selector? v with
  | some x => .ok x
  | none => .error (s.lacks v wanted)

/-! ### Blocks of code -/

/-- The kinds of errors that a selector turns: the given ones, or else its type of causes, or else
all ordinary errors. -/
def caught (s : Store) (v : Value) (given : List Kind) : List Kind :=
  if given.isEmpty then
    match (s.selector? v).bind Selector.causeType with
    | some .nothing | none => [.errors .ordinary]
    | some k => [k]
  else given

/-- What leaves a block of code. -/
structure Exit where
  /-- The error that leaves the block, unless the block is left as usual. -/
  error : Option Ref
  /-- The objects made so far. -/
  store : Store

/-- A failure leaves the block as an error. -/
def exitWith (s : Store) (f : Failure) : Exit :=
  let (r, s) := s.addFailure f
  ⟨some r, s⟩

/-- The error that raising a value raises. -/
def raised (s : Store) (v : Value) : Ref × Store :=
  match s.error? v with
  | some (r, _) => (r, s)
  | none => s.addFailure .notAnError

/-- The class of an error. -/
def classOf (s : Store) (r : Ref) : Class :=
  match s.error? (.object r) with
  | some (_, e) => e.kind
  | none => .ordinary

/-- What leaves a block that an error would leave, if a selector turns errors of some kinds. A
turned error is chained to the original. -/
def turned (s : Store) (home : String) (stack : List Frame) (selector : Value)
    (given : List Kind) (r : Ref) : Exit :=
  match (Kind.tuple (s.caught selector given)).admits? (s.classOf r) with
  | none => s.exitWith .notAType
  | some false => ⟨some r, s⟩
  | some true =>
    let bound := do
      let x ← s.asSelector selector "bind"
      s.bind home (supportFrame :: stack) x (.object r)
    match bound with
    | .ok (made, s) => ⟨some made, s.chain made (some r)⟩
    | .error failure => s.exitWith failure

/-- What leaves a block of code under a selector, when the block raises a value or nothing. -/
def context (s : Store) (home : String) (stack : List Frame) (selector : Value)
    (given : List Kind) (value : Option Value) : Exit :=
  match value with
  | none => ⟨none, s⟩
  | some v =>
    let (r, s) := s.raised v
    s.turned home stack selector given r

/-- What leaves a block of code under a selector that is made only when it is needed, and whether it
was made. Only ordinary errors are turned. -/
def withContext (s : Store) (home : String) (stack : List Frame) (selector : Value)
    (given : List Kind) (value : Option Value) : Exit × Bool :=
  match value with
  | none => (⟨none, s⟩, false)
  | some v =>
    let (r, s) := s.raised v
    if (s.classOf r).belongsTo .ordinary then (s.turned home stack selector given r, true)
    else (⟨some r, s⟩, false)

/-- A value, or nothing and the error of a selector in its place. -/
def ensure (s : Store) (home : String) (stack : List Frame) (value : Value) (selector : Value) :
    Except Failure (Option Ref × Store) := do
  if value.isNone then
    let x ← s.asSelector selector "bind"
    let (r, s) ← s.bind home (supportFrame :: stack) x .none
    return (some r, s)
  else
    return (none, s)

end Store

end Errata.Error
