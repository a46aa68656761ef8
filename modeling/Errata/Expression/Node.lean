/-!
# Syntax trees of expressions

An expression that is copied into generated code is not evaluated here. Its syntax tree is asked two
things only: whether it holds a node of a kind that no message may hold, and what a part of it is
called where it cannot be assigned to. So a tree keeps the kinds of its nodes and the order of their
parts, and neither names nor values.

## Main definitions

* `Node`: a syntax tree.
* `Node.forbidden?`: the first node that no message may hold.
* `Node.invalidTarget?`: the first part that cannot be assigned to.
-/

namespace Errata.Expression

/-- The kinds of nodes. -/
inductive Kind where
  /-- A name. -/
  | name
  /-- A number or a string. -/
  | literal
  /-- The word `True`. -/
  | trueWord
  /-- The word `False`. -/
  | falseWord
  /-- The word `None`. -/
  | noneWord
  /-- Three dots. -/
  | ellipsis
  /-- A formatted string. -/
  | formatted
  /-- An attribute. -/
  | attributeOf
  /-- A subscript. -/
  | subscript
  /-- A starred expression. -/
  | starred
  /-- A list. -/
  | list
  /-- A tuple. -/
  | tuple
  /-- A call. -/
  | call
  /-- An operation on values, save a comparison. -/
  | operation
  /-- A comparison that does not start with a test of membership. -/
  | comparison
  /-- A comparison that starts with a test of membership. -/
  | membership
  /-- A choice between two values. -/
  | conditional
  /-- A generator. -/
  | generator
  /-- A list written as a comprehension. -/
  | listComprehension
  /-- An awaited value. -/
  | await
  /-- A yielded value. -/
  | yieldValue
  /-- The values yielded by another generator. -/
  | yieldFrom
  /-- A named argument of a call. -/
  | keyword
  /-- A doubly starred argument of a call. -/
  | unpacking
  /-- A clause of a comprehension. -/
  | clause
deriving DecidableEq, Repr

namespace Kind

/-- The name of a kind that no message may hold. -/
def forbidden? : Kind → Option String
  | await => some "Await"
  | yieldValue => some "Yield"
  | yieldFrom => some "YieldFrom"
  | _ => none

/-- What a node of the kind is called in messages. -/
def description : Kind → String
  | name => "name"
  | literal => "literal"
  | trueWord => "True"
  | falseWord => "False"
  | noneWord => "None"
  | ellipsis => "ellipsis"
  | formatted => "f-string expression"
  | attributeOf => "attribute"
  | subscript => "subscript"
  | starred => "starred"
  | list => "list"
  | tuple => "tuple"
  | call => "function call"
  | operation | keyword | unpacking | clause => "expression"
  | comparison | membership => "comparison"
  | conditional => "conditional expression"
  | generator => "generator expression"
  | listComprehension => "list comprehension"
  | await => "await expression"
  | yieldValue | yieldFrom => "yield expression"

/-- Whether the kind is that of an argument of a call that comes after the positional ones. -/
def isNamedArgument (k : Kind) : Bool :=
  k = keyword || k = unpacking

end Kind

/-- A syntax tree. -/
inductive Node where
  /-- A node with its parts as they are written from left to right. -/
  | node (kind : Kind) (parts : List Node)

namespace Node

/-- The kind of a node. -/
def kind : Node → Kind
  | node kind _ => kind

/-! ### Walking a tree -/

/-- The parts of a node in the order in which they are walked: the condition of a choice comes
first, the named arguments of a call last. -/
def parts : Node → List Node
  | node .conditional (body :: condition :: rest) => condition :: body :: rest
  | node .call parts =>
    parts.filter (fun n => !n.kind.isNamedArgument) ++
      parts.filter (fun n => n.kind.isNamedArgument)
  | node _ parts => parts

/-- The number of levels of a tree. -/
def height : Node → Nat
  | node _ parts => heights parts + 1
where
  /-- The number of levels of the highest of several trees. -/
  heights : List Node → Nat
    | [] => 0
    | n :: rest => max n.height (heights rest)

/-- The nodes of `count` levels, the given ones being the first level. -/
def levels : Nat → List Node → List Node
  | 0, _ => []
  | count + 1, nodes => nodes ++ levels count (nodes.flatMap parts)

/-- The name of the first node that no message may hold, level by level. -/
def forbidden? (n : Node) : Option String :=
  (levels n.height [n]).findSome? fun m => m.kind.forbidden?

/-! ### Targets -/

/-- The kind of the first part of a target that cannot be assigned to. A test of membership stands
for the target and the iterated value of a clause. -/
def invalidTarget? : Node → Option Kind
  | node .name _ | node .subscript _ | node .attributeOf _ | node .comparison _ => none
  | node .list parts | node .tuple parts => firstInvalid? parts
  | node .starred (n :: _) | node .membership (n :: _) => n.invalidTarget?
  | node kind _ => some kind
where
  /-- The kind of the first part of several targets that cannot be assigned to. -/
  firstInvalid? : List Node → Option Kind
    | [] => none
    | n :: rest =>
      match n.invalidTarget? with
      | some kind => some kind
      | none => firstInvalid? rest

end Node

end Errata.Expression
