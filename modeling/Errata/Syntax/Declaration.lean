import Errata.Syntax.Grammar
import Errata.Text.Lines

/-!
# Imports and declarations

A parse tree says how a file follows the grammar. This module reads from it what a file consists of:
imports, and declarations with their attributes, variants and fields. What is written inside a body
that no enumeration may have is left out, save for inner attributes.

## Main definitions

* `Item`: an import or a declaration.
* `Item.ofTree`: reads an item, or says why the tree is none.
* `fileItems`: the items of a file.
-/

namespace Errata.Syntax

/-! ### Items -/

/-- An attribute of what follows it. -/
structure Attribute where
  /-- Its path. -/
  name : String
  /-- The string literal after its equals sign, if there is one. -/
  literal : Option Token
  /-- Where it stands. -/
  span : Span

/-- A field of a variant. -/
structure Field where
  /-- Its attributes. -/
  attributes : List Attribute
  /-- Its name. -/
  name : Token
  /-- Its type as written, in one line, if it has one. -/
  type : Option String
  /-- Where it stands, from its first attribute on. -/
  span : Span

/-- What follows the name of a variant. -/
inductive Shape where
  /-- Nothing. -/
  | unit
  /-- A type. -/
  | typed
  /-- Types in parentheses. -/
  | positional
  /-- Fields in braces. -/
  | named (fields : List Field)

/-- A variant of an enumeration. -/
structure Variant where
  /-- Its attributes. -/
  attributes : List Attribute
  /-- Its name. -/
  name : Token
  /-- What follows its name. -/
  shape : Shape
  /-- Where it stands, from its first attribute on. -/
  span : Span

/-- The body of a declaration. -/
inductive Body where
  /-- None. -/
  | empty
  /-- Types in parentheses. -/
  | positional
  /-- Variants in braces. -/
  | variants (variants : List Variant)

/-- A declaration. -/
structure Declaration where
  /-- The word that says what is declared. -/
  kind : Token
  /-- Its name. -/
  name : Token
  /-- Its attributes. -/
  attributes : List Attribute
  /-- The places of all inner attributes in it. -/
  innerAttributes : List Span
  /-- Its body. -/
  body : Body
  /-- Where it stands, from its first attribute on. -/
  span : Span

/-- What a file consists of. -/
inductive Item where
  /-- The import of a module, perhaps under another name. -/
  | importModule (path : List String) (newName : Option String) (span : Span)
  /-- The import of names, perhaps under other names, from the module with a path after dots. -/
  | importNames (dots : String) (path : List String) (names : List (String × Option String))
    (span : Span)
  /-- A declaration. -/
  | declaration (d : Declaration)

/-- Why a tree is no item. -/
inductive Misfit where
  /-- Items are not of this kind. -/
  | unknownKind (label : String)
  /-- A part is missing. -/
  | incomplete
deriving DecidableEq, Repr

/-! ### Children of a node -/

namespace Tree

/-- The tokens of one terminal among trees. -/
def tokens (terminal : Terminal) (trees : List Tree) : List Token :=
  trees.filterMap fun
    | leaf t => if t.terminal = terminal then some t else none
    | node .. => none

/-- The texts of the names among trees. -/
def names (trees : List Tree) : List String :=
  (tokens .name trees).map fun t => String.ofList t.text

/-- The extents and the children of the nodes of one kind among trees. -/
def nodes (kind : Kind) (trees : List Tree) : List (Option Extent × List Tree) :=
  trees.filterMap fun
    | leaf _ => none
    | node k extent children => if k = kind then some (extent, children) else none

/-- The spans of the nodes of one kind in a tree, each before those inside it. -/
def spansWithin (kind : Kind) : Tree → List Span
  | leaf _ => []
  | node k extent children =>
    let inside := spansWithinAll kind children
    match extent with
    | some extent => if k = kind then extent.span :: inside else inside
    | none => inside
where
  /-- The spans of the nodes of one kind in several trees. -/
  spansWithinAll (kind : Kind) : List Tree → List Span
    | [] => []
    | tree :: rest => spansWithin kind tree ++ spansWithinAll kind rest

end Tree

/-! ### Reading items -/

/-- A type as written in the source text, its words being joined by single blanks. -/
def typeText (source : List Char) (extent : Extent) : String :=
  let written := (source.drop extent.start.offset).take (extent.stop.offset - extent.start.offset)
  " ".intercalate ((words written).map String.ofList)

/-- Reads an attribute from its extent and the children of its node. -/
def attribute? : Option Extent × List Tree → Option Attribute
  | (some extent, .node form _ inside :: _) => do
    let (_, path) ← (Tree.nodes .path (inside.take 1)).head?
    let literal :=
      if form = .metaNameValue then
        match inside.drop 1 with
        | .leaf t :: _ => if t.terminal = .string then some t else none
        | _ => none
      else none
    return ⟨"::".intercalate (Tree.names path), literal, extent.span⟩
  | _ => none

/-- Reads the attributes of what follows among trees. -/
def outerAttributes? (trees : List Tree) : Option (List Attribute) :=
  (Tree.nodes .outerAttribute trees).mapM attribute?

/-- Reads a field from its extent and the children of its node. -/
def field? (source : List Char) : Option Extent × List Tree → Option Field
  | (some extent, children) => do
    let attributes ← outerAttributes? children
    let name ← (Tree.tokens .name children).head?
    let type ←
      match Tree.nodes .fieldType children with
      | [] => pure none
      | (_, inside) :: _ =>
        match inside with
        | .node _ (some extent) _ :: _ => pure (some (typeText source extent))
        | _ => failure
    return ⟨attributes, name, type, extent.span⟩
  | _ => none

/-- Reads what follows the name of a variant from the children of its node. -/
def shape? (source : List Char) (children : List Tree) : Option Shape :=
  match Tree.nodes .parenBody children, Tree.nodes .fieldType children,
    Tree.nodes .braceBody children with
  | _ :: _, _, _ => some .positional
  | [], _ :: _, _ => some .typed
  | [], [], (_, body) :: _ => Shape.named <$> (Tree.nodes .member body).mapM (field? source)
  | [], [], [] => some .unit

/-- Reads a variant from its extent and the children of its node. -/
def variant? (source : List Char) : Option Extent × List Tree → Option Variant
  | (some extent, children) => do
    let attributes ← outerAttributes? children
    let name ← (Tree.tokens .name children).head?
    let shape ← shape? source children
    return ⟨attributes, name, shape, extent.span⟩
  | _ => none

/-- Reads the body of a declaration from the children of its node. -/
def body? (source : List Char) (children : List Tree) : Option Body :=
  match Tree.nodes .parenBody children, Tree.nodes .braceBody children with
  | _ :: _, _ => some .positional
  | [], (_, body) :: _ => Body.variants <$> (Tree.nodes .member body).mapM (variant? source)
  | [], [] => some .empty

/-- Reads a declaration from its extent and the children of its node. -/
def declaration? (source : List Char) (extent : Extent) (children : List Tree) :
    Option Declaration := do
  let (_, word) ← (Tree.nodes .declarationKind children).head?
  let kind ←
    match word with
    | .leaf t :: _ => some t
    | _ => none
  let name ← (Tree.tokens .name children).head?
  let attributes ← outerAttributes? children
  let body ← body? source children
  let innerAttributes := Tree.spansWithin.spansWithinAll .innerAttribute children
  return ⟨kind, name, attributes, innerAttributes, body, extent.span⟩

/-- Reads the import of a module from its extent and the children of its node. -/
def importModule? (extent : Extent) (children : List Tree) : Option Item := do
  let (_, path) ← (Tree.nodes .dottedName children).head?
  return .importModule (Tree.names path) (Tree.names children).head? extent.span

/-- Reads an imported name from the children of its node. -/
def importedName? (children : List Tree) : Option (String × Option String) :=
  match Tree.names children with
  | [] => none
  | name :: rest => some (name, rest.head?)

/-- Reads the import of names from its extent and the children of its node. -/
def importNames? (extent : Extent) (children : List Tree) : Option Item := do
  let (_, origin) ← (Tree.nodes .moduleRef children).head?
  let dots := (Tree.tokens .relative origin).head?.map fun t => String.ofList t.text
  let path := (Tree.nodes .dottedName origin).head?.map fun (_, path) => Tree.names path
  let names ← (Tree.nodes .importAlias children).mapM fun (_, newName) => importedName? newName
  return .importNames (dots.getD "") (path.getD []) names extent.span

/-- What is read, unless a part of it is missing. -/
def completed {α : Type} : Option α → Except Misfit α
  | some a => .ok a
  | none => .error .incomplete

/-- Reads an item. -/
def Item.ofTree (source : List Char) : Tree → Except Misfit Item
  | .leaf _ => .error .incomplete
  | .node kind none _ =>
    if kind = .importStatement ∨ kind = .fromImport ∨ kind = .declaration then .error .incomplete
    else .error (.unknownKind kind.label)
  | .node kind (some extent) children =>
    match kind with
    | .importStatement => completed (importModule? extent children)
    | .fromImport => completed (importNames? extent children)
    | .declaration => completed (Item.declaration <$> declaration? source extent children)
    | kind => .error (.unknownKind kind.label)

/-- The items of a file from the trees in it. -/
def itemsOfTrees (source : List Char) (trees : List Tree) : Except Misfit (List Item) :=
  (trees.filter fun tree => tree matches .node ..).mapM (Item.ofTree source)

/-- The items of a file. -/
def fileItems (source : List Char) : Tree → Except Misfit (List Item)
  | .node .file _ children => itemsOfTrees source children
  | _ => .error .incomplete

end Errata.Syntax
