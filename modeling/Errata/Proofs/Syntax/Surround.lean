import Errata.Proofs.Syntax.Declaration
import Mathlib.Data.Option.Basic

/-!
# Declarations and their variants

A declaration with a body in braces consists of its variants and of what stands around them: the
attributes, the kind and the name. Other variants can be put in the same place, and then nothing
else is read differently.

* `exists_node_of_fileItems`: every item of a file is read from one of the trees in it.
* `Surround`: what stands around the variants of a declaration, and `Surround.tree`: the node of the
  declaration with given variants.
* `exists_surround`: every declaration with a body in braces is such a node.
* **`Surround.ofTree_tree_iff`**: how such a node is read, part by part.
* **`Surround.ofTree_of_inside`**: how it is read with other variants in the same place.
-/

namespace Errata.Syntax

/-! ### Parts among trees -/

namespace Tree

/-- The nodes among trees are those of the first and those of the others. -/
theorem nodes_append (kind : Kind) (first others : List Tree) :
    nodes kind (first ++ others) = nodes kind first ++ nodes kind others :=
  List.filterMap_append

/-- A node is one of its kind. -/
theorem nodes_cons_self (kind : Kind) (extent : Option Extent) (children others : List Tree) :
    nodes kind (node kind extent children :: others) = (extent, children) :: nodes kind others :=
  List.filterMap_cons_some (if_pos rfl)

/-- A node is none of another kind. -/
theorem nodes_cons_of_ne {kind other : Kind} (h : other ≠ kind) (extent : Option Extent)
    (children others : List Tree) :
    nodes kind (node other extent children :: others) = nodes kind others :=
  List.filterMap_cons_none (if_neg h)

/-- The tokens among trees are those of the first and those of the others. -/
theorem tokens_append (terminal : Terminal) (first others : List Tree) :
    tokens terminal (first ++ others) = tokens terminal first ++ tokens terminal others :=
  List.filterMap_append

/-- A node is no token. -/
theorem tokens_cons_node (terminal : Terminal) (kind : Kind) (extent : Option Extent)
    (children others : List Tree) :
    tokens terminal (node kind extent children :: others) = tokens terminal others :=
  List.filterMap_cons_none rfl

/-- What is within trees is within the first or within the others. -/
theorem spansWithinAll_append (kind : Kind) (first others : List Tree) :
    spansWithin.spansWithinAll kind (first ++ others) =
      spansWithin.spansWithinAll kind first ++ spansWithin.spansWithinAll kind others := by
  induction first with
  | nil => rfl
  | cons tree first ih =>
    show spansWithin kind tree ++ spansWithin.spansWithinAll kind (first ++ others) = _
    rw [ih, ← List.append_assoc]
    rfl

/-- What is within a node of another kind is within its children. -/
theorem spansWithin_of_ne {kind other : Kind} (h : other ≠ kind) (extent : Option Extent)
    (children : List Tree) :
    spansWithin kind (node other extent children) = spansWithin.spansWithinAll kind children := by
  cases extent with
  | none => rfl
  | some extent =>
    show (if other = kind then extent.span :: spansWithin.spansWithinAll kind children
      else spansWithin.spansWithinAll kind children) = _
    rw [if_neg h]

end Tree

/-! ### Items -/

/-- The declaration that an item is. -/
def Item.declaration? : Item → Option Declaration
  | .declaration d => some d
  | .importModule .. => none
  | .importNames .. => none

/-- The declaration that an item is makes up the item. -/
theorem Item.declaration?_eq_some_iff {item : Item} {d : Declaration} :
    item.declaration? = some d ↔ item = .declaration d := by
  cases item <;> simp [Item.declaration?]

/-- The variants of a body in braces. -/
def Body.variants? : Body → Option (List Variant)
  | .variants vs => some vs
  | .empty => none
  | .positional => none

/-- The variants of a body in braces make up the body. -/
theorem Body.variants?_eq_some_iff {body : Body} {vs : List Variant} :
    body.variants? = some vs ↔ body = .variants vs := by
  cases body <;> simp [Body.variants?]

/-! ### Declarations -/

/-- What is read as a declaration is the node of one. -/
theorem exists_node_of_declaration {source : List Char} {node : Tree} {d : Declaration}
    (h : Item.ofTree source node = .ok (.declaration d)) :
    ∃ extent children, node = .node .declaration (some extent) children := by
  obtain ⟨extent, children, ⟨-, h⟩ | ⟨-, h⟩ | ⟨d', rfl, -⟩⟩ := ofTree_cases h
  · obtain ⟨path, -, hitem⟩ := Option.bind_eq_some_iff.mp h
    cases hitem
  · obtain ⟨origin, -, hitem⟩ := Option.bind_eq_some_iff.mp h
    obtain ⟨names, -, hitem⟩ := Option.bind_eq_some_iff.mp hitem
    cases hitem
  · exact ⟨extent, children, rfl⟩

/-- The node of a declaration is read as what its children are read as. -/
theorem ofTree_declaration_iff {source : List Char} {extent : Extent} {children : List Tree}
    {d : Declaration} :
    Item.ofTree source (.node .declaration (some extent) children) = .ok (.declaration d) ↔
      declaration? source extent children = some d := by
  show completed (Item.declaration <$> declaration? source extent children) = _ ↔ _
  cases declaration? source extent children <;> simp [completed]

/-- How a declaration is read, part by part. -/
theorem declaration?_eq_some_iff {source : List Char} {extent : Extent} {children : List Tree}
    {d : Declaration} :
    declaration? source extent children = some d ↔
      (∃ e others,
        (Tree.nodes .declarationKind children).head? = some (e, .leaf d.kind :: others)) ∧
      (Tree.tokens .name children).head? = some d.name ∧
      outerAttributes? children = some d.attributes ∧
      body? source children = some d.body ∧
      d.innerAttributes = Tree.spansWithin.spansWithinAll .innerAttribute children ∧
      d.span = extent.span := by
  unfold declaration?
  simp only [Option.bind_eq_bind, Option.bind_eq_some_iff]
  constructor
  · rintro ⟨⟨e, word⟩, hkind, h⟩
    dsimp only at h
    split at h
    · next token others =>
      simp only [Option.bind_some, Option.bind_eq_some_iff] at h
      obtain ⟨name, hname, attributes, hattributes, body, hbody, heq⟩ := h
      cases heq
      exact ⟨⟨e, others, hkind⟩, hname, hattributes, hbody, rfl, rfl⟩
    · cases h
  · rintro ⟨⟨e, others, hkind⟩, hname, hattributes, hbody, hinner, hspan⟩
    refine ⟨_, hkind, ?_⟩
    simp only [Option.bind_some, Option.bind_eq_some_iff]
    refine ⟨_, hname, _, hattributes, _, hbody, ?_⟩
    rw [← hinner, ← hspan]
    rfl

/-! ### What stands around the variants -/

/-- What stands around the variants of a declaration with a body in braces. -/
structure Surround where
  /-- What stands before the body. -/
  before : List Tree
  /-- What stands after the body. -/
  after : List Tree
  /-- There is no body in parentheses. -/
  noParenBody : Tree.nodes .parenBody (before ++ after) = []
  /-- The body is the first in braces. -/
  noBraceBody : Tree.nodes .braceBody before = []

namespace Surround

/-- The children of the node of a declaration with the given trees in its body. -/
def children (s : Surround) (bodyExtent : Option Extent) (inside : List Tree) : List Tree :=
  s.before ++ .node .braceBody bodyExtent inside :: s.after

/-- The node of a declaration with the given trees in its body. -/
def tree (s : Surround) (extent : Extent) (bodyExtent : Option Extent) (inside : List Tree) :
    Tree :=
  .node .declaration (some extent) (s.children bodyExtent inside)

variable (s : Surround) (bodyExtent : Option Extent) (inside : List Tree)

/-- The nodes of another kind than the body stand around it. -/
theorem nodes_children {kind : Kind} (h : Kind.braceBody ≠ kind) :
    Tree.nodes kind (s.children bodyExtent inside) = Tree.nodes kind (s.before ++ s.after) := by
  rw [children, Tree.nodes_append, Tree.nodes_append, Tree.nodes_cons_of_ne h]

/-- The tokens stand around the body. -/
theorem tokens_children (terminal : Terminal) :
    Tree.tokens terminal (s.children bodyExtent inside) =
      Tree.tokens terminal (s.before ++ s.after) := by
  rw [children, Tree.tokens_append, Tree.tokens_append, Tree.tokens_cons_node]

/-- The body is read off the trees in it. -/
theorem body?_children (source : List Char) :
    body? source (s.children bodyExtent inside) =
      Body.variants <$> (Tree.nodes .member inside).mapM (variant? source) := by
  have hbrace : Tree.nodes .braceBody (s.children bodyExtent inside) =
      (bodyExtent, inside) :: Tree.nodes .braceBody s.after := by
    rw [children, Tree.nodes_append, s.noBraceBody, Tree.nodes_cons_self, List.nil_append]
  rw [body?, s.nodes_children bodyExtent inside (by decide), s.noParenBody, hbrace]

/-- The inner attributes of a declaration stand before its body, in it or after it. -/
theorem spansWithinAll_children :
    Tree.spansWithin.spansWithinAll .innerAttribute (s.children bodyExtent inside) =
      Tree.spansWithin.spansWithinAll .innerAttribute s.before ++
        (Tree.spansWithin.spansWithinAll .innerAttribute inside ++
          Tree.spansWithin.spansWithinAll .innerAttribute s.after) := by
  rw [children, Tree.spansWithinAll_append]
  show _ ++ (Tree.spansWithin .innerAttribute (.node .braceBody bodyExtent inside) ++ _) = _
  rw [Tree.spansWithin_of_ne (by decide)]

/-- What is read around the variants of a declaration: its kind, its name and its attributes. -/
structure Reads (kind name : Token) (attributes : List Attribute) : Prop where
  /-- The kind is a token of its own. -/
  kind : ∃ extent others,
    (Tree.nodes .declarationKind (s.before ++ s.after)).head? = some (extent, .leaf kind :: others)
  /-- The name is the first there is. -/
  name : (Tree.tokens .name (s.before ++ s.after)).head? = some name
  /-- The attributes are read in order. -/
  attributes : outerAttributes? (s.before ++ s.after) = some attributes

/-- **How the node of a declaration is read**: the kind, the name and the attributes around the
variants, and the variants. -/
theorem ofTree_tree_iff {source : List Char} {extent : Extent} {d : Declaration} :
    Item.ofTree source (s.tree extent bodyExtent inside) = .ok (.declaration d) ↔
      s.Reads d.kind d.name d.attributes ∧
        (∃ vs, (Tree.nodes .member inside).mapM (variant? source) = some vs ∧
          d.body = .variants vs) ∧
        d.innerAttributes =
          Tree.spansWithin.spansWithinAll .innerAttribute (s.children bodyExtent inside) ∧
        d.span = extent.span := by
  have hattributes : outerAttributes? (s.children bodyExtent inside) =
      outerAttributes? (s.before ++ s.after) := by
    rw [outerAttributes?, outerAttributes?, s.nodes_children bodyExtent inside (by decide)]
  have hbody : body? source (s.children bodyExtent inside) = some d.body ↔
      ∃ vs, (Tree.nodes .member inside).mapM (variant? source) = some vs ∧
        d.body = .variants vs := by
    rw [s.body?_children, Option.map_eq_map, Option.map_eq_some_iff]
    exact exists_congr fun vs => and_congr_right' eq_comm
  rw [tree, ofTree_declaration_iff, declaration?_eq_some_iff, hbody, hattributes,
    s.nodes_children bodyExtent inside (by decide), s.tokens_children]
  constructor
  · rintro ⟨hkind, hname, hattributes, hvariants, hinner, hspan⟩
    exact ⟨⟨hkind, hname, hattributes⟩, hvariants, hinner, hspan⟩
  · rintro ⟨⟨hkind, hname, hattributes⟩, hvariants, hinner, hspan⟩
    exact ⟨hkind, hname, hattributes, hvariants, hinner, hspan⟩

/-- **Other variants in the same place**: if there are no inner attributes, nothing else is read
differently but where the declaration ends. -/
theorem ofTree_of_inside {source source' : List Char} {extent extent' : Extent}
    {bodyExtent' : Option Extent} {inside' : List Tree} {vs' : List Variant} {d : Declaration}
    (h : Item.ofTree source (s.tree extent bodyExtent inside) = .ok (.declaration d))
    (hinner : d.innerAttributes = [])
    (hread : (Tree.nodes .member inside').mapM (variant? source') = some vs')
    (hinner' : Tree.spansWithin.spansWithinAll .innerAttribute inside' = []) :
    Item.ofTree source' (s.tree extent' bodyExtent' inside') =
      .ok (.declaration { d with body := .variants vs', span := extent'.span }) := by
  obtain ⟨hreads, -, hnone, -⟩ := (s.ofTree_tree_iff bodyExtent inside).mp h
  rw [hinner, s.spansWithinAll_children] at hnone
  obtain ⟨hbefore, hrest⟩ := List.append_eq_nil_iff.mp hnone.symm
  obtain ⟨-, hafter⟩ := List.append_eq_nil_iff.mp hrest
  refine (s.ofTree_tree_iff bodyExtent' inside').mpr ⟨hreads, ⟨vs', hread, rfl⟩, ?_, rfl⟩
  rw [s.spansWithinAll_children, hbefore, hinner', hafter]
  exact hinner

end Surround

/-- **Every declaration with a body in braces** is the node of its variants and of what stands
around them. -/
theorem exists_surround {source : List Char} {node : Tree} {d : Declaration} {vs : List Variant}
    (h : Item.ofTree source node = .ok (.declaration d)) (hvariants : d.body = .variants vs) :
    ∃ (s : Surround) (extent : Extent) (bodyExtent : Option Extent) (inside : List Tree),
      node = s.tree extent bodyExtent inside := by
  obtain ⟨extent, children, rfl⟩ := exists_node_of_declaration h
  rw [ofTree_declaration_iff, declaration?_eq_some_iff] at h
  obtain ⟨-, -, -, hbody, -, -⟩ := h
  rw [hvariants] at hbody
  unfold body? at hbody
  split at hbody
  · cases hbody
  · next bodyExtent inside others hparen hbrace =>
    obtain ⟨before, body, after, rfl, hbefore, hfound, -⟩ := List.filterMap_eq_cons_iff.mp hbrace
    obtain rfl : body = .node .braceBody bodyExtent inside := by
      cases body with
      | leaf token => cases hfound
      | node kind extent children =>
        obtain ⟨rfl, rfl, rfl⟩ : kind = .braceBody ∧ extent = bodyExtent ∧ children = inside := by
          simpa using hfound
        rfl
    have hnoParen : Tree.nodes .parenBody (before ++ after) = [] := by
      rw [Tree.nodes_append, Tree.nodes_cons_of_ne (by decide), ← Tree.nodes_append] at hparen
      exact hparen
    exact ⟨⟨before, after, hnoParen, List.filterMap_eq_nil_iff.mpr hbefore⟩, extent, bodyExtent,
      inside, rfl⟩
  · cases hbody

end Errata.Syntax
