import Errata.Proofs.Syntax.Declaration
import Errata.Proofs.Syntax.Displacement
import Errata.Proofs.Syntax.Surround

/-!
# What items say

What an item says does not depend on where its parts stand. If the extents of a parse tree are
moved, and a type is the same at its new place in another source, then the same items are read.

* `Item.bare`: what an item says, wherever it stands.
* `Tree.typeExtents`: where the types of the fields of a file stand.
* **`exists_fileItems_displace`**: the items of a tree that is moved say what those of the tree say.
-/

namespace Errata

/-- The span that stands for any span. -/
def Span.blank : Span := ⟨0, 0, 0, 0⟩

namespace Syntax

/-! ### Items without places -/

/-- What a token says. -/
def Token.bare (t : Token) : Token :=
  { t with extent := ⟨{}, {}⟩ }

/-- What an attribute says. -/
def Attribute.bare (a : Attribute) : Attribute :=
  { a with literal := a.literal.map Token.bare, span := .blank }

section Bare

variable (view : String → String)

/-- What a field says, as far as a view of types shows it. -/
def Field.bare (f : Field) : Field where
  attributes := f.attributes.map Attribute.bare
  name := f.name.bare
  type := f.type.map view
  span := .blank

/-- What follows the name of a variant. -/
def Shape.bare : Shape → Shape
  | named fields => named (fields.map (Field.bare view))
  | unit => unit
  | typed => typed
  | positional => positional

/-- What a variant says. -/
def Variant.bare (v : Variant) : Variant where
  attributes := v.attributes.map Attribute.bare
  name := v.name.bare
  shape := v.shape.bare view
  span := .blank

/-- What a body says. -/
def Body.bare : Body → Body
  | variants vs => variants (vs.map (Variant.bare view))
  | empty => empty
  | positional => positional

/-- What a declaration says. -/
def Declaration.bare (d : Declaration) : Declaration where
  kind := d.kind.bare
  name := d.name.bare
  attributes := d.attributes.map Attribute.bare
  innerAttributes := d.innerAttributes.map fun _ => .blank
  body := d.body.bare view
  span := .blank

/-- What an item says. -/
def Item.bare : Item → Item
  | importModule path newName _ => importModule path newName .blank
  | importNames dots path names _ => importNames dots path names .blank
  | declaration d => declaration (d.bare view)

end Bare

/-! ### Trees that are moved -/

variable (m : Displacement)

/-- The extent and the children of a node that is moved. -/
def displaceNode (node : Option Extent × List Tree) : Option Extent × List Tree :=
  (node.1.map (Extent.displace m), node.2.map (Tree.displace m))

/-- The tokens among trees that are moved. -/
theorem Tree.tokens_displace (terminal : Terminal) (trees : List Tree) :
    tokens terminal (trees.map (displace m)) = (tokens terminal trees).map (Token.displace m) := by
  induction trees with
  | nil => rfl
  | cons tree trees ih =>
    cases tree with
    | leaf t =>
      by_cases h : t.terminal = terminal <;> simp_all [tokens]
    | node kind extent children => simpa [tokens] using ih

/-- The names among trees that are moved. -/
theorem Tree.names_displace (trees : List Tree) : names (trees.map (displace m)) = names trees := by
  rw [names, tokens_displace, List.map_map]
  rfl

/-- The nodes of a kind among trees that are moved. -/
theorem Tree.nodes_displace (kind : Kind) (trees : List Tree) :
    nodes kind (trees.map (displace m)) = (nodes kind trees).map (displaceNode m) := by
  induction trees with
  | nil => rfl
  | cons tree trees ih =>
    cases tree with
    | leaf t => simpa [nodes] using ih
    | node k extent children =>
      by_cases h : k = kind <;> simp_all [nodes, displaceNode]

mutual

/-- There are as many nodes of a kind in a tree that is moved. -/
theorem Tree.length_spansWithin_displace (kind : Kind) :
    ∀ tree : Tree, (spansWithin kind (tree.displace m)).length = (spansWithin kind tree).length
  | .leaf t => rfl
  | .node k extent children => by
    have hinside := length_spansWithinAll_displace kind children
    rw [displace_node]
    cases extent with
    | none => simpa [spansWithin] using hinside
    | some e => by_cases hk : k = kind <;> simpa [spansWithin, hk] using hinside

/-- There are as many nodes of a kind in trees that are moved. -/
theorem Tree.length_spansWithinAll_displace (kind : Kind) :
    ∀ trees : List Tree, (spansWithin.spansWithinAll kind (trees.map (displace m))).length =
      (spansWithin.spansWithinAll kind trees).length
  | [] => rfl
  | tree :: trees => by
    rw [List.map_cons, spansWithin.spansWithinAll, spansWithin.spansWithinAll, List.length_append,
      List.length_append, length_spansWithin_displace kind tree,
      length_spansWithinAll_displace kind trees]

end

/-! ### Where types stand -/

/-- Where the type of a field stands, from the children of its node. -/
def fieldTypes (children : List Tree) : List Extent :=
  match Tree.nodes .fieldType children with
  | (_, .node _ (some extent) _ :: _) :: _ => [extent]
  | _ => []

/-- Where types stand in the members of the first of the bodies in braces. -/
def memberTypes (types : List Tree → List Extent) : List (Option Extent × List Tree) → List Extent
  | (_, body) :: _ => (Tree.nodes .member body).flatMap fun member => types member.2
  | [] => []

/-- Where the types of the fields of a variant stand, from the children of its node. -/
def shapeTypes (children : List Tree) : List Extent :=
  match Tree.nodes .parenBody children, Tree.nodes .fieldType children with
  | [], [] => memberTypes fieldTypes (Tree.nodes .braceBody children)
  | _, _ => []

/-- Where the types in a declaration stand, from the children of its node. -/
def bodyTypes (children : List Tree) : List Extent :=
  match Tree.nodes .parenBody children with
  | [] => memberTypes shapeTypes (Tree.nodes .braceBody children)
  | _ => []

/-- Where the types of the fields of all variants in a file stand. -/
def Tree.typeExtents : Tree → List Extent
  | node .file _ trees => (nodes .declaration trees).flatMap fun d => bodyTypes d.2
  | _ => []

/-- Where the type of a field stands that is moved. -/
theorem fieldTypes_displace (children : List Tree) :
    fieldTypes (children.map (Tree.displace m)) =
      (fieldTypes children).map (Extent.displace m) := by
  unfold fieldTypes
  rw [Tree.nodes_displace]
  rcases Tree.nodes .fieldType children with _ | ⟨⟨extent, inside⟩, rest⟩
  · rfl
  · rcases inside with _ | ⟨t | ⟨kind, _ | e, inner⟩, others⟩ <;> simp [displaceNode]

/-- Where types stand in the members of a body that is moved. -/
theorem memberTypes_displace {types : List Tree → List Extent}
    (h : ∀ children, types (children.map (Tree.displace m)) =
      (types children).map (Extent.displace m)) (bodies : List (Option Extent × List Tree)) :
    memberTypes types (bodies.map (displaceNode m)) =
      (memberTypes types bodies).map (Extent.displace m) := by
  cases bodies with
  | nil => rfl
  | cons body rest =>
    simp only [List.map_cons, memberTypes, displaceNode, Tree.nodes_displace, List.flatMap_map, h,
      List.map_flatMap]

/-- Where types stand in a variant that is moved. -/
theorem shapeTypes_displace (children : List Tree) :
    shapeTypes (children.map (Tree.displace m)) =
      (shapeTypes children).map (Extent.displace m) := by
  unfold shapeTypes
  rw [Tree.nodes_displace, Tree.nodes_displace, Tree.nodes_displace]
  cases Tree.nodes .parenBody children with
  | cons node rest => rfl
  | nil =>
    cases Tree.nodes .fieldType children with
    | cons node rest => rfl
    | nil => exact memberTypes_displace m (fieldTypes_displace m) _

/-- Where types stand in a declaration that is moved. -/
theorem bodyTypes_displace (children : List Tree) :
    bodyTypes (children.map (Tree.displace m)) =
      (bodyTypes children).map (Extent.displace m) := by
  unfold bodyTypes
  rw [Tree.nodes_displace, Tree.nodes_displace]
  cases Tree.nodes .parenBody children with
  | cons node rest => rfl
  | nil => exact memberTypes_displace m (shapeTypes_displace m) _

/-- Where types stand in a file that is moved. -/
theorem Tree.typeExtents_displace (tree : Tree) :
    (tree.displace m).typeExtents = tree.typeExtents.map (Extent.displace m) := by
  cases tree with
  | leaf t => rfl
  | node kind extent children =>
    rw [displace_node]
    cases kind with
    | file =>
      simp only [typeExtents, nodes_displace, List.flatMap_map, List.map_flatMap, displaceNode,
        bodyTypes_displace]
    | _ => rfl

/-! ### Reading trees that are moved -/

/-- What is read from the entries of a list that are changed, if what is read from each says the
same. -/
theorem exists_mapM_map {α β γ : Type} {f f' : α → Option β} {move : α → α} {say : β → γ}
    {as : List α} (h : ∀ a ∈ as, ∀ b, f a = some b → ∃ b', f' (move a) = some b' ∧ say b' = say b)
    {bs : List β} (hbs : as.mapM f = some bs) :
    ∃ bs', (as.map move).mapM f' = some bs' ∧ bs'.map say = bs.map say := by
  induction as generalizing bs with
  | nil =>
    cases hbs
    exact ⟨[], rfl, rfl⟩
  | cons a as ih =>
    rw [List.mapM_cons] at hbs
    obtain ⟨b, hb, hbs⟩ := Option.bind_eq_some_iff.mp hbs
    obtain ⟨rest, hrest, hbs⟩ := Option.bind_eq_some_iff.mp hbs
    cases hbs
    rw [List.forall_mem_cons] at h
    obtain ⟨b', hb', hsay⟩ := h.1 b hb
    obtain ⟨rest', hrest', hsays⟩ := ih h.2 hrest
    exact ⟨b' :: rest', by simp [hb', hrest'], by rw [List.map_cons, List.map_cons, hsay, hsays]⟩

/-- The literal of an attribute, from its form and what is inside. -/
def literal? (form : Kind) (inside : List Tree) : Option Token :=
  if form = .metaNameValue then
    match inside.drop 1 with
    | .leaf t :: _ => if t.terminal = .string then some t else none
    | _ => none
  else none

/-- An attribute is read from its path and its literal. -/
theorem attribute?_eq_some_iff {node : Option Extent × List Tree} {a : Attribute} :
    attribute? node = some a ↔
      ∃ e form formExtent inside rest path, node = (some e, .node form formExtent inside :: rest) ∧
        (Tree.nodes .path (inside.take 1)).head? = some path ∧
        a = ⟨"::".intercalate (Tree.names path.2), literal? form inside, e.span⟩ := by
  constructor
  · intro h
    unfold attribute? at h
    split at h
    · next e form formExtent inside rest =>
      obtain ⟨path, hpath, h⟩ := Option.bind_eq_some_iff.mp h
      cases h
      exact ⟨e, form, formExtent, inside, rest, path, rfl, hpath, rfl⟩
    · cases h
  · rintro ⟨e, form, formExtent, inside, rest, path, rfl, hpath, rfl⟩
    rw [attribute?, hpath]
    rfl

/-- The literal of an attribute that is moved. -/
theorem literal?_displace (form : Kind) (inside : List Tree) :
    literal? form (inside.map (Tree.displace m)) =
      (literal? form inside).map (Token.displace m) := by
  unfold literal?
  split
  · rw [← List.map_drop]
    cases inside.drop 1 with
    | nil => rfl
    | cons tree rest =>
      cases tree with
      | node kind extent children => simp
      | leaf t => by_cases ht : t.terminal = .string <;> simp [ht]
  · rfl

/-- An attribute that is moved says the same. -/
theorem exists_attribute_displace {node : Option Extent × List Tree} {a : Attribute}
    (h : attribute? node = some a) :
    ∃ a', attribute? (displaceNode m node) = some a' ∧ a'.bare = a.bare := by
  obtain ⟨e, form, formExtent, inside, rest, path, rfl, hpath, rfl⟩ :=
    attribute?_eq_some_iff.mp h
  refine ⟨_, attribute?_eq_some_iff.mpr ⟨e.displace m, form, formExtent.map (Extent.displace m),
    inside.map (Tree.displace m), rest.map (Tree.displace m), displaceNode m path, ?_, ?_, rfl⟩, ?_⟩
  · simp only [displaceNode, List.map_cons, Tree.displace_node, Option.map_some]
  · rw [← List.map_take, Tree.nodes_displace, List.head?_map, hpath]
    rfl
  · simp only [Attribute.bare, displaceNode, Tree.names_displace, literal?_displace,
      Option.map_map]
    rfl

/-- Attributes that are moved say the same. -/
theorem exists_outerAttributes_displace {trees : List Tree} {as : List Attribute}
    (h : outerAttributes? trees = some as) :
    ∃ as', outerAttributes? (trees.map (Tree.displace m)) = some as' ∧
      as'.map Attribute.bare = as.map Attribute.bare := by
  unfold outerAttributes?
  rw [Tree.nodes_displace]
  exact exists_mapM_map (fun _ _ _ ha => exists_attribute_displace m ha) h

section Declarations

variable {view : String → String} {source source' : List Char}

/-- Whether the types at some extents show the same in a source as in another one to which they are
moved. -/
def ShowsAt (m : Displacement) (view : String → String) (source source' : List Char)
    (extents : List Extent) : Prop :=
  ∀ e ∈ extents, view (typeText source' (e.displace m)) = view (typeText source e)

variable {m}

/-- The name of a node that is moved. -/
theorem exists_name_displace {children : List Tree} {name : Token}
    (h : (Tree.tokens .name children).head? = some name) :
    (Tree.tokens .name (children.map (Tree.displace m))).head? = some (name.displace m) := by
  rw [Tree.tokens_displace, List.head?_map, h]
  rfl

/-- The type of a field, from the children of its node. -/
def type? (source : List Char) (children : List Tree) : Option (Option String) :=
  match Tree.nodes .fieldType children with
  | [] => some none
  | (_, inside) :: _ =>
    match inside with
    | .node _ (some extent) _ :: _ => some (some (typeText source extent))
    | _ => none

/-- A field is read from its attributes, its name and its type. -/
theorem field?_eq_some_iff {node : Option Extent × List Tree} {f : Field} :
    field? source node = some f ↔
      ∃ e as name type, node.1 = some e ∧ outerAttributes? node.2 = some as ∧
        (Tree.tokens .name node.2).head? = some name ∧ type? source node.2 = some type ∧
          f = ⟨as, name, type, e.span⟩ := by
  obtain ⟨extent, children⟩ := node
  cases extent with
  | none => simp [field?]
  | some e =>
    have hread : field? source (some e, children) =
        (outerAttributes? children).bind fun as =>
          (Tree.tokens .name children).head?.bind fun name =>
            (type? source children).bind fun type => some ⟨as, name, type, e.span⟩ := by
      simp only [field?, type?]
      cases Tree.nodes .fieldType children with
      | nil => rfl
      | cons p rest =>
        obtain ⟨_, inside⟩ := p
        cases inside with
        | nil => rfl
        | cons tree more =>
          cases tree with
          | leaf t => rfl
          | node kind extent children => cases extent <;> rfl
    simp only [hread, Option.bind_eq_some_iff, Option.some.injEq]
    constructor
    · rintro ⟨as, has, name, hname, type, htype, rfl⟩
      exact ⟨e, as, name, type, rfl, has, hname, htype, rfl⟩
    · rintro ⟨_, as, name, type, rfl, has, hname, htype, rfl⟩
      exact ⟨as, has, name, hname, type, htype, rfl⟩

/-- The type of a field that is moved shows the same if its text does. -/
theorem exists_type_displace {children : List Tree}
    (hshows : ShowsAt m view source source' (fieldTypes children)) {type : Option String}
    (h : type? source children = some type) :
    ∃ type', type? source' (children.map (Tree.displace m)) = some type' ∧
      type'.map view = type.map view := by
  unfold type? at h ⊢
  unfold fieldTypes at hshows
  rw [Tree.nodes_displace]
  split at h
  · next hnone =>
    cases h
    rw [hnone]
    exact ⟨none, rfl, rfl⟩
  · next fieldExtent inside rest hsome =>
    rw [hsome] at hshows ⊢
    split at h
    · next kind extent children' more =>
      cases h
      refine ⟨some (typeText source' (extent.displace m)), ?_, ?_⟩
      · simp [displaceNode]
      · exact congrArg some (hshows extent (List.mem_singleton_self extent))
    · cases h

/-- A field that is moved says the same if its type shows the same. -/
theorem exists_field_displace {node : Option Extent × List Tree}
    (hshows : ShowsAt m view source source' (fieldTypes node.2)) {f : Field}
    (h : field? source node = some f) :
    ∃ f', field? source' (displaceNode m node) = some f' ∧ f'.bare view = f.bare view := by
  obtain ⟨e, as, name, type, he, has, hname, htype, rfl⟩ := field?_eq_some_iff.mp h
  obtain ⟨as', has', hbare⟩ := exists_outerAttributes_displace m has
  obtain ⟨type', htype', hview⟩ := exists_type_displace hshows htype
  refine ⟨⟨as', name.displace m, type', (e.displace m).span⟩, field?_eq_some_iff.mpr
    ⟨e.displace m, as', _, type', ?_, has', exists_name_displace hname, htype', rfl⟩, ?_⟩
  · rw [displaceNode, he]
    rfl
  · simp only [Field.bare, hbare, hview]
    rfl

/-- The members of a body that is moved say the same if the types in them show the same. -/
theorem exists_members_displace {α β : Type} {read read' : Option Extent × List Tree → Option α}
    {say : α → β} {types : List Tree → List Extent}
    (hread : ∀ {node : Option Extent × List Tree},
      ShowsAt m view source source' (types node.2) → ∀ {a}, read node = some a →
        ∃ a', read' (displaceNode m node) = some a' ∧ say a' = say a)
    {bodyExtent : Option Extent} {body : List Tree} {rest : List (Option Extent × List Tree)}
    (hshows : ShowsAt m view source source' (memberTypes types ((bodyExtent, body) :: rest)))
    {as : List α} (h : (Tree.nodes .member body).mapM read = some as) :
    ∃ as', (Tree.nodes .member (body.map (Tree.displace m))).mapM read' = some as' ∧
      as'.map say = as.map say := by
  rw [Tree.nodes_displace]
  refine exists_mapM_map (fun node hnode a ha => hread (fun e he => ?_) ha) h
  exact hshows e (List.mem_flatMap.mpr ⟨node, hnode, he⟩)

/-- What follows the name of a variant that is moved says the same. -/
theorem exists_shape_displace {children : List Tree}
    (hshows : ShowsAt m view source source' (shapeTypes children)) {shape : Shape}
    (h : shape? source children = some shape) :
    ∃ shape', shape? source' (children.map (Tree.displace m)) = some shape' ∧
      shape'.bare view = shape.bare view := by
  unfold shape? at h ⊢
  rw [Tree.nodes_displace, Tree.nodes_displace, Tree.nodes_displace]
  split at h
  · next hparen =>
    cases h
    rw [hparen]
    exact ⟨.positional, rfl, rfl⟩
  · next hparen htype =>
    cases h
    rw [hparen, htype]
    exact ⟨.typed, rfl, rfl⟩
  · next bodyExtent body rest hparen htype hbody =>
    obtain ⟨fields, hfields, rfl⟩ := Option.map_eq_some_iff.mp h
    unfold shapeTypes at hshows
    rw [hparen, htype, hbody] at hshows
    obtain ⟨fields', hfields', hsay⟩ :=
      exists_members_displace exists_field_displace hshows hfields
    rw [hparen, htype, hbody]
    refine ⟨.named fields', ?_, congrArg Shape.named hsay⟩
    exact Option.map_eq_some_iff.mpr ⟨fields', hfields', rfl⟩
  · next hparen htype hbody =>
    cases h
    rw [hparen, htype, hbody]
    exact ⟨.unit, rfl, rfl⟩

/-- A variant is read from its attributes, its name and what follows the name. -/
theorem variant?_eq_some_iff {node : Option Extent × List Tree} {v : Variant} :
    variant? source node = some v ↔
      ∃ e as name shape, node.1 = some e ∧ outerAttributes? node.2 = some as ∧
        (Tree.tokens .name node.2).head? = some name ∧ shape? source node.2 = some shape ∧
          v = ⟨as, name, shape, e.span⟩ := by
  obtain ⟨extent, children⟩ := node
  cases extent with
  | none => simp [variant?]
  | some e =>
    simp only [variant?, Option.bind_eq_bind, Option.bind_eq_some_iff, Option.pure_def,
      Option.some.injEq]
    constructor
    · rintro ⟨as, has, name, hname, shape, hshape, rfl⟩
      exact ⟨e, as, name, shape, rfl, has, hname, hshape, rfl⟩
    · rintro ⟨_, as, name, shape, rfl, has, hname, hshape, rfl⟩
      exact ⟨as, has, name, hname, shape, hshape, rfl⟩

/-- A variant that is moved says the same if the types in it show the same. -/
theorem exists_variant_displace {node : Option Extent × List Tree}
    (hshows : ShowsAt m view source source' (shapeTypes node.2)) {v : Variant}
    (h : variant? source node = some v) :
    ∃ v', variant? source' (displaceNode m node) = some v' ∧ v'.bare view = v.bare view := by
  obtain ⟨e, as, name, shape, he, has, hname, hshape, rfl⟩ := variant?_eq_some_iff.mp h
  obtain ⟨as', has', hbare⟩ := exists_outerAttributes_displace m has
  obtain ⟨shape', hshape', hsay⟩ := exists_shape_displace hshows hshape
  refine ⟨⟨as', name.displace m, shape', (e.displace m).span⟩, variant?_eq_some_iff.mpr
    ⟨e.displace m, as', _, shape', ?_, has', exists_name_displace hname, hshape', rfl⟩, ?_⟩
  · rw [displaceNode, he]
    rfl
  · simp only [Variant.bare, hbare, hsay]
    rfl

/-- The body of a declaration that is moved says the same if the types in it show the same. -/
theorem exists_body_displace {children : List Tree}
    (hshows : ShowsAt m view source source' (bodyTypes children))
    {body : Body} (h : body? source children = some body) :
    ∃ body', body? source' (children.map (Tree.displace m)) = some body' ∧
      body'.bare view = body.bare view := by
  unfold body? at h ⊢
  rw [Tree.nodes_displace, Tree.nodes_displace]
  split at h
  · next hparen =>
    cases h
    rw [hparen]
    exact ⟨.positional, rfl, rfl⟩
  · next bodyExtent body rest hparen hbody =>
    obtain ⟨vs, hvs, rfl⟩ := Option.map_eq_some_iff.mp h
    unfold bodyTypes at hshows
    rw [hparen, hbody] at hshows
    obtain ⟨vs', hvs', hsay⟩ := exists_members_displace exists_variant_displace hshows hvs
    rw [hparen, hbody]
    refine ⟨.variants vs', ?_, congrArg Body.variants hsay⟩
    exact Option.map_eq_some_iff.mpr ⟨vs', hvs', rfl⟩
  · next hparen hbody =>
    cases h
    rw [hparen, hbody]
    exact ⟨.empty, rfl, rfl⟩

/-- A declaration that is moved says the same if the types in it show the same. -/
theorem exists_declaration_displace {e : Extent} {children : List Tree}
    (hshows : ShowsAt m view source source' (bodyTypes children))
    {d : Declaration} (h : declaration? source e children = some d) :
    ∃ d', declaration? source' (e.displace m) (children.map (Tree.displace m)) = some d' ∧
      d'.bare view = d.bare view := by
  obtain ⟨⟨kindExtent, others, hkind⟩, hname, has, hbody, hinner, hspan⟩ :=
    declaration?_eq_some_iff.mp h
  obtain ⟨as', has', hbare⟩ := exists_outerAttributes_displace m has
  obtain ⟨body', hbody', hsay⟩ := exists_body_displace hshows hbody
  have hkind' : (Tree.nodes .declarationKind (children.map (Tree.displace m))).head? =
      some (kindExtent.map (Extent.displace m),
        .leaf (d.kind.displace m) :: others.map (Tree.displace m)) := by
    rw [Tree.nodes_displace, List.head?_map, hkind]
    simp [displaceNode]
  have hlength := Tree.length_spansWithinAll_displace m .innerAttribute children
  refine ⟨⟨d.kind.displace m, d.name.displace m, as', _, body', (e.displace m).span⟩,
    declaration?_eq_some_iff.mpr
      ⟨⟨_, _, hkind'⟩, exists_name_displace hname, has', hbody', rfl, rfl⟩, ?_⟩
  simp only [Declaration.bare, hbare, hsay, hinner, List.map_const', hlength]
  rfl

/-! ### Items -/

/-- The import of a module that is moved says the same. -/
theorem exists_importModule_displace {e : Extent} {children : List Tree} {item : Item}
    (h : importModule? e children = some item) :
    ∃ item', importModule? (e.displace m) (children.map (Tree.displace m)) = some item' ∧
      item'.bare view = item.bare view := by
  obtain ⟨⟨pathExtent, path⟩, hpath, h⟩ := Option.bind_eq_some_iff.mp h
  cases h
  refine ⟨.importModule (Tree.names path) (Tree.names children).head? (e.displace m).span, ?_, rfl⟩
  rw [importModule?, Tree.nodes_displace, List.head?_map, hpath, Tree.names_displace]
  simp [displaceNode, Tree.names_displace]

/-- The import of names that is moved says the same. -/
theorem exists_importNames_displace {e : Extent} {children : List Tree} {item : Item}
    (h : importNames? e children = some item) :
    ∃ item', importNames? (e.displace m) (children.map (Tree.displace m)) = some item' ∧
      item'.bare view = item.bare view := by
  obtain ⟨⟨originExtent, origin⟩, horigin, h⟩ := Option.bind_eq_some_iff.mp h
  obtain ⟨names, hnames, h⟩ := Option.bind_eq_some_iff.mp h
  cases h
  have hsame : (fun p => importedName? p.2) ∘ displaceNode m = fun p => importedName? p.2 := by
    funext p
    simp only [Function.comp_def, displaceNode, importedName?, Tree.names_displace]
  have hdots : (Tree.tokens .relative (origin.map (Tree.displace m))).head?.map
      (fun t => String.ofList t.text) =
        (Tree.tokens .relative origin).head?.map fun t => String.ofList t.text := by
    rw [Tree.tokens_displace, List.head?_map, Option.map_map]
    rfl
  have hpath : (Tree.nodes .dottedName (origin.map (Tree.displace m))).head?.map
      (fun p => Tree.names p.2) =
        (Tree.nodes .dottedName origin).head?.map fun p => Tree.names p.2 := by
    rw [Tree.nodes_displace, List.head?_map, Option.map_map]
    simp only [Function.comp_def, displaceNode, Tree.names_displace]
  refine ⟨.importNames
    (((Tree.tokens .relative origin).head?.map fun t => String.ofList t.text).getD "")
    (((Tree.nodes .dottedName origin).head?.map fun p => Tree.names p.2).getD [])
    names (e.displace m).span, ?_, rfl⟩
  rw [← hdots, ← hpath]
  refine Option.bind_eq_some_iff.mpr ⟨displaceNode m (originExtent, origin), ?_,
    Option.bind_eq_some_iff.mpr ⟨names, ?_, rfl⟩⟩
  · rw [Tree.nodes_displace, List.head?_map, horigin]
    rfl
  · rw [Tree.nodes_displace, List.mapM_map]
    exact (congrArg (fun f => (Tree.nodes .importAlias children).mapM f) hsame).trans hnames

/-- An item that is moved says the same if the types in it show the same. -/
theorem exists_item_displace {tree : Tree} {item : Item}
    (hshows : ∀ node ∈ Tree.nodes .declaration [tree],
      ShowsAt m view source source' (bodyTypes node.2))
    (h : Item.ofTree source tree = .ok item) :
    ∃ item', Item.ofTree source' (tree.displace m) = .ok item' ∧
      item'.bare view = item.bare view := by
  obtain ⟨e, children, ⟨rfl, hread⟩ | ⟨rfl, hread⟩ | ⟨d, rfl, hd, rfl⟩⟩ := ofTree_cases h
  · obtain ⟨item', hitem', hsay⟩ := exists_importModule_displace hread
    exact ⟨item', by rw [Tree.displace_node]; exact completed_eq_ok_iff.mpr hitem', hsay⟩
  · obtain ⟨item', hitem', hsay⟩ := exists_importNames_displace hread
    exact ⟨item', by rw [Tree.displace_node]; exact completed_eq_ok_iff.mpr hitem', hsay⟩
  · obtain ⟨d', hd', hsay⟩ := exists_declaration_displace
      (hshows (some e, children) (by simp [Tree.nodes])) hd
    refine ⟨.declaration d', ?_, congrArg Item.declaration hsay⟩
    rw [Tree.displace_node]
    exact completed_eq_ok_iff.mpr (Option.map_eq_some_iff.mpr ⟨d', hd', rfl⟩)

/-- Items that are moved say the same if the types in them show the same. -/
theorem exists_items_displace {trees : List Tree} {items : List Item}
    (hshows : ∀ node ∈ Tree.nodes .declaration trees,
      ShowsAt m view source source' (bodyTypes node.2))
    (h : itemsOfTrees source trees = .ok items) :
    ∃ items', itemsOfTrees source' (trees.map (Tree.displace m)) = .ok items' ∧
      items'.map (Item.bare view) = items.map (Item.bare view) := by
  unfold itemsOfTrees at h ⊢
  induction trees generalizing items with
  | nil =>
    cases h
    exact ⟨[], rfl, rfl⟩
  | cons tree trees ih =>
    have hrest : ∀ node ∈ Tree.nodes .declaration trees,
        ShowsAt m view source source' (bodyTypes node.2) := by
      intro node hnode
      refine hshows node ?_
      rw [mem_nodes] at hnode ⊢
      exact List.mem_cons_of_mem tree hnode
    cases tree with
    | leaf t => exact ih hrest h
    | node kind extent children =>
      obtain ⟨item, items, hitem, hitems, rfl⟩ := Outcome.mapM_cons_eq_ok_iff.mp h
      obtain ⟨items', hitems', hsays⟩ := ih hrest hitems
      have hfirst : ∀ node ∈ Tree.nodes .declaration [.node kind extent children],
          ShowsAt m view source source' (bodyTypes node.2) := by
        intro node hnode
        refine hshows node ?_
        rw [mem_nodes, List.mem_singleton] at hnode
        rw [mem_nodes, hnode]
        exact List.mem_cons_self
      obtain ⟨item', hitem', hsay⟩ := exists_item_displace hfirst hitem
      refine ⟨item' :: items', ?_, by rw [List.map_cons, List.map_cons, hsay, hsays]⟩
      rw [List.map_cons, Tree.displace_node]
      rw [Tree.displace_node] at hitem'
      exact Outcome.mapM_cons_eq_ok_iff.mpr ⟨item', items', hitem', hitems', rfl⟩

/-- **The items of a tree that is moved** say what those of the tree say, if the types in it show
the same. -/
theorem exists_fileItems_displace {tree : Tree} {items : List Item}
    (hshows : ShowsAt m view source source' tree.typeExtents)
    (h : fileItems source tree = .ok items) :
    ∃ items', fileItems source' (tree.displace m) = .ok items' ∧
      items'.map (Item.bare view) = items.map (Item.bare view) := by
  unfold fileItems at h
  split at h
  · next extent children =>
    rw [Tree.displace_node]
    refine exists_items_displace (fun node hnode e he => hshows e ?_) h
    exact List.mem_flatMap.mpr ⟨node, hnode, he⟩
  · cases h

end Declarations

end Syntax

end Errata
