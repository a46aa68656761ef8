import Errata.Proofs.Outcome
import Errata.Proofs.Syntax.Shape

/-!
# Every parse tree is a file

Reading the items of a file looks for the parts of a node that its kind needs. In a well-formed tree
they are all there, so that nothing is ever missing in a parse tree.

* `exists_of_mem_nodes`: the nodes among well-formed trees have what they need.
* `ofTree_cases`, `exists_node_of_fileItems`: what the items of a file are read from.
* `exists_attribute`, `exists_field`, `exists_variant`, `exists_declaration`, `exists_item`: a
  well-formed node of a kind is read as what the kind stands for.
* **`exists_fileItems_of_parse`**: the items of a parsed file can be read.
-/

namespace Errata.Syntax

/-- A part that every entry of a list has can be read from all of them. -/
theorem exists_mapM {α β : Type} {f : α → Option β} {as : List α}
    (h : ∀ a ∈ as, ∃ b, f a = some b) : ∃ bs, as.mapM f = some bs := by
  induction as with
  | nil => exact ⟨[], rfl⟩
  | cons a as ih =>
    obtain ⟨b, hb⟩ := h a (by simp)
    obtain ⟨bs, hbs⟩ := ih fun a hm => h a (by simp [hm])
    exact ⟨b :: bs, by simp [hb, hbs]⟩

/-- What is read from a list is read from one of its entries. -/
theorem exists_of_mem_mapM {α β : Type} {f : α → Option β} {as : List α} {bs : List β}
    (h : as.mapM f = some bs) {b : β} (hb : b ∈ bs) : ∃ a ∈ as, f a = some b := by
  induction as generalizing bs with
  | nil =>
    obtain rfl : [] = bs := Option.some.inj h
    cases hb
  | cons a as ih =>
    rw [List.mapM_cons] at h
    obtain ⟨first, hfirst, h⟩ := Option.bind_eq_some_iff.mp h
    obtain ⟨rest, hrest, h⟩ := Option.bind_eq_some_iff.mp h
    obtain rfl : first :: rest = bs := Option.some.inj h
    rcases List.mem_cons.mp hb with rfl | hb
    · exact ⟨a, List.mem_cons_self, hfirst⟩
    · obtain ⟨a', ha', hf⟩ := ih hrest hb
      exact ⟨a', List.mem_cons_of_mem a ha', hf⟩

/-! ### Children of a node -/

/-- The nodes of a kind are nodes among the trees. -/
theorem mem_nodes {kind : Kind} {trees : List Tree} {extent : Option Extent}
    {children : List Tree} :
    (extent, children) ∈ Tree.nodes kind trees ↔ .node kind extent children ∈ trees := by
  constructor
  · intro h
    obtain ⟨tree, hm, heq⟩ := List.mem_filterMap.mp h
    cases tree with
    | leaf t => cases heq
    | node k extent' children' =>
      obtain ⟨rfl, rfl, rfl⟩ : k = kind ∧ extent' = extent ∧ children' = children := by
        simpa using heq
      exact hm
  · intro h
    exact List.mem_filterMap.mpr ⟨_, h, by simp⟩

/-- A well-formed node: its extent, and what its children are. -/
theorem Tree.IsWellFormed.of_node {kind : Kind} {extent : Option Extent} {children : List Tree}
    (h : (Tree.node kind extent children).IsWellFormed) :
    (∃ e, extent = some e) ∧ kind.Holds children ∧ ∀ tree ∈ children, tree.IsWellFormed := by
  cases h with
  | node holds inside => exact ⟨⟨_, rfl⟩, holds, inside⟩

/-- The nodes of a kind among well-formed trees have what the kind needs. -/
theorem exists_of_mem_nodes {kind : Kind} {trees : List Tree}
    (hw : ∀ tree ∈ trees, tree.IsWellFormed) {p : Option Extent × List Tree}
    (hm : p ∈ Tree.nodes kind trees) :
    ∃ extent children, p = (some extent, children) ∧ kind.Holds children ∧
      ∀ tree ∈ children, tree.IsWellFormed := by
  obtain ⟨extent, children⟩ := p
  obtain ⟨⟨e, rfl⟩, hholds, hinside⟩ := (hw _ (mem_nodes.mp hm)).of_node
  exact ⟨e, children, rfl, hholds, hinside⟩

/-- The first of the trees, if there is one. -/
theorem exists_head {α : Type} {as : List α} (h : as ≠ []) : ∃ a, as.head? = some a := by
  cases as with
  | nil => exact absurd rfl h
  | cons a as => exact ⟨a, rfl⟩

/-! ### Attributes -/

/-- The path of an attribute can be found, whatever form the attribute has. -/
theorem exists_path {form : Kind} (hform : form ∈ formKinds) {inside : List Tree}
    (h : form.Holds inside) :
    ∃ extent children, (Tree.nodes .path (inside.take 1)).head? = some (extent, children) := by
  have hpath : ∃ tree rest, inside = tree :: rest ∧ tree.IsNode [.path] := by
    simp only [formKinds, List.mem_cons, List.not_mem_nil, or_false] at hform
    rcases hform with rfl | rfl | rfl
    · exact h
    · obtain ⟨tree, value, rest, rfl, hnode⟩ := h
      exact ⟨tree, .leaf value :: rest, rfl, hnode⟩
    · exact h
  obtain ⟨tree, rest, rfl, kind, hkind, extent, children, rfl⟩ := hpath
  obtain rfl : kind = .path := by simpa using hkind
  exact ⟨some extent, children, rfl⟩

/-- An attribute can be read. -/
theorem exists_attribute {extent : Extent} {children : List Tree}
    (h : Kind.Holds children .outerAttribute) (hw : ∀ tree ∈ children, tree.IsWellFormed) :
    ∃ a, attribute? (some extent, children) = some a := by
  obtain ⟨tree, rest, rfl, form, hform, formExtent, inside, rfl⟩ := h
  obtain ⟨-, hholds, -⟩ := (hw _ List.mem_cons_self).of_node
  obtain ⟨e, path, hpath⟩ := exists_path hform hholds
  simp [attribute?, hpath]

/-- The attributes of what follows can be read. -/
theorem exists_outerAttributes {trees : List Tree} (hw : ∀ tree ∈ trees, tree.IsWellFormed) :
    ∃ attributes, outerAttributes? trees = some attributes := by
  refine exists_mapM fun p hm => ?_
  obtain ⟨extent, children, rfl, hholds, hinside⟩ := exists_of_mem_nodes hw hm
  exact exists_attribute hholds hinside

/-! ### Declarations -/

section

variable (source : List Char)

/-- A field can be read. -/
theorem exists_field {extent : Extent} {children : List Tree} (h : Kind.Holds children .member)
    (hw : ∀ tree ∈ children, tree.IsWellFormed) :
    ∃ f, field? source (some extent, children) = some f := by
  obtain ⟨attributes, hattributes⟩ := exists_outerAttributes hw
  obtain ⟨name, hname⟩ := exists_head h
  cases htypes : Tree.nodes .fieldType children with
  | nil => simp [field?, hattributes, hname, htypes]
  | cons p more =>
    obtain ⟨typeExtent, inside, rfl, ⟨tree, rest, rfl, hnode⟩, -⟩ :=
      exists_of_mem_nodes hw (htypes ▸ List.mem_cons_self)
    obtain ⟨kind, -, e, type, rfl⟩ := hnode
    simp [field?, hattributes, hname, htypes]

/-- The members of a body can be read if each of them can. -/
theorem exists_members {α : Type} {read : Option Extent × List Tree → Option α}
    (hread : ∀ {extent : Extent} {children : List Tree}, Kind.Holds children .member →
      (∀ tree ∈ children, tree.IsWellFormed) → ∃ a, read (some extent, children) = some a)
    {body : List Tree} (hw : ∀ tree ∈ body, tree.IsWellFormed) :
    ∃ as, (Tree.nodes .member body).mapM read = some as := by
  refine exists_mapM fun p hm => ?_
  obtain ⟨extent, children, rfl, hholds, hinside⟩ := exists_of_mem_nodes hw hm
  exact hread hholds hinside

/-- What follows the name of a variant can be read. -/
theorem exists_shape {children : List Tree} (hw : ∀ tree ∈ children, tree.IsWellFormed) :
    ∃ shape, shape? source children = some shape := by
  unfold shape?
  split
  · exact ⟨_, rfl⟩
  · exact ⟨_, rfl⟩
  · rename_i body _ hbody
    obtain ⟨extent, _, heq, -, hinside⟩ := exists_of_mem_nodes hw (hbody ▸ List.mem_cons_self)
    obtain ⟨-, rfl⟩ := Prod.mk.inj heq
    obtain ⟨fields, hfields⟩ := exists_members (exists_field source) hinside
    exact ⟨.named fields, by simp [hfields]⟩
  · exact ⟨_, rfl⟩

/-- A variant can be read. -/
theorem exists_variant {extent : Extent} {children : List Tree}
    (h : Kind.Holds children .member) (hw : ∀ tree ∈ children, tree.IsWellFormed) :
    ∃ v, variant? source (some extent, children) = some v := by
  obtain ⟨attributes, hattributes⟩ := exists_outerAttributes hw
  obtain ⟨name, hname⟩ := exists_head h
  obtain ⟨shape, hshape⟩ := exists_shape source hw
  simp [variant?, hattributes, hname, hshape]

/-- The body of a declaration can be read. -/
theorem exists_body {children : List Tree} (hw : ∀ tree ∈ children, tree.IsWellFormed) :
    ∃ body, body? source children = some body := by
  unfold body?
  split
  · exact ⟨_, rfl⟩
  · rename_i body _ hbody
    obtain ⟨extent, _, heq, -, hinside⟩ := exists_of_mem_nodes hw (hbody ▸ List.mem_cons_self)
    obtain ⟨-, rfl⟩ := Prod.mk.inj heq
    obtain ⟨variants, hvariants⟩ := exists_members (exists_variant source) hinside
    exact ⟨.variants variants, by simp [hvariants]⟩
  · exact ⟨_, rfl⟩

/-- A declaration can be read. -/
theorem exists_declaration (extent : Extent) {children : List Tree}
    (h : Kind.Holds children .declaration) (hw : ∀ tree ∈ children, tree.IsWellFormed) :
    ∃ d, declaration? source extent children = some d := by
  obtain ⟨hkinds, hnames⟩ := h
  obtain ⟨kind, hkind⟩ := exists_head hkinds
  obtain ⟨name, hname⟩ := exists_head hnames
  obtain ⟨attributes, hattributes⟩ := exists_outerAttributes hw
  obtain ⟨body, hbody⟩ := exists_body source hw
  obtain ⟨e, word, rfl, ⟨t, rest, rfl⟩, -⟩ :=
    exists_of_mem_nodes hw (List.mem_of_mem_head? hkind)
  simp [declaration?, hkind, hname, hattributes, hbody]

end

/-! ### Items -/

/-- What is read, unless a part of it is missing. -/
theorem completed_eq_ok_iff {α : Type} {o : Option α} {a : α} :
    completed o = .ok a ↔ o = some a := by
  cases o <;> simp [completed]

/-- **What an item is read from**: the node of an import of a module, of an import of names, or of a
declaration. -/
theorem ofTree_cases {source : List Char} {tree : Tree} {item : Item}
    (h : Item.ofTree source tree = .ok item) :
    ∃ extent children,
      (tree = .node .importStatement (some extent) children ∧
        importModule? extent children = some item) ∨
      (tree = .node .fromImport (some extent) children ∧
        importNames? extent children = some item) ∨
      ∃ d, tree = .node .declaration (some extent) children ∧
        declaration? source extent children = some d ∧ item = .declaration d := by
  cases tree with
  | leaf t => cases h
  | node kind extent children =>
    cases extent with
    | none =>
      unfold Item.ofTree at h
      dsimp only at h
      split at h <;> cases h
    | some extent =>
      refine ⟨extent, children, ?_⟩
      unfold Item.ofTree at h
      dsimp only at h
      split at h
      · exact Or.inl ⟨rfl, completed_eq_ok_iff.mp h⟩
      · exact Or.inr (Or.inl ⟨rfl, completed_eq_ok_iff.mp h⟩)
      · obtain ⟨d, hd, rfl⟩ := Option.map_eq_some_iff.mp (completed_eq_ok_iff.mp h)
        exact Or.inr (Or.inr ⟨d, rfl, hd, rfl⟩)
      · cases h

/-- Every item of a file is read from one of the trees in it. -/
theorem exists_node_of_fileItems {source : List Char} {tree : Tree} {items : List Item}
    {item : Item} (h : fileItems source tree = .ok items) (hitem : item ∈ items) :
    ∃ extent before node after, tree = .node .file extent (before ++ node :: after) ∧
      Item.ofTree source node = .ok item := by
  unfold fileItems at h
  split at h
  · next extent children =>
    obtain ⟨node, hnode, hread⟩ := Outcome.exists_of_mem_mapM h hitem
    obtain ⟨before, after, rfl⟩ := List.append_of_mem (List.mem_of_mem_filter hnode)
    exact ⟨extent, before, node, after, rfl, hread⟩
  · cases h

/-- The import of a module can be read. -/
theorem exists_importModule (extent : Extent) {children : List Tree}
    (h : Kind.Holds children .importStatement) :
    ∃ item, importModule? extent children = some item := by
  obtain ⟨path, hpath⟩ := exists_head h
  simp [importModule?, hpath]

/-- The import of names can be read. -/
theorem exists_importNames (extent : Extent) {children : List Tree}
    (h : Kind.Holds children .fromImport) (hw : ∀ tree ∈ children, tree.IsWellFormed) :
    ∃ item, importNames? extent children = some item := by
  obtain ⟨origin, horigin⟩ := exists_head h
  have hnames : ∃ names,
      (Tree.nodes .importAlias children).mapM (fun p => importedName? p.2) = some names := by
    refine exists_mapM fun p hm => ?_
    obtain ⟨e, inside, rfl, hholds, -⟩ := exists_of_mem_nodes hw hm
    obtain ⟨name, hname⟩ := exists_head hholds
    obtain ⟨rest, hrest⟩ := List.head?_eq_some_iff.mp hname
    simp [importedName?, Tree.names, hrest]
  obtain ⟨names, hnames⟩ := hnames
  simp [importNames?, horigin, hnames]

/-- An item can be read. -/
theorem exists_item (source : List Char) {tree : Tree} (hnode : tree.IsNode itemKinds)
    (hw : tree.IsWellFormed) : ∃ item, Item.ofTree source tree = .ok item := by
  obtain ⟨kind, hkind, extent, children, rfl⟩ := hnode
  obtain ⟨-, hholds, hinside⟩ := hw.of_node
  simp only [itemKinds, List.mem_cons, List.not_mem_nil, or_false] at hkind
  rcases hkind with rfl | rfl | rfl
  · obtain ⟨item, hitem⟩ := exists_importModule extent hholds
    exact ⟨item, by simp [Item.ofTree, hitem, completed]⟩
  · obtain ⟨item, hitem⟩ := exists_importNames extent hholds hinside
    exact ⟨item, by simp [Item.ofTree, hitem, completed]⟩
  · obtain ⟨d, hd⟩ := exists_declaration source extent hholds hinside
    exact ⟨.declaration d, by simp [Item.ofTree, hd, completed]⟩

/-- The items of a file can be read from its trees. -/
theorem exists_itemsOfTrees (source : List Char) {trees : List Tree}
    (h : ∀ tree ∈ trees, tree.IsNode itemKinds ∧ tree.IsWellFormed) :
    ∃ items, itemsOfTrees source trees = .ok items := by
  have hread : ∀ {trees : List Tree},
      (∀ tree ∈ trees, tree.IsNode itemKinds ∧ tree.IsWellFormed) →
      ∃ items, trees.mapM (Item.ofTree source) = .ok items := by
    intro trees h
    induction trees with
    | nil => exact ⟨[], rfl⟩
    | cons tree trees ih =>
      obtain ⟨item, hitem⟩ := exists_item source (h tree (by simp)).1 (h tree (by simp)).2
      obtain ⟨items, hitems⟩ := ih fun tree hm => h tree (by simp [hm])
      exact ⟨item :: items, Outcome.mapM_cons_eq_ok_iff.mpr ⟨item, items, hitem, hitems, rfl⟩⟩
  exact hread fun tree hm => h tree (List.mem_filter.mp hm).1

/-- **The items of a parsed file can be read.** -/
theorem exists_fileItems_of_parse {source : List Char} {tree : Tree}
    (h : parse source = .ok tree) : ∃ items, fileItems source tree = .ok items := by
  rcases isWellFormed_of_parse h with rfl | ⟨hw, kind, hkind, extent, children, rfl⟩
  · exact ⟨[], rfl⟩
  · obtain rfl : kind = .file := by simpa using hkind
    obtain ⟨-, hholds, hinside⟩ := hw.of_node
    exact exists_itemsOfTrees source fun tree hm => ⟨hholds tree hm, hinside tree hm⟩

end Errata.Syntax
