import Errata.Proofs.Syntax.Parser
import Errata.Syntax.Declaration
import Mathlib.Data.List.Forall2

/-!
# The shape of parse trees

Every node of a parse tree has an extent and the children that its kind needs. What a symbol of the
grammar hands on to the symbol it stands in is described by *slots*; that every production fills the
slots of its left side is checked on the grammar, and the parser only puts fragments together.

* `Tree.IsWellFormed`: trees in which every node has what its kind needs.
* `Slot`, `Fills`: what trees are handed on.
* `productions_isSound`: every production makes what its kind needs.
* **`isWellFormed_of_parse`**: parse trees are well-formed, save for that of an empty file, which is
  a node without children.
-/

namespace Errata.Syntax

/-! ### Well-formed trees -/

/-- The kinds of items. -/
def itemKinds : List Kind :=
  [.importStatement, .fromImport, .declaration]

/-- The kinds of attributes, by what they consist of. -/
def formKinds : List Kind :=
  [.metaPath, .metaNameValue, .metaList]

/-- Whether a tree is a node of one of the kinds, with an extent. -/
def Tree.IsNode (kinds : List Kind) (tree : Tree) : Prop :=
  ∃ kind ∈ kinds, ∃ extent children, tree = .node kind (some extent) children

/-- What the children of a node have to be, for its kind. -/
def Kind.Holds (children : List Tree) : Kind → Prop
  | file => ∀ tree ∈ children, tree.IsNode itemKinds
  | importStatement => Tree.nodes .dottedName children ≠ []
  | fromImport => Tree.nodes .moduleRef children ≠ []
  | importAlias | dottedName | member => Tree.tokens .name children ≠ []
  | declaration =>
    Tree.nodes .declarationKind children ≠ [] ∧ Tree.tokens .name children ≠ []
  | declarationKind => ∃ t rest, children = .leaf t :: rest
  | fieldType => ∃ tree rest, children = tree :: rest ∧ tree.IsNode [.typeExpr]
  | outerAttribute | innerAttribute =>
    ∃ tree rest, children = tree :: rest ∧ tree.IsNode formKinds
  | metaPath | metaList => ∃ tree rest, children = tree :: rest ∧ tree.IsNode [.path]
  | metaNameValue =>
    ∃ tree value rest, children = tree :: .leaf value :: rest ∧ tree.IsNode [.path]
  | _ => True

/-- A tree is well-formed if every node in it has an extent and the children its kind needs. -/
inductive Tree.IsWellFormed : Tree → Prop where
  /-- A token is. -/
  | leaf (t : Token) : IsWellFormed (.leaf t)
  /-- A node is if its children are what they have to be. -/
  | node {kind : Kind} {extent : Extent} {children : List Tree} (holds : kind.Holds children)
      (inside : ∀ tree ∈ children, tree.IsWellFormed) :
      IsWellFormed (.node kind (some extent) children)

/-! ### Slots -/

/-- What trees a symbol hands on. -/
inductive Slot where
  /-- A token of a terminal. -/
  | leaf (t : Terminal)
  /-- A token. -/
  | token
  /-- A node of one of the kinds. -/
  | node (kinds : List Kind)
  /-- Nodes of these kinds. -/
  | nodes (kinds : List Kind)
  /-- Any trees. -/
  | any
deriving DecidableEq

/-- Whether trees are what a slot says. -/
def Slot.Admits (trees : List Tree) : Slot → Prop
  | leaf t => ∃ token : Token, token.terminal = t ∧ trees = [.leaf token]
  | token => ∃ token : Token, trees = [.leaf token]
  | node kinds => ∃ tree : Tree, tree.IsNode kinds ∧ trees = [tree]
  | nodes kinds => ∀ tree ∈ trees, tree.IsNode kinds
  | any => True

/-- Whether trees are what slots say, one after the other. -/
def Fills : List Slot → List Tree → Prop
  | [], trees => trees = []
  | slot :: slots, trees =>
    ∃ front rest, trees = front ++ rest ∧ slot.Admits front ∧ Fills slots rest

/-- Trees for more slots. -/
theorem Fills.append {slots slots' : List Slot} {trees trees' : List Tree}
    (h : Fills slots trees) (h' : Fills slots' trees') :
    Fills (slots ++ slots') (trees ++ trees') := by
  induction slots generalizing trees with
  | nil =>
    obtain rfl : trees = [] := h
    exact h'
  | cons slot slots ih =>
    obtain ⟨front, rest, rfl, hfront, hrest⟩ := h
    exact ⟨front, rest ++ trees', by rw [List.append_assoc], hfront, ih hrest⟩

/-- A slot among those that are filled. -/
theorem Fills.exists_of_mem {slots : List Slot} {trees : List Tree} (h : Fills slots trees)
    {slot : Slot} (hm : slot ∈ slots) :
    ∃ front middle rest, trees = front ++ middle ++ rest ∧ slot.Admits middle := by
  induction slots generalizing trees with
  | nil => cases hm
  | cons first slots ih =>
    obtain ⟨front, rest, rfl, hfront, hrest⟩ := h
    rcases List.mem_cons.mp hm with rfl | hm
    · exact ⟨[], front, rest, rfl, hfront⟩
    · obtain ⟨before, middle, after, rfl, hmiddle⟩ := ih hrest hm
      exact ⟨front ++ before, middle, after, by simp, hmiddle⟩

/-- The slot of a nonterminal. -/
def Nonterminal.slot : Nonterminal → Slot
  | .file => .node [.file]
  | .item => .node itemKinds
  | .items => .nodes itemKinds
  | .importStatement => .node [.importStatement]
  | .fromImport => .node [.fromImport]
  | .moduleRef => .node [.moduleRef]
  | .importAlias => .node [.importAlias]
  | .dottedName => .node [.dottedName]
  | .declaration => .node [.declaration]
  | .declarationKind => .node [.declarationKind]
  | .braceBody => .node [.braceBody]
  | .member => .node [.member]
  | .fieldType => .node [.fieldType]
  | .parenBody => .node [.parenBody]
  | .parenItem => .node [.parenItem]
  | .attribute => .node [.outerAttribute, .innerAttribute]
  | .metaForm => .node formKinds
  | .metaValue => .token
  | .attributePath => .node [.path]
  | .typeExpr => .node [.typeExpr]
  | .typeTerm => .node [.typeTerm]
  | .typeArgs => .node [.typeArgs]
  | .typeArg => .node [.typeArg]
  | _ => .any

/-- The slots of a symbol: tokens that are not kept leave none. -/
def Symbol.slots : Symbol → List Slot
  | .t terminal => if terminal.isKept then [.leaf terminal] else []
  | .n x => [x.slot]

/-! ### Productions -/

/-- Whether trees for the slots are what a node of the kind needs. -/
def Kind.isHeldBy (slots : List Slot) : Kind → Bool
  | file => slots = [.nodes itemKinds]
  | importStatement => slots.contains (.node [.dottedName])
  | fromImport => slots.contains (.node [.moduleRef])
  | importAlias | dottedName | member => slots.contains (.leaf .name)
  | declaration => slots.contains (.node [.declarationKind]) && slots.contains (.leaf .name)
  | declarationKind => slots.head?.any fun slot => (slot matches .leaf _)
  | fieldType => slots.head? = some (.node [.typeExpr])
  | outerAttribute | innerAttribute => slots.head? = some (.node formKinds)
  | metaPath | metaList => slots.head? = some (.node [.path])
  | metaNameValue => slots = [.node [.path], .token]
  | _ => true

/-- Whether trees for the slots are what a slot says. -/
def Slot.covers (slots : List Slot) : Slot → Bool
  | leaf _ => false
  | token =>
    match slots with
    | [.leaf _] => true
    | _ => false
  | node kinds =>
    match slots with
    | [.node kinds'] => kinds'.all (kinds.contains ·)
    | _ => false
  | nodes kinds => slots.all fun
    | .node kinds' | .nodes kinds' => kinds'.all (kinds.contains ·)
    | _ => false
  | any => true

/-- Whether what a production makes is what the slot of its left side says. -/
def Production.isSound (p : Production) : Bool :=
  let slots := p.rhs.flatMap Symbol.slots
  match p.kind, p.lhs.slot with
  | some kind, .node kinds => kinds.contains kind && kind.isHeldBy slots
  | some _, _ => false
  | none, slot => slot.covers slots

/-- Every production makes what the slot of its left side says. -/
theorem productions_isSound : (productions.all Production.isSound) = true := by
  decide +kernel

/-- The nodes of a kind are found among the children of a node. -/
theorem nodes_ne_nil {kind : Kind} {slots : List Slot} {trees : List Tree}
    (h : slots.contains (.node [kind]) = true) (hf : Fills slots trees) :
    Tree.nodes kind trees ≠ [] := by
  obtain ⟨front, middle, rest, rfl, tree, ⟨k, hk, extent, children, rfl⟩, rfl⟩ :=
    hf.exists_of_mem (by simpa using h)
  obtain rfl : k = kind := by simpa using hk
  simp [Tree.nodes]

/-- The tokens of a terminal are found among the children of a node. -/
theorem tokens_ne_nil {t : Terminal} {slots : List Slot} {trees : List Tree}
    (h : slots.contains (.leaf t) = true) (hf : Fills slots trees) :
    Tree.tokens t trees ≠ [] := by
  obtain ⟨front, middle, rest, rfl, token, rfl, rfl⟩ := hf.exists_of_mem (by simpa using h)
  simp [Tree.tokens]

/-- A node that is the first child. -/
theorem exists_head_of_node {kinds : List Kind} {slots : List Slot} {trees : List Tree}
    (h : slots.head? = some (.node kinds)) (hf : Fills slots trees) :
    ∃ tree rest, trees = tree :: rest ∧ tree.IsNode kinds := by
  obtain ⟨more, rfl⟩ := List.head?_eq_some_iff.mp h
  obtain ⟨front, rest, rfl, ⟨tree, hnode, rfl⟩, -⟩ := hf
  exact ⟨tree, rest, rfl, hnode⟩

/-- Trees that fill slots are what a kind needs if the slots are. -/
theorem Kind.holds_of_isHeldBy {kind : Kind} {slots : List Slot} {trees : List Tree}
    (h : kind.isHeldBy slots = true) (hf : Fills slots trees) : kind.Holds trees := by
  cases kind with
  | file =>
    obtain rfl : slots = [.nodes itemKinds] := by simpa [isHeldBy] using h
    obtain ⟨front, rest, rfl, hfront, rfl⟩ := hf
    exact fun tree hm => hfront tree (by simpa using hm)
  | importStatement => exact nodes_ne_nil h hf
  | fromImport => exact nodes_ne_nil h hf
  | importAlias => exact tokens_ne_nil h hf
  | dottedName => exact tokens_ne_nil h hf
  | member => exact tokens_ne_nil h hf
  | declaration =>
    obtain ⟨hkind, hname⟩ := Bool.and_eq_true_iff.mp h
    exact ⟨nodes_ne_nil hkind hf, tokens_ne_nil hname hf⟩
  | declarationKind =>
    match slots, h, hf with
    | .leaf t :: slots, _, ⟨front, rest, heq, ⟨token, _, hfront⟩, _⟩ =>
      exact ⟨token, rest, by rw [heq, hfront]; rfl⟩
  | fieldType => exact exists_head_of_node (by simpa [isHeldBy] using h) hf
  | outerAttribute => exact exists_head_of_node (by simpa [isHeldBy] using h) hf
  | innerAttribute => exact exists_head_of_node (by simpa [isHeldBy] using h) hf
  | metaPath => exact exists_head_of_node (by simpa [isHeldBy] using h) hf
  | metaNameValue =>
    obtain rfl : slots = [.node [.path], .token] := by simpa [isHeldBy] using h
    obtain ⟨front, rest, rfl, ⟨tree, hnode, rfl⟩, front', rest', rfl, ⟨token, rfl⟩, rfl⟩ := hf
    exact ⟨tree, token, [], rfl, hnode⟩
  | metaList => exact exists_head_of_node (by simpa [isHeldBy] using h) hf
  | _ => trivial

/-- A node of some kinds is one of more kinds. -/
theorem Tree.IsNode.mono {kinds kinds' : List Kind} {tree : Tree} (h : tree.IsNode kinds)
    (hk : kinds.all (kinds'.contains ·) = true) : tree.IsNode kinds' := by
  obtain ⟨kind, hkind, extent, children, rfl⟩ := h
  exact ⟨kind, by simpa using List.all_eq_true.mp hk kind hkind, extent, children, rfl⟩

/-- Trees that fill slots are what another slot says if it covers them. -/
theorem Slot.admits_of_covers {slot : Slot} {slots : List Slot} {trees : List Tree}
    (h : slot.covers slots = true) (hf : Fills slots trees) : slot.Admits trees := by
  cases slot with
  | leaf t => cases h
  | token =>
    match slots, h, hf with
    | [.leaf t], _, ⟨front, rest, heq, ⟨found, _, hfront⟩, hrest⟩ =>
      obtain rfl : rest = [] := hrest
      exact ⟨found, by rw [heq, hfront, List.append_nil]⟩
  | node kinds =>
    match slots, h, hf with
    | [.node kinds'], h, ⟨front, rest, heq, ⟨tree, hnode, hfront⟩, hrest⟩ =>
      obtain rfl : rest = [] := hrest
      exact ⟨tree, hnode.mono h, by rw [heq, hfront, List.append_nil]⟩
  | nodes kinds =>
    induction slots generalizing trees with
    | nil =>
      obtain rfl : trees = [] := hf
      simp [Admits]
    | cons first slots ih =>
      obtain ⟨front, rest, rfl, hfront, hrest⟩ := hf
      obtain ⟨hfirst, hslots⟩ := Bool.and_eq_true_iff.mp h
      have hadmits : ∀ tree ∈ front, tree.IsNode kinds := by
        cases first with
        | node kinds' =>
          obtain ⟨tree, hnode, rfl⟩ := hfront
          simpa using hnode.mono hfirst
        | nodes kinds' => exact fun tree hm => (hfront tree hm).mono hfirst
        | _ => cases hfirst
      intro tree hm
      rcases List.mem_append.mp hm with hm | hm
      · exact hadmits tree hm
      · exact ih hrest hslots tree hm
  | any => trivial

/-! ### Fragments -/

/-- A fragment for a symbol: it has an extent, and its trees are well-formed and fill the slots of
the symbol. -/
structure Fragment.IsFor (fragment : Fragment) (symbol : Symbol) : Prop where
  /-- It has an extent. -/
  extent : ∃ extent, fragment.extent = some extent
  /-- Its trees fill the slots. -/
  fills : Fills symbol.slots fragment.children
  /-- Its trees are well-formed. -/
  inside : ∀ tree ∈ fragment.children, tree.IsWellFormed

/-- The fragment of a token. -/
theorem isFor_ofToken (t : Token) : (Fragment.ofToken t).IsFor (.t t.terminal) := by
  refine ⟨⟨_, rfl⟩, ?_, ?_⟩
  · by_cases hk : t.terminal.isKept = true
    · simpa [Fragment.ofToken, Symbol.slots, hk] using
        ⟨[.leaf t], [], rfl, ⟨t, rfl, rfl⟩, rfl⟩
    · simp [Fragment.ofToken, Symbol.slots, hk, Fills]
  · intro tree hm
    obtain rfl : tree = .leaf t := by
      by_cases hk : t.terminal.isKept = true <;> simp_all [Fragment.ofToken]
    exact .leaf t

/-- The trees of fragments fill the slots of their symbols. -/
theorem fills_flatMap {parts : List Fragment} {symbols : List Symbol}
    (h : List.Forall₂ Fragment.IsFor parts symbols) :
    Fills (symbols.flatMap Symbol.slots) (parts.flatMap Fragment.children) := by
  induction h with
  | nil => rfl
  | cons hfirst _ ih => exact hfirst.fills.append ih

/-- The trees of fragments are well-formed. -/
theorem isWellFormed_flatMap {parts : List Fragment} {symbols : List Symbol}
    (h : List.Forall₂ Fragment.IsFor parts symbols) :
    ∀ tree ∈ parts.flatMap Fragment.children, tree.IsWellFormed := by
  induction h with
  | nil => simp
  | cons hfirst _ ih =>
    intro tree hm
    rcases List.mem_append.mp hm with hm | hm
    · exact hfirst.inside tree hm
    · exact ih tree hm

/-- Fragments that have extents have one together. -/
theorem exists_joinExtents {parts : List Fragment} {symbols : List Symbol}
    (h : List.Forall₂ Fragment.IsFor parts symbols) (hne : symbols ≠ []) :
    ∃ extent, Fragment.joinExtents (parts.filterMap Fragment.extent) = some extent := by
  cases h with
  | nil => exact absurd rfl hne
  | @cons first symbol parts symbols hfirst hrest =>
    obtain ⟨extent, hextent⟩ := hfirst.extent
    have hlast : ((first :: parts).filterMap Fragment.extent).getLast? ≠ none := by
      simp [hextent]
    obtain ⟨last, hlast⟩ := Option.ne_none_iff_exists'.mp hlast
    refine ⟨extent.to last, ?_⟩
    simp only [Fragment.joinExtents, hlast]
    simp [hextent]

/-- The fragment that a production makes is one for its left side. -/
theorem isFor_combine {p : Production} {k : Nat} (hp : productions[k]? = some p)
    {parts : List Fragment} (h : List.Forall₂ Fragment.IsFor parts p.rhs) :
    (Fragment.combine p.kind parts).IsFor (.n p.lhs) := by
  have hsound := Array.all_eq_true_iff_forall_mem.mp productions_isSound p
    (Array.mem_of_getElem? hp)
  have hne : p.rhs ≠ [] := by
    intro hnil
    have hlt := weight_lt hp
    simp [hnil] at hlt
  have hfills := fills_flatMap h
  have hinside := isWellFormed_flatMap h
  obtain ⟨extent, hextent⟩ := exists_joinExtents h hne
  unfold Production.isSound at hsound
  cases hkind : p.kind with
  | none =>
    rw [hkind] at hsound
    exact ⟨⟨extent, hextent⟩,
      ⟨_, [], (List.append_nil _).symm, Slot.admits_of_covers hsound hfills, rfl⟩, hinside⟩
  | some kind =>
    rw [hkind] at hsound
    cases hslot : p.lhs.slot with
    | node kinds =>
      rw [hslot] at hsound
      obtain ⟨hmem, hholds⟩ := Bool.and_eq_true_iff.mp hsound
      refine ⟨⟨extent, hextent⟩, ?_, ?_⟩
      · rw [Symbol.slots, hslot]
        have hnode : Tree.IsNode kinds
            (.node kind (some extent) (parts.flatMap Fragment.children)) :=
          ⟨kind, by simpa using hmem, extent, _, rfl⟩
        exact ⟨_, [], (List.append_nil _).symm,
          ⟨_, hnode, by simp [Fragment.combine, hextent]⟩, rfl⟩
      · intro tree hm
        obtain rfl : tree = .node kind (some extent) (parts.flatMap Fragment.children) := by
          simpa [Fragment.combine, hextent] using hm
        exact .node (Kind.holds_of_isHeldBy hholds hfills) hinside
    | _ =>
      rw [hslot] at hsound
      cases hsound

/-! ### Parses -/

/-- Whether the fragments on a stack are those of its symbols. -/
def AllFor (stack : List Frame) : Prop :=
  ∀ frame ∈ stack, frame.fragment.IsFor frame.symbol

/-- Every step keeps the fragments those of their symbols. -/
theorem Effect.allFor {c d : Config} (h : Effect c (.next d)) (hc : AllFor c.stack) :
    AllFor d.stack := by
  cases h with
  | read => exact hc
  | readEnd => exact hc
  | @reduce lookahead k target p front rest hl hk hp hstack hsymbols hgoto =>
    rw [hstack] at hc
    rintro frame (_ | ⟨_, hm⟩)
    · refine isFor_combine hp ?_
      have hrhs : p.rhs = (front.map Frame.symbol).reverse := by
        rw [hsymbols, List.reverse_reverse]
      rw [hrhs, List.forall₂_reverse_iff, List.forall₂_map_left_iff, List.forall₂_map_right_iff,
        List.forall₂_same]
      exact fun frame hm => hc frame (List.mem_append_left _ hm)
    · exact hc frame (List.mem_append_right _ hm)
  | @shift t target hl hk hshift =>
    rintro frame (_ | ⟨_, hm⟩)
    · exact isFor_ofToken t
    · exact hc frame hm

/-- **Parse trees are well-formed** nodes of files; that of an empty file has no extent. -/
theorem isWellFormed_of_parse {source : List Char} {tree : Tree} (h : parse source = .ok tree) :
    tree = .node .file none [] ∨ tree.IsWellFormed ∧ tree.IsNode [.file] := by
  obtain ⟨d, -, hd, heffect⟩ := exists_done_of_parse (P := fun c => AllFor c.stack)
    (fun _ heffect hc => heffect.allFor hc) (by simp [AllFor, Config.initial]) h
  cases heffect with
  | acceptEmpty => exact Or.inl rfl
  | accept hl hstack =>
    have hfor := hd _ (hstack ▸ List.mem_singleton_self _)
    obtain ⟨front, rest, heq, ⟨node, hnode, rfl⟩, rfl⟩ := hfor.fills
    obtain rfl : tree = node := by simpa using heq
    exact Or.inr ⟨hfor.inside _ (List.mem_singleton_self _), hnode⟩

end Errata.Syntax
