import Errata.Proofs.Syntax.Tokens

/-!
# Parse trees are derivations

A symbol stands for a row of tokens, and hands on trees to the symbol it stands in: a token hands on
itself or nothing, and a production puts a node around what its right side hands on, or hands that
on as it is. A step of the parser puts derivations together to derivations, so that the parse tree
of a file stands for all of its tokens.

* `extentOf`: from the first to the last of some tokens.
* `Derives`, `DerivesAll`: the tokens that a symbol, or a row of symbols, can stand for, and the
  trees that it then hands on.
* `Tree.IsDerived`: trees in which every node comes from a production of its kind.
* **`derives_of_parse`**: the parse tree of a file is handed on for its tokens, save for that of an
  empty file.
* `isDerived_of_parse`: every node of it comes from a production.
-/

namespace Errata.Syntax

/-! ### Extents of rows of tokens -/

/-- From the start of the first token to the stop of the last. -/
def extentOf (ts : List Token) : Option Extent :=
  Fragment.joinExtents (ts.map Token.extent)

/-- Rows of extents reach equally far if they start and stop at the same places. -/
theorem joinExtents_eq_iff {a b : List Extent} :
    Fragment.joinExtents a = Fragment.joinExtents b ↔
      a.head?.map Extent.start = b.head?.map Extent.start ∧
        a.getLast?.map Extent.stop = b.getLast?.map Extent.stop := by
  have hends : ∀ {l : List Extent}, (l.head? = none ↔ l.getLast? = none) := by
    intro l
    rw [List.head?_eq_none_iff, List.getLast?_eq_none_iff]
  have ha := @hends a
  have hb := @hends b
  unfold Fragment.joinExtents
  revert ha hb
  cases a.head? <;> cases a.getLast? <;> cases b.head? <;> cases b.getLast? <;> simp [Extent.to]

/-- How far two rows reach together depends on how far each of them does. -/
theorem joinExtents_append_congr {a a' b b' : List Extent}
    (ha : Fragment.joinExtents a = Fragment.joinExtents a')
    (hb : Fragment.joinExtents b = Fragment.joinExtents b') :
    Fragment.joinExtents (a ++ b) = Fragment.joinExtents (a' ++ b') := by
  rw [joinExtents_eq_iff] at ha hb ⊢
  simp only [List.head?_append, List.getLast?_append, Option.map_or, ha.1, ha.2, hb.1, hb.2,
    and_self]

/-- What a row reaches over is one extent, which reaches equally far. -/
theorem joinExtents_toList (extents : List Extent) :
    Fragment.joinExtents (Fragment.joinExtents extents).toList = Fragment.joinExtents extents := by
  cases Fragment.joinExtents extents <;> rfl

/-- Tokens reach from the start of the first to the stop of the last. -/
theorem extentOf_eq_some_iff {ts : List Token} {e : Extent} :
    extentOf ts = some e ↔ ∃ first last, ts.head? = some first ∧ ts.getLast? = some last ∧
      e = ⟨first.extent.start, last.extent.stop⟩ := by
  unfold extentOf Fragment.joinExtents
  rw [List.head?_map, List.getLast?_map]
  cases ts.head? <;> cases ts.getLast? <;> simp [Extent.to, eq_comm]

/-! ### Derivations -/

mutual

/-- What tokens a symbol can stand for, and what trees it then hands on. -/
inductive Derives : Symbol → List Token → List Tree → Prop where
  /-- A token hands on itself if it is kept. -/
  | token (t : Token) : Derives (.t t.terminal) [t] (Fragment.ofToken t).children
  /-- A production without a kind hands on what its right side does. -/
  | handOn {p : Production} {ts : List Token} {trees : List Tree} (hp : p ∈ productions)
      (hkind : p.kind = none) (parts : DerivesAll p.rhs ts trees) : Derives (.n p.lhs) ts trees
  /-- A production with a kind makes a node of it, which reaches over the tokens. -/
  | node {p : Production} {kind : Kind} {ts : List Token} {children : List Tree}
      (hp : p ∈ productions) (hkind : p.kind = some kind) (parts : DerivesAll p.rhs ts children) :
      Derives (.n p.lhs) ts [.node kind (extentOf ts) children]

/-- What tokens symbols can stand for, one after the other, and what trees they hand on. -/
inductive DerivesAll : List Symbol → List Token → List Tree → Prop where
  /-- No symbols stand for nothing and hand on nothing. -/
  | nil : DerivesAll [] [] []
  /-- The tokens and the trees of the first symbol are followed by those of the others. -/
  | cons {s : Symbol} {symbols : List Symbol} {ts us : List Token} {front rest : List Tree}
      (first : Derives s ts front) (more : DerivesAll symbols us rest) :
      DerivesAll (s :: symbols) (ts ++ us) (front ++ rest)

end

/-- Symbols behind others. -/
theorem DerivesAll.append {symbols more : List Symbol} {ts us : List Token}
    {front rest : List Tree} (h : DerivesAll symbols ts front) (hmore : DerivesAll more us rest) :
    DerivesAll (symbols ++ more) (ts ++ us) (front ++ rest) := by
  induction symbols generalizing ts front with
  | nil =>
    cases h
    exact hmore
  | cons s symbols ih =>
    cases h with
    | cons first others =>
      rw [List.append_assoc, List.append_assoc]
      exact .cons first (ih others)

/-- One symbol. -/
theorem Derives.singleton {s : Symbol} {ts : List Token} {trees : List Tree}
    (h : Derives s ts trees) : DerivesAll [s] ts trees := by
  rw [← List.append_nil ts, ← List.append_nil trees]
  exact .cons h .nil

/-- Whether every node of a tree comes from a production of its kind. -/
inductive Tree.IsDerived : Tree → Prop where
  /-- A token has no nodes. -/
  | leaf (t : Token) : IsDerived (.leaf t)
  /-- A node comes from a production, and so do those inside. -/
  | node {p : Production} {kind : Kind} {extent : Option Extent} {ts : List Token}
      {children : List Tree} (hp : p ∈ productions) (hkind : p.kind = some kind)
      (parts : DerivesAll p.rhs ts children) (inside : ∀ tree ∈ children, tree.IsDerived) :
      IsDerived (.node kind extent children)

/-- The production that a node comes from. -/
theorem Tree.IsDerived.of_node {kind : Kind} {extent : Option Extent} {children : List Tree}
    (h : (Tree.node kind extent children).IsDerived) :
    (∃ p ∈ productions, p.kind = some kind ∧ ∃ ts, DerivesAll p.rhs ts children) ∧
      ∀ tree ∈ children, tree.IsDerived := by
  cases h with
  | node hp hkind parts inside => exact ⟨⟨_, hp, hkind, _, parts⟩, inside⟩

/-- A token hands on nothing but itself. -/
theorem eq_leaf_of_mem_ofToken {t : Token} {tree : Tree}
    (h : tree ∈ (Fragment.ofToken t).children) : t.terminal.isKept = true ∧ tree = .leaf t := by
  by_cases hk : t.terminal.isKept = true <;> simp_all [Fragment.ofToken]

mutual

/-- The trees that a symbol hands on are derived. -/
theorem Derives.isDerived {s : Symbol} {ts : List Token} {trees : List Tree} :
    Derives s ts trees → ∀ tree ∈ trees, tree.IsDerived
  | .token t, tree, hm => by
    rw [(eq_leaf_of_mem_ofToken hm).2]
    exact .leaf t
  | .handOn _ _ parts, tree, hm => parts.isDerived tree hm
  | .node hp hkind parts, tree, hm => by
    rw [List.mem_singleton.mp hm]
    exact .node hp hkind parts parts.isDerived

/-- The trees that symbols hand on are derived. -/
theorem DerivesAll.isDerived {symbols : List Symbol} {ts : List Token} {trees : List Tree} :
    DerivesAll symbols ts trees → ∀ tree ∈ trees, tree.IsDerived
  | .nil, _, hm => absurd hm List.not_mem_nil
  | .cons first more, tree, hm => by
    rcases List.mem_append.mp hm with hm | hm
    · exact first.isDerived tree hm
    · exact more.isDerived tree hm

end

/-! ### Parts -/

/-- What one of several symbols hands on is found in what they all do. -/
theorem DerivesAll.exists_of_mem {symbols : List Symbol} {ts : List Token} {trees : List Tree}
    (h : DerivesAll symbols ts trees) {s : Symbol} (hs : s ∈ symbols) :
    ∃ us part, (∀ tree ∈ part, tree ∈ trees) ∧ Derives s us part := by
  induction symbols generalizing ts trees with
  | nil => cases hs
  | cons first symbols ih =>
    cases h with
    | @cons _ _ _ _ front rest hfirst more =>
      rcases List.mem_cons.mp hs with rfl | hs
      · exact ⟨_, front, fun tree => List.mem_append_left rest, hfirst⟩
      · obtain ⟨us, part, hpart, hderives⟩ := ih more hs
        exact ⟨us, part, fun tree hm => List.mem_append_right front (hpart tree hm), hderives⟩

/-- The trees of a symbol all of whose productions have a kind. -/
theorem Derives.exists_node {x : Nonterminal} {ts : List Token} {trees : List Tree}
    (h : Derives (.n x) ts trees) {kind : Kind}
    (hx : ∀ p ∈ productions, p.lhs = x → p.kind = some kind) :
    ∃ extent children, trees = [.node kind extent children] := by
  cases h with
  | handOn hp hkind parts => cases hkind.symm.trans (hx _ hp rfl)
  | node hp hkind parts =>
    cases hkind.symm.trans (hx _ hp rfl)
    exact ⟨_, _, rfl⟩

/-- The trees of a symbol none of whose productions has a kind. -/
theorem Derives.exists_rhs {x : Nonterminal} {ts : List Token} {trees : List Tree}
    (h : Derives (.n x) ts trees) (hx : ∀ p ∈ productions, p.lhs = x → p.kind = none) :
    ∃ p ∈ productions, p.lhs = x ∧ DerivesAll p.rhs ts trees := by
  cases h with
  | handOn hp hkind parts => exact ⟨_, hp, rfl, parts⟩
  | node hp hkind parts => cases hkind.symm.trans (hx _ hp rfl)

/-- The trees of a terminal that is kept. -/
theorem Derives.exists_leaf {terminal : Terminal} {ts : List Token} {trees : List Tree}
    (h : Derives (.t terminal) ts trees) (hkept : terminal.isKept = true) :
    ∃ t : Token, t.terminal = terminal ∧ trees = [.leaf t] := by
  cases h with
  | token t => exact ⟨t, rfl, by rw [Fragment.ofToken, if_pos hkept]⟩

/-! ### Parses -/

/-- Whether a symbol on the stack stands for some tokens. -/
structure Frame.StandsFor (frame : Frame) (ts : List Token) : Prop where
  /-- It hands on trees for them. -/
  derives : Derives frame.symbol ts frame.fragment.children
  /-- It reaches over them. -/
  extent : frame.fragment.extent = extentOf ts

/-- Whether the symbols on a stack stand for tokens, those below for the first ones. -/
inductive StandFor : List Frame → List Token → Prop where
  /-- Nothing. -/
  | nil : StandFor [] []
  /-- The symbol on top stands for the last tokens. -/
  | cons {frame : Frame} {stack : List Frame} {ts us : List Token} (below : StandFor stack ts)
      (top : frame.StandsFor us) : StandFor (frame :: stack) (ts ++ us)

/-- Symbols on top of a stack stand for the last of its tokens, and hand on trees for them. -/
theorem StandFor.of_append {front stack : List Frame} {ts : List Token}
    (h : StandFor (front ++ stack) ts) :
    ∃ us vs, ts = us ++ vs ∧ StandFor stack us ∧
      DerivesAll (front.map Frame.symbol).reverse vs
        ((front.map Frame.fragment).reverse.flatMap Fragment.children) ∧
      Fragment.joinExtents ((front.map Frame.fragment).reverse.filterMap Fragment.extent) =
        extentOf vs := by
  induction front generalizing ts with
  | nil => exact ⟨ts, [], (List.append_nil ts).symm, h, .nil, rfl⟩
  | cons frame front ih =>
    cases h with
    | @cons _ _ before last below top =>
      obtain ⟨us, vs, rfl, hstack, hparts, hextent⟩ := ih below
      refine ⟨us, vs ++ last, List.append_assoc _ _ _, hstack, ?_, ?_⟩
      · simp only [List.map_cons, List.reverse_cons, List.flatMap_append, List.flatMap_singleton]
        exact hparts.append top.derives.singleton
      · have hlast : Fragment.joinExtents ([frame.fragment].filterMap Fragment.extent) =
            extentOf last := by
          have hone : [frame.fragment].filterMap Fragment.extent = (extentOf last).toList := by
            rw [← top.extent]
            cases hextent : frame.fragment.extent <;> simp [hextent]
          rw [hone]
          exact joinExtents_toList _
        rw [List.map_cons, List.reverse_cons, List.filterMap_append]
        exact (joinExtents_append_congr hextent hlast).trans
          (congrArg _ (List.map_append (f := Token.extent)).symm)

/-- Whether the tokens read so far are those that the stack stands for and the next token. -/
def Config.HasRead (c : Config) (ts : List Token) : Prop :=
  ∃ us, StandFor c.stack us ∧ ts = us ++ c.lookahead.join.toList

/-- **Every step keeps the tokens read so far** on the stack. -/
theorem Effect.hasRead {c d : Config} {ts : List Token} (h : Effect c (.next d))
    (hc : c.HasRead ts) :
    d.HasRead (ts ++ if c.lookahead = none then d.lookahead.join.toList else []) := by
  obtain ⟨us, hstack, rfl⟩ := hc
  cases h with
  | read hl => exact ⟨us, hstack, by simp [hl]⟩
  | readEnd hl => exact ⟨us, hstack, by simp [hl]⟩
  | @reduce lookahead k target p front rest hl hk hp hframes hsymbols hgoto =>
    rw [hframes] at hstack
    obtain ⟨below, ts, rfl, hrest, hparts, hextent⟩ := hstack.of_append
    rw [hsymbols, List.reverse_reverse] at hparts
    have hp := Array.mem_of_getElem? hp
    refine ⟨below ++ ts, .cons hrest ⟨?_, ?_⟩, by simp [hl]⟩
    · cases hkind : p.kind with
      | none => exact .handOn hp hkind hparts
      | some kind =>
        have hnode := Derives.node hp hkind hparts
        rw [← hextent] at hnode
        exact hnode
    · cases hkind : p.kind <;> exact hextent
  | @shift t target hl hk hshift =>
    exact ⟨us ++ [t], .cons hstack ⟨.token t, rfl⟩, by simp [hl]⟩

/-- **The parse tree of a file is handed on for its tokens**, save for that of an empty file. -/
theorem derives_of_parse {source : List Char} {tree : Tree} (h : parse source = .ok tree) :
    tree = .node .file none [] ∧ tokens source = [] ∨
      Derives (.n .file) (tokens source) [tree] := by
  obtain ⟨d, ⟨us, hstack, htokens⟩, heffect⟩ := exists_done_of_parse_tokens
    (P := Config.HasRead) (fun _ heffect hc => heffect.hasRead hc) ⟨[], .nil, rfl⟩ h
  cases heffect with
  | acceptEmpty hl hnil =>
    rw [hnil] at hstack
    rw [hl] at htokens
    cases hstack
    exact Or.inl ⟨rfl, htokens⟩
  | accept hl hone =>
    rw [hone] at hstack
    rw [hl] at htokens
    cases hstack with
    | cons below top =>
      cases below
      rw [htokens, Option.join_some, Option.toList_none, List.append_nil, List.nil_append]
      exact Or.inr top.derives

/-- **Parse trees are derived**, save for that of an empty file. -/
theorem isDerived_of_parse {source : List Char} {tree : Tree} (h : parse source = .ok tree) :
    tree = .node .file none [] ∨ tree.IsDerived :=
  (derives_of_parse h).imp And.left fun hderives =>
    hderives.isDerived tree (List.mem_singleton_self tree)

end Errata.Syntax
