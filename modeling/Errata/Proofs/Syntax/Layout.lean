import Errata.Proofs.Outcome
import Errata.Proofs.Syntax.Derivation

/-!
# Where parse trees lie

A source that is parsed consists of its tokens, with blanks and comments between them. The kept ones
are the leaves of the parse tree, from left to right. Each node stands over a row of tokens: it
reaches from the first of them to the last, kept or not, and its children stand over rows that
follow one another within.

* `Tree.leaves`, `Tree.subtrees`: the tokens of a tree, and the trees inside it.
* `Token.IsSliceOf`: tokens that say where in the source their text stands.
* `IsRowOf`: trees that reach over rows of tokens which follow one another.
* `Tree.IsOver`: nodes that stand over a row of tokens.
* **`layout_of_parse`**: where the tokens and the nodes of a parsed source lie.
-/

namespace Errata.Syntax

/-! ### Parts of trees -/

/-- The tokens of a tree from left to right. -/
def Tree.leaves : Tree → List Token
  | leaf t => [t]
  | node _ _ children => leavesAll children
where
  /-- The tokens of trees, one tree after the other. -/
  leavesAll : List Tree → List Token
    | [] => []
    | tree :: rest => leaves tree ++ leavesAll rest

/-- A tree and all trees inside it. -/
def Tree.subtrees : Tree → List Tree
  | leaf t => [leaf t]
  | node kind extent children => node kind extent children :: subtreesAll children
where
  /-- Trees and all trees inside them. -/
  subtreesAll : List Tree → List Tree
    | [] => []
    | tree :: rest => subtrees tree ++ subtreesAll rest

/-- How far a tree reaches. -/
def Tree.extent? : Tree → Option Extent
  | leaf t => some t.extent
  | node _ extent _ => extent

/-- The tokens of trees are those of each of them. -/
theorem Tree.leavesAll_eq_flatMap (trees : List Tree) :
    leaves.leavesAll trees = trees.flatMap leaves := by
  induction trees with
  | nil => rfl
  | cons tree trees ih => rw [leaves.leavesAll, ih, List.flatMap_cons]

/-- The trees inside trees are those inside each of them. -/
theorem Tree.subtreesAll_eq_flatMap (trees : List Tree) :
    subtrees.subtreesAll trees = trees.flatMap subtrees := by
  induction trees with
  | nil => rfl
  | cons tree trees ih => rw [subtrees.subtreesAll, ih, List.flatMap_cons]

/-- The tokens of a node are those of its children. -/
@[simp] theorem Tree.leaves_node (kind : Kind) (extent : Option Extent) (children : List Tree) :
    (node kind extent children).leaves = children.flatMap leaves := by
  rw [leaves, leavesAll_eq_flatMap]

/-- A node, and what is inside its children. -/
@[simp] theorem Tree.subtrees_node (kind : Kind) (extent : Option Extent) (children : List Tree) :
    (node kind extent children).subtrees =
      node kind extent children :: children.flatMap subtrees := by
  rw [subtrees, subtreesAll_eq_flatMap]

/-! ### Tokens -/

/-- The position of the character with the given offset. Its line counts the line feeds before it,
and its column the characters before it on that line. -/
def Position.ofOffset (source : List Char) (offset : Nat) : Position where
  offset := offset
  line := (source.take offset).count '\n' + 1
  column := (lastLine (source.take offset)).length + 1

/-- Whether a token says where in the source its text stands. -/
structure Token.IsSliceOf (source : List Char) (t : Token) : Prop where
  /-- It is not empty. -/
  nonempty : t.extent.start.offset < t.extent.stop.offset
  /-- It ends within the source. -/
  inside : t.extent.stop.offset ≤ source.length
  /-- Its text is what stands between its offsets. -/
  text : t.text =
    (source.drop t.extent.start.offset).take (t.extent.stop.offset - t.extent.start.offset)
  /-- Its line and its column are those of its offset. -/
  start : t.extent.start = .ofOffset source t.extent.start.offset
  /-- So are those of its end. -/
  stop : t.extent.stop = .ofOffset source t.extent.stop.offset

/-- The position behind an initial part of a source is that of its length. -/
theorem Position.ofPrefix_eq_ofOffset (before after : List Char) :
    Position.ofPrefix before = .ofOffset (before ++ after) before.length := by
  rw [Position.ofPrefix_eq, ofOffset, List.take_left]

/-- **A token that is laid out** says where its text stands. -/
theorem IsLaidOut.isSliceOf {text : List Char} {ts : List Token} (h : IsLaidOut text ts) {t : Token}
    (ht : t ∈ ts) (tail : List Char) : t.IsSliceOf (text ++ tail) := by
  obtain ⟨front, gap, after, rfl, -, hne, hextent, -⟩ := h.exists_append ht
  have hpos := List.length_pos_iff.mpr hne
  have hsource : front ++ gap ++ t.text ++ after ++ tail =
      front ++ gap ++ (t.text ++ (after ++ tail)) := by
    simp only [List.append_assoc]
  have hstart : t.extent.start.offset = (front ++ gap).length := by
    rw [hextent, Position.offset_ofPrefix]
  have hstop : t.extent.stop.offset = (front ++ gap).length + t.text.length := by
    rw [hextent, Position.offset_ofPrefix, List.length_append]
  rw [hsource]
  refine ⟨by omega, ?_, ?_, ?_, ?_⟩
  · rw [hstop, ← List.length_append, ← List.append_assoc]
    exact (List.prefix_append _ _).length_le
  · rw [hstart, hstop, Nat.add_sub_cancel_left, List.drop_left, List.take_left]
  · rw [hstart, hextent]
    exact Position.ofPrefix_eq_ofOffset _ _
  · rw [hstop, hextent, ← List.append_assoc, ← List.length_append]
    exact Position.ofPrefix_eq_ofOffset _ _

/-! ### Rows of tokens -/

mutual

/-- The tokens of the trees that a symbol hands on are the kept ones among those it stands for. -/
theorem Derives.leaves {s : Symbol} {ts : List Token} {trees : List Tree} :
    Derives s ts trees → trees.flatMap Tree.leaves = ts.filter fun t => t.terminal.isKept
  | .token t => by
    by_cases hk : t.terminal.isKept = true <;> simp [Fragment.ofToken, hk, Tree.leaves]
  | .handOn _ _ parts => parts.leaves
  | .node _ _ parts => by
    rw [List.flatMap_singleton, Tree.leaves_node]
    exact parts.leaves

/-- The tokens of the trees that symbols hand on are the kept ones among those they stand for. -/
theorem DerivesAll.leaves {symbols : List Symbol} {ts : List Token} {trees : List Tree} :
    DerivesAll symbols ts trees → trees.flatMap Tree.leaves = ts.filter fun t => t.terminal.isKept
  | .nil => rfl
  | .cons first more => by
    rw [List.flatMap_append, List.filter_append, first.leaves, more.leaves]

end

/-- No production is empty. -/
theorem rhs_ne_nil {p : Production} (hp : p ∈ productions) : p.rhs ≠ [] := by
  have hall : ∀ p ∈ productions, p.rhs ≠ [] := by decide
  exact hall p hp

mutual

/-- A symbol stands for tokens. -/
theorem Derives.ne_nil {s : Symbol} {ts : List Token} {trees : List Tree} :
    Derives s ts trees → ts ≠ []
  | .token t => List.cons_ne_nil t []
  | .handOn hp _ parts => parts.ne_nil (rhs_ne_nil hp)
  | .node hp _ parts => parts.ne_nil (rhs_ne_nil hp)

/-- Symbols stand for tokens. -/
theorem DerivesAll.ne_nil {symbols : List Symbol} {ts : List Token} {trees : List Tree} :
    DerivesAll symbols ts trees → symbols ≠ [] → ts ≠ []
  | .nil, hne => absurd rfl hne
  | .cons first _, _ => List.append_ne_nil_of_left_ne_nil first.ne_nil _

end

/-- Whether trees reach over rows of tokens that follow one another among some tokens. -/
def IsRowOf (ts : List Token) (trees : List Tree) : Prop :=
  ∃ parts : List (List Token), parts.flatten.Sublist ts ∧ [] ∉ parts ∧
    trees.map Tree.extent? = parts.map extentOf

mutual

/-- **The trees that a symbol hands on** reach over rows of the tokens that it stands for. -/
theorem Derives.isRowOf {s : Symbol} {ts : List Token} {trees : List Tree} :
    Derives s ts trees → IsRowOf ts trees
  | .token t => by
    by_cases hk : t.terminal.isKept = true
    · exact ⟨[[t]], List.Sublist.refl [t], by simp, by rw [Fragment.ofToken, if_pos hk]; rfl⟩
    · exact ⟨[], List.nil_sublist [t], by simp, by rw [Fragment.ofToken, if_neg hk]; rfl⟩
  | .handOn _ _ parts => parts.isRowOf
  | .node hp hkind parts =>
    ⟨[ts], by simp, by simpa using (Derives.node hp hkind parts).ne_nil.symm, rfl⟩

/-- **The trees that symbols hand on** reach over rows of the tokens that they stand for. -/
theorem DerivesAll.isRowOf {symbols : List Symbol} {ts : List Token} {trees : List Tree} :
    DerivesAll symbols ts trees → IsRowOf ts trees
  | .nil => ⟨[], List.Sublist.refl [], List.not_mem_nil, rfl⟩
  | .cons first more => by
    obtain ⟨parts, hsub, hne, heq⟩ := first.isRowOf
    obtain ⟨parts', hsub', hne', heq'⟩ := more.isRowOf
    refine ⟨parts ++ parts', ?_, ?_, ?_⟩
    · rw [List.flatten_append]
      exact hsub.append hsub'
    · rw [List.mem_append]
      exact not_or.mpr ⟨hne, hne'⟩
    · rw [List.map_append, List.map_append, heq, heq']

end

/-! ### Nodes -/

/-- Whether tokens lie one behind the other. -/
structure IsOrdered (ts : List Token) : Prop where
  /-- Each ends behind its start. -/
  nonempty : ∀ t ∈ ts, t.extent.start.offset < t.extent.stop.offset
  /-- Each ends before those behind it start. -/
  pairwise : ts.Pairwise fun s t => s.extent.stop.offset ≤ t.extent.start.offset

/-- Tokens among others that lie one behind the other do so too. -/
theorem IsOrdered.sublist {ts us : List Token} (h : IsOrdered ts) (hsub : us.Sublist ts) :
    IsOrdered us :=
  ⟨fun t ht => h.nonempty t (hsub.subset ht), h.pairwise.sublist hsub⟩

/-- **Tokens lie between the first and the last of them.** -/
theorem IsOrdered.within {ts : List Token} (h : IsOrdered ts) {e : Extent}
    (he : extentOf ts = some e) {t : Token} (ht : t ∈ ts) :
    e.start.offset ≤ t.extent.start.offset ∧ t.extent.stop.offset ≤ e.stop.offset := by
  obtain ⟨first, last, hfirst, hlast, rfl⟩ := extentOf_eq_some_iff.mp he
  obtain ⟨more, rfl⟩ := List.head?_eq_some_iff.mp hfirst
  constructor
  · rcases List.mem_cons.mp ht with rfl | hmore
    · exact Nat.le_refl _
    · have hbehind := List.rel_of_pairwise_cons h.pairwise hmore
      exact (h.nonempty first List.mem_cons_self).le.trans hbehind
  · obtain ⟨front, hfront⟩ := List.getLast?_eq_some_iff.mp hlast
    rw [hfront] at ht h
    rcases List.mem_append.mp ht with hm | hm
    · have hbefore := (List.pairwise_append.mp h.pairwise).2.2 t hm last
        (List.mem_singleton_self last)
      exact hbefore.trans (h.nonempty last (by simp)).le
    · rw [List.mem_singleton.mp hm]

/-- Tokens among others reach no further. -/
theorem IsOrdered.extentOf_within {ts us : List Token} (h : IsOrdered ts) {e e' : Extent}
    (he : extentOf ts = some e) (hus : ∀ t ∈ us, t ∈ ts) (he' : extentOf us = some e') :
    e.start.offset ≤ e'.start.offset ∧ e'.stop.offset ≤ e.stop.offset := by
  obtain ⟨first, last, hfirst, hlast, rfl⟩ := extentOf_eq_some_iff.mp he'
  exact ⟨(h.within he (hus first (List.mem_of_head? hfirst))).1,
    (h.within he (hus last (List.mem_of_getLast? hlast))).2⟩

/-- Whether a node stands over a row of tokens. -/
structure Tree.IsOver (ts : List Token) (kind : Kind) (e : Extent) (children : List Tree) :
    Prop where
  /-- A production of its kind stands for them. -/
  derives : ∃ p ∈ productions, p.kind = some kind ∧ DerivesAll p.rhs ts children
  /-- It reaches from the start of the first to the stop of the last of them. -/
  ends : ∃ first last, ts.head? = some first ∧ ts.getLast? = some last ∧
    e = ⟨first.extent.start, last.extent.stop⟩
  /-- The kept ones are its leaves. -/
  leaves : children.flatMap Tree.leaves = ts.filter fun t => t.terminal.isKept
  /-- Its children lie within. -/
  within : ∀ child ∈ children, ∃ e', child.extent? = some e' ∧
    e.start.offset ≤ e'.start.offset ∧ e'.stop.offset ≤ e.stop.offset
  /-- They lie one behind the other. -/
  ordered : (children.filterMap Tree.extent?).Pairwise fun a b => a.stop.offset ≤ b.start.offset

/-- Tokens reach somewhere. -/
theorem exists_extentOf {ts : List Token} (h : ts ≠ []) : ∃ e, extentOf ts = some e :=
  ⟨_, extentOf_eq_some_iff.mpr
    ⟨_, _, List.head?_eq_some_head h, List.getLast?_eq_some_getLast h, rfl⟩⟩

/-- **A node that a production makes** of tokens that lie one behind the other stands over them. -/
theorem DerivesAll.isOver {p : Production} (hp : p ∈ productions) {kind : Kind}
    (hkind : p.kind = some kind) {ts : List Token} {children : List Tree}
    (h : DerivesAll p.rhs ts children) (hts : IsOrdered ts) :
    ∃ e, extentOf ts = some e ∧ Tree.IsOver ts kind e children := by
  obtain ⟨e, he⟩ := exists_extentOf (h.ne_nil (rhs_ne_nil hp))
  obtain ⟨parts, hsub, hne, hparts⟩ := h.isRowOf
  refine ⟨e, he, ⟨p, hp, hkind, h⟩, extentOf_eq_some_iff.mp he, h.leaves, ?_, ?_⟩
  · intro child hchild
    have hm : child.extent? ∈ parts.map extentOf := hparts ▸ List.mem_map_of_mem hchild
    obtain ⟨part, hpart, heq⟩ := List.mem_map.mp hm
    obtain ⟨e', he'⟩ := exists_extentOf (ne_of_mem_of_not_mem hpart hne)
    refine ⟨e', heq.symm.trans he', hts.extentOf_within he ?_ he'⟩
    exact fun t ht => hsub.subset (List.mem_flatten.mpr ⟨part, hpart, ht⟩)
  · have hextents : children.filterMap Tree.extent? = parts.filterMap extentOf := by
      have hid := congrArg (List.filterMap id) hparts
      rwa [List.filterMap_map, List.filterMap_map, Function.id_comp, Function.id_comp] at hid
    rw [hextents, List.pairwise_filterMap]
    refine (List.pairwise_flatten.mp (hts.sublist hsub).pairwise).2.imp ?_
    intro part part' hbefore a ha b hb
    obtain ⟨_, last, -, hlast, rfl⟩ := extentOf_eq_some_iff.mp ha
    obtain ⟨first, _, hfirst, -, rfl⟩ := extentOf_eq_some_iff.mp hb
    exact hbefore last (List.mem_of_getLast? hlast) first (List.mem_of_head? hfirst)

mutual

/-- **Every node among the trees that a symbol hands on** is made by a production of a row of its
tokens. -/
theorem Derives.exists_of_mem_subtrees {s : Symbol} {ts : List Token} {trees : List Tree}
    {kind : Kind} {extent : Option Extent} {children : List Tree} :
    Derives s ts trees → .node kind extent children ∈ trees.flatMap Tree.subtrees →
      ∃ us, us <:+: ts ∧ extent = extentOf us ∧
        ∃ p ∈ productions, p.kind = some kind ∧ DerivesAll p.rhs us children
  | .token t, hm => by
    obtain ⟨tree, htree, hm⟩ := List.mem_flatMap.mp hm
    rw [(eq_leaf_of_mem_ofToken htree).2, Tree.subtrees, List.mem_singleton] at hm
    cases hm
  | .handOn _ _ parts, hm => parts.exists_of_mem_subtrees hm
  | .node hp hkind parts, hm => by
    rw [List.flatMap_singleton, Tree.subtrees_node] at hm
    rcases List.mem_cons.mp hm with heq | hm
    · cases heq
      exact ⟨ts, List.infix_rfl, rfl, _, hp, hkind, parts⟩
    · exact parts.exists_of_mem_subtrees hm

/-- **Every node among the trees that symbols hand on** is made by a production of a row of their
tokens. -/
theorem DerivesAll.exists_of_mem_subtrees {symbols : List Symbol} {ts : List Token}
    {trees : List Tree} {kind : Kind} {extent : Option Extent} {children : List Tree} :
    DerivesAll symbols ts trees → .node kind extent children ∈ trees.flatMap Tree.subtrees →
      ∃ us, us <:+: ts ∧ extent = extentOf us ∧
        ∃ p ∈ productions, p.kind = some kind ∧ DerivesAll p.rhs us children
  | .nil, hm => absurd hm List.not_mem_nil
  | @DerivesAll.cons _ _ ts us _ _ first more, hm => by
    rw [List.flatMap_append] at hm
    rcases List.mem_append.mp hm with hm | hm
    · obtain ⟨vs, hvs, hrest⟩ := first.exists_of_mem_subtrees hm
      exact ⟨vs, hvs.trans (List.prefix_append ts us).isInfix, hrest⟩
    · obtain ⟨vs, hvs, hrest⟩ := more.exists_of_mem_subtrees hm
      exact ⟨vs, hvs.trans (List.suffix_append ts us).isInfix, hrest⟩

end

/-! ### Sources -/

/-- **Where the parts of a parsed source lie.** It consists of tokens with nothing but blanks and
comments between and behind them. Each token says where its text stands, with the line and the
column of its offset, and they lie one behind the other. The kept ones are the leaves of the parse
tree from left to right. Every node of it stands over a row of tokens, unless the file is empty. -/
theorem layout_of_parse {source : List Char} {tree : Tree} (h : parse source = .ok tree) :
    (∃ text tail, source = text ++ tail ∧ IsLaidOut text (tokens source) ∧ IsTail tail) ∧
      (∀ t ∈ tokens source, t.IsSliceOf source) ∧
      ((tokens source).Pairwise fun s t => s.extent.stop.offset ≤ t.extent.start.offset) ∧
      (tree.leaves = (tokens source).filter fun t => t.terminal.isKept) ∧
      ∀ kind extent children, .node kind extent children ∈ tree.subtrees →
        (extent = none ∧ children = [] ∧ tokens source = []) ∨
          ∃ e ts, extent = some e ∧ ts <:+: tokens source ∧ Tree.IsOver ts kind e children := by
  obtain ⟨text, tail, hsource, hlaid, htail⟩ := isLaidOut_of_parse h
  have hslices : ∀ t ∈ tokens source, t.IsSliceOf source := by
    intro t ht
    have hslice := hlaid.isSliceOf ht tail
    rwa [← hsource] at hslice
  have hordered : IsOrdered (tokens source) := ⟨fun t ht => (hslices t ht).nonempty, hlaid.pairwise⟩
  refine ⟨⟨text, tail, hsource, hlaid, htail⟩, hslices, hlaid.pairwise, ?_, ?_⟩
  · rcases derives_of_parse h with ⟨rfl, hnone⟩ | hderives
    · rw [hnone]
      rfl
    · have hleaves := hderives.leaves
      rwa [List.flatMap_singleton] at hleaves
  · intro kind extent children hm
    rcases derives_of_parse h with ⟨rfl, hnone⟩ | hderives
    · rw [Tree.subtrees_node, List.flatMap_nil, List.mem_singleton] at hm
      cases hm
      exact Or.inl ⟨rfl, rfl, hnone⟩
    · rw [← List.flatMap_singleton (f := Tree.subtrees) tree] at hm
      obtain ⟨ts, hts, rfl, p, hp, hkind, hparts⟩ := hderives.exists_of_mem_subtrees hm
      obtain ⟨e, he, hover⟩ := hparts.isOver hp hkind (hordered.sublist hts.sublist)
      exact Or.inr ⟨e, ts, he, hts, hover⟩

/-- A declaration behind a comment, of six tokens, three of which are kept. Every node of its parse
tree stands over some of them. -/
theorem layout_of_parse_enum :
    ∃ tree, parse "// c\nenum E \x7b A, \x7d".toList = .ok tree ∧
      tree.leaves.map Token.text = ["enum".toList, "E".toList, "A".toList] ∧
      ∀ kind extent children, .node kind extent children ∈ tree.subtrees →
        ∃ e ts, extent = some e ∧ ts <:+: tokens "// c\nenum E \x7b A, \x7d".toList ∧
          Tree.IsOver ts kind e children := by
  have hok : (parse "// c\nenum E \x7b A, \x7d".toList).toOption.isSome = true := by
    decide +kernel
  obtain ⟨tree, hparse⟩ := Option.isSome_iff_exists.mp hok
  rw [Outcome.toOption_eq_some_iff] at hparse
  have hkept : ((tokens "// c\nenum E \x7b A, \x7d".toList).filter fun t =>
      t.terminal.isKept).map Token.text = ["enum".toList, "E".toList, "A".toList] := by
    decide +kernel
  obtain ⟨-, -, -, hleaves, hnodes⟩ := layout_of_parse hparse
  refine ⟨tree, hparse, by rw [hleaves, hkept], ?_⟩
  intro kind extent children hm
  rcases hnodes kind extent children hm with ⟨-, -, hnone⟩ | hover
  · rw [hnone] at hkept
    cases hkept
  · exact hover

end Errata.Syntax
