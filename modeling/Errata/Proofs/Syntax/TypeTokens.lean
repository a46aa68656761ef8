import Errata.Proofs.Syntax.Layout
import Errata.Proofs.Syntax.Retelling
import Errata.Proofs.Syntax.TypeText

/-!
# The tokens of types

The type of a field is a node of the parse tree, and its tokens are those that the source has
between the first and the last of them. They are names, string literals and a few marks. The text of
the type is cut out of the source, so it holds them with all that stands between them.

* `Extent.tokens`: the tokens of a source within an extent.
* `exists_typeExpr`: the node of the type of a field.
* `Derives.terminal_mem`: the terminals of the tokens of a type.
* `exists_row`: tokens that follow one another are a row of the source;
  `exists_row_of_typeExtents`: so are those of the type of a field.
* `IsRetelling`: what is found in the text of a type.
* **`isRetelling_typeText`**: the tokens that are found in the text of the type of a field.
-/

namespace Errata.Syntax

variable {source : List Char} {tree : Tree}

/-! ### Tokens within an extent -/

/-- The tokens of a source that stand within an extent. -/
def Extent.tokens (source : List Char) (e : Extent) : List Token :=
  (Syntax.tokens source).filter fun t =>
    e.start.offset ≤ t.extent.start.offset ∧ t.extent.stop.offset ≤ e.stop.offset

/-- **Tokens that follow one another** are those that stand from the first to the last of them. -/
theorem tokens_eq_of_infix (h : parse source = .ok tree) {ts : List Token}
    (hts : ts <:+: tokens source) {e : Extent} (he : extentOf ts = some e) :
    e.tokens source = ts := by
  obtain ⟨front, others, hsplit⟩ := hts
  obtain ⟨-, hslices, hpairwise, -, -⟩ := layout_of_parse h
  have hordered : IsOrdered (front ++ ts ++ others) :=
    hsplit ▸ ⟨fun t ht => (hslices t ht).nonempty, hpairwise⟩
  have hwithin : ∀ t ∈ ts, e.start.offset ≤ t.extent.start.offset ∧
      t.extent.stop.offset ≤ e.stop.offset := fun t ht =>
    (hordered.sublist ((List.sublist_append_right front ts).trans
      (List.sublist_append_left _ others))).within he ht
  obtain ⟨first, last, hfirst, hlast, rfl⟩ := extentOf_eq_some_iff.mp he
  obtain ⟨hleft, -, hright⟩ := List.pairwise_append.mp hordered.pairwise
  rw [Extent.tokens, ← hsplit, List.filter_append, List.filter_append,
    List.filter_eq_self.mpr fun t ht => decide_eq_true (hwithin t ht),
    List.filter_eq_nil_iff.mpr, List.filter_eq_nil_iff.mpr, List.nil_append, List.append_nil]
  · intro t ht
    have hbehind := hright last (List.mem_append_right _ (List.mem_of_getLast? hlast)) t ht
    have hpos := hordered.nonempty t (List.mem_append_right _ ht)
    simp only [decide_eq_true_eq]
    omega
  · intro t ht
    have hbefore := (List.pairwise_append.mp hleft).2.2 t ht first (List.mem_of_head? hfirst)
    have hpos := hordered.nonempty t (List.mem_append_left _ (List.mem_append_left _ ht))
    simp only [decide_eq_true_eq]
    omega

/-! ### Nodes of types -/

/-- A tree is inside itself. -/
theorem Tree.mem_subtrees_self (tree : Tree) : tree ∈ tree.subtrees := by
  cases tree <;> simp [subtrees]

mutual

/-- The children of a node inside a tree are inside it. -/
theorem Tree.mem_subtrees_of_child {kind : Kind} {extent : Option Extent} {children : List Tree}
    {child : Tree} : (tree : Tree) → .node kind extent children ∈ tree.subtrees →
      child ∈ children → child ∈ tree.subtrees
  | .leaf t, h, _ => by simp [subtrees] at h
  | .node _ _ inside, h, hchild => by
    rw [subtrees_node, List.mem_cons] at h ⊢
    rcases h with heq | h
    · cases heq
      exact Or.inr (List.mem_flatMap.mpr ⟨child, hchild, child.mem_subtrees_self⟩)
    · exact Or.inr (mem_subtrees_of_childAll inside h hchild)

/-- The children of a node inside trees are inside them. -/
theorem Tree.mem_subtrees_of_childAll {kind : Kind} {extent : Option Extent}
    {children : List Tree} {child : Tree} : (trees : List Tree) →
      .node kind extent children ∈ trees.flatMap subtrees → child ∈ children →
        child ∈ trees.flatMap subtrees
  | [], h, _ => absurd h List.not_mem_nil
  | tree :: trees, h, hchild => by
    rw [List.flatMap_cons, List.mem_append] at h ⊢
    exact h.imp (fun h => Tree.mem_subtrees_of_child tree h hchild)
      fun h => mem_subtrees_of_childAll trees h hchild

end

/-- **A node inside the parse tree** stands over the tokens within its extent, unless the file is
empty. -/
theorem exists_isOver (h : parse source = .ok tree) {kind : Kind} {extent : Option Extent}
    {children : List Tree} (hm : .node kind extent children ∈ tree.subtrees)
    (hne : ¬(extent = none ∧ children = [])) :
    ∃ e, extent = some e ∧ e.tokens source <:+: tokens source ∧
      Tree.IsOver (e.tokens source) kind e children := by
  obtain ⟨-, -, -, -, hnodes⟩ := layout_of_parse h
  obtain ⟨hnone, hnil, -⟩ | ⟨e, ts, hextent, hts, hover⟩ := hnodes _ _ _ hm
  · exact absurd ⟨hnone, hnil⟩ hne
  · have heq := tokens_eq_of_infix h hts (extentOf_eq_some_iff.mpr hover.ends)
    exact ⟨e, hextent, by rwa [heq], by rwa [heq]⟩

/-- A terminal that is not kept hands on nothing. -/
theorem Derives.eq_nil {terminal : Terminal} {ts : List Token} {trees : List Tree}
    (h : Derives (.t terminal) ts trees) (hkept : terminal.isKept = false) : trees = [] := by
  cases h with
  | token t => rw [Fragment.ofToken, if_neg (by simp [hkept])]

/-- The node of a field's type holds the node of a type. -/
theorem exists_of_fieldType {p : Production} (hp : p ∈ productions)
    (hkind : p.kind = some .fieldType) {ts : List Token} {trees : List Tree}
    (h : DerivesAll p.rhs ts trees) :
    ∃ extent children, trees = [.node .typeExpr extent children] := by
  have hrhs : ∀ p ∈ productions, p.kind = some .fieldType →
      p.rhs = [.t .colon, .n .typeExpr] := by decide +kernel
  have htypeExpr : ∀ p ∈ productions, p.lhs = .typeExpr → p.kind = some .typeExpr := by
    decide +kernel
  rw [hrhs p hp hkind] at h
  cases h with
  | cons first more =>
    cases more with
    | cons second others =>
      cases others
      obtain ⟨extent, children, rfl⟩ := second.exists_node htypeExpr
      exact ⟨extent, children, by rw [first.eq_nil rfl]; rfl⟩

/-- **The type of a field is a node** of the parse tree. -/
theorem exists_typeExpr (h : parse source = .ok tree) :
    ∀ e ∈ tree.typeExtents, ∃ children, .node .typeExpr (some e) children ∈ tree.subtrees := by
  refine forall_mem_typeExtents (Q := (· ∈ tree.subtrees))
    (fun hnode _ hchild => Tree.mem_subtrees_of_child tree hnode hchild) ?_ tree.mem_subtrees_self
  intro extent kind e children others hfield
  obtain ⟨e', -, -, hover⟩ := exists_isOver h hfield (by simp)
  obtain ⟨p, hp, hkind, hparts⟩ := hover.derives
  obtain ⟨extent', children', heq⟩ := exists_of_fieldType hp hkind hparts
  cases heq
  exact ⟨children, Tree.mem_subtrees_of_child tree hfield List.mem_cons_self⟩

/-! ### The terminals of types -/

/-- The symbols that types consist of. -/
def typeSymbols : List Symbol :=
  ([.n .typeExpr, .n .typeTerm, .n .typeArgs, .n .typeArg, .n .dottedName, .n .moreComponents,
    .n .moreTerms, .n .moreTypeArgs, .n .moreTypes] : List Symbol) ++ typeTerminals.map .t

/-- They stand for nothing else. -/
theorem rhs_subset_typeSymbols {p : Production} (hp : p ∈ productions)
    (hlhs : .n p.lhs ∈ typeSymbols) : ∀ s ∈ p.rhs, s ∈ typeSymbols := by
  have hall : ∀ p ∈ productions, Symbol.n p.lhs ∈ typeSymbols → ∀ s ∈ p.rhs, s ∈ typeSymbols := by
    decide +kernel
  exact hall p hp hlhs

mutual

/-- **The tokens of a symbol of types** have the terminals of types. -/
theorem Derives.terminal_mem {s : Symbol} {ts : List Token} {trees : List Tree} :
    Derives s ts trees → s ∈ typeSymbols → ∀ t ∈ ts, t.terminal ∈ typeTerminals
  | .token t, hs, u, hu => by
    rw [List.mem_singleton.mp hu]
    simpa [typeSymbols] using hs
  | .handOn hp _ parts, hs, u, hu => parts.terminal_mem (rhs_subset_typeSymbols hp hs) u hu
  | .node hp _ parts, hs, u, hu => parts.terminal_mem (rhs_subset_typeSymbols hp hs) u hu

/-- The tokens of symbols of types have the terminals of types. -/
theorem DerivesAll.terminal_mem {symbols : List Symbol} {ts : List Token} {trees : List Tree} :
    DerivesAll symbols ts trees → (∀ s ∈ symbols, s ∈ typeSymbols) →
      ∀ t ∈ ts, t.terminal ∈ typeTerminals
  | .nil, _, _, hu => absurd hu List.not_mem_nil
  | .cons first more, hs, u, hu => by
    obtain ⟨hfirst, hmore⟩ := List.forall_mem_cons.mp hs
    exact (List.mem_append.mp hu).elim (first.terminal_mem hfirst u) (more.terminal_mem hmore u)

end

/-! ### Rows of a source -/

/-- A text is cut in one way at a position. -/
theorem append_inj_of_ofPrefix {front front' back back' : List Char}
    (h : front ++ back = front' ++ back')
    (hposition : Position.ofPrefix front = .ofPrefix front') : front = front' ∧ back = back' := by
  refine List.append_inj h ?_
  rw [← Position.offset_ofPrefix front, hposition, Position.offset_ofPrefix]

/-- What stands between two tokens. -/
theorem between_of_append {front gap back : List Char} {s t : Token}
    (hs : s.extent.stop = .ofPrefix front) (ht : t.extent.start = .ofPrefix (front ++ gap)) :
    between (front ++ gap ++ back) s t = gap := by
  rw [between, hs, ht, Position.offset_ofPrefix, Position.offset_ofPrefix, List.length_append,
    Nat.add_sub_cancel_left, List.append_assoc, List.drop_left, List.take_left]

/-- A token that is read with a terminal of types may stand in a type. -/
theorem IsReadBehind.isOfType {prev : Option Token} {t : Token} (h : IsReadBehind source prev t)
    (ht : t.terminal ∈ typeTerminals) : t.IsOfType := by
  obtain ⟨_, _, _, _, _, _, _, hscan⟩ := h
  exact isOfType_of_lexeme? ht (lexeme?_of_scan hscan)

/-- **Where a token is read**: behind a gap that follows the token before it. -/
theorem IsReadBehind.exists_append {prev : Option Token} {t : Token}
    (h : IsReadBehind source prev t) :
    ∃ before gap after, source = before ++ gap ++ (t.text ++ after) ∧
      (prev.map fun s => s.extent.stop).getD {} = .ofPrefix before ∧ IsGap gap ∧
      t.extent = ⟨.ofPrefix (before ++ gap), .ofPrefix (before ++ gap ++ t.text)⟩ ∧
      t.terminal.lexeme? (t.text ++ after) = some (t.text, after) := by
  obtain ⟨q, -, before, rest, after, rfl, hprev, hscan⟩ := h
  obtain ⟨gap, hgap, rfl, hfirst⟩ := scan_eq_token_iff.mp hscan
  refine ⟨before, gap, after, (List.append_assoc _ _ _).symm, hprev, hgap, ?_,
    lexeme?_of_scan hscan⟩
  rw [extent_of_firstToken hfirst, Position.advance_ofPrefix, Position.advance_ofPrefix]

/-- **Two tokens that follow one another** in a source: the second is read from the end of the
first. -/
theorem IsReadBehind.exists_between {prev : Option Token} {s t : Token}
    (hs : IsReadBehind source prev s) (ht : IsReadBehind source (some s) t) :
    ∃ before after, source = before ++ s.text ++ between source s t ++ (t.text ++ after) ∧
      s.extent.start = .ofPrefix before ∧ IsGap (between source s t) ∧
      t.extent.start = .ofPrefix (before ++ s.text ++ between source s t) ∧
      s.terminal.lexeme? (s.text ++ (between source s t ++ (t.text ++ after))) =
        some (s.text, between source s t ++ (t.text ++ after)) := by
  obtain ⟨before, gap, rest, hsource, -, -, hextent, hlexeme⟩ := hs.exists_append
  obtain ⟨front, gap', after, hsource', hprev, hgap', hextent', -⟩ := ht.exists_append
  have hstop : s.extent.stop = .ofPrefix front := hprev
  obtain ⟨rfl, rfl⟩ : before ++ gap ++ s.text = front ∧ rest = gap' ++ (t.text ++ after) := by
    refine append_inj_of_ofPrefix ?_ ?_
    · rw [List.append_assoc, ← hsource, hsource', List.append_assoc]
    · rw [← hstop, hextent]
  have hbetween : between source s t = gap' := by
    rw [hsource']
    exact between_of_append hstop (by rw [hextent'])
  rw [hbetween]
  exact ⟨before ++ gap, after, hsource', by rw [hextent], hgap', by rw [hextent'], hlexeme⟩

/-- A dot is followed by a name. -/
theorem IsReadBehind.name_of_dot {s t : Token} (h : IsReadBehind source (some s) t)
    (hs : s.terminal = .dot) : t.terminal = .name := by
  have hall : ∀ q ∈ statesBehind (some .dot), ∀ t ∈ (state q).accepted, t = .name := by
    decide +kernel
  obtain ⟨q, hq, _, _, _, -, -, hscan⟩ := h
  rw [Option.map_some, hs] at hq
  exact hall q hq _ (terminal_mem_of_scan hscan)

/-- **What stands behind a token of a type** does not go on with it. -/
theorem IsReadBehind.endsBefore {s t : Token} (h : IsReadBehind source (some s) t)
    {gap after : List Char} (hgap : IsGap gap)
    (hs : s.terminal.lexeme? (s.text ++ (gap ++ (t.text ++ after))) =
      some (s.text, gap ++ (t.text ++ after)))
    (ht : t.IsOfType) : ∀ c ∈ (gap ++ (t.text ++ after)).head?, s.terminal.EndsBefore c := by
  intro c hc
  constructor
  · intro hname
    rw [hname] at hs
    rw [(lexeme?_name hs).2] at hc
    have hstop := List.head?_dropWhile_not isNameChar (s.text ++ (gap ++ (t.text ++ after)))
    rw [hc] at hstop
    exact hstop
  · rintro hdot rfl
    rcases hgap.eq_nil_or_cons with rfl | ⟨d, more, rfl, hd⟩
    · obtain ⟨d, more, htext, hd, -⟩ := ht.isName (h.name_of_dot hdot)
      rw [htext] at hc
      cases hc
      cases hd
    · cases hc
      cases hd

/-- **Tokens of types that follow one another** in a source are a row of it. -/
theorem exists_row (h : parse source = .ok tree) {front ts others : List Token}
    (htokens : tokens source = front ++ (ts ++ others)) (hne : ts ≠ [])
    (hts : ∀ t ∈ ts, t.terminal ∈ typeTerminals) :
    ∃ before text after, source = before ++ text ++ after ∧ IsRow source text ts ∧
      extentOf ts = some ⟨.ofPrefix before, .ofPrefix (before ++ text)⟩ := by
  have hchain := isChain_of_parse h
  induction ts generalizing front with
  | nil => exact absurd rfl hne
  | cons t ts ih =>
    obtain ⟨ht, hmore⟩ := List.forall_mem_cons.mp hts
    have hread := hchain.isReadBehind htokens
    cases ts with
    | nil =>
      obtain ⟨before, gap, after, hsource, -, -, hextent, -⟩ := hread.exists_append
      rw [← List.append_assoc] at hsource
      refine ⟨before ++ gap, t.text, after, hsource, .last (hread.isOfType ht), ?_⟩
      exact extentOf_eq_some_iff.mpr ⟨t, t, rfl, rfl, hextent.symm⟩
    | cons u ts =>
      have hnext : tokens source = front ++ [t] ++ (u :: ts ++ others) := by simp [htokens]
      have hread' := hchain.isReadBehind hnext
      rw [List.getLast?_concat] at hread'
      obtain ⟨before', text, after', hsource', hrow, hextent'⟩ :=
        ih hnext (List.cons_ne_nil u ts) hmore
      obtain ⟨first, last, hfirst, hlast, heq⟩ := extentOf_eq_some_iff.mp hextent'
      cases hfirst
      obtain ⟨hstart', hstop'⟩ := Extent.mk.inj heq
      obtain ⟨before, after, hsource, hstart, hgap, hnextStart, hlexeme⟩ :=
        hread.exists_between hread'
      -- the row goes on from where the next token starts
      obtain ⟨rfl, hrest⟩ : before' = before ++ t.text ++ between source t u ∧
          text ++ after' = u.text ++ after := by
        refine append_inj_of_ofPrefix ?_ (hstart'.trans hnextStart)
        rw [← List.append_assoc, ← hsource', ← hsource]
      have hends := hread'.endsBefore hgap hlexeme
        (hread'.isOfType (List.forall_mem_cons.mp hmore).1)
      rw [← hrest, ← List.append_assoc, List.head?_append_of_ne_nil _
        (List.append_ne_nil_of_right_ne_nil _ hrow.ends.1)] at hends
      refine ⟨before, t.text ++ (between source t u ++ text), after', ?_,
        .cons (hread.isOfType ht) hgap hends hrow, ?_⟩
      · simpa only [List.append_assoc] using hsource'
      · refine extentOf_eq_some_iff.mpr ⟨t, last, rfl, by simpa using hlast, ?_⟩
        rw [hstart, ← hstop']
        simp only [List.append_assoc]

/-! ### Types that are told again -/

/-- A token without its place. -/
def Token.unplaced (t : Token) : Terminal × List Char :=
  (t.terminal, t.text)

/-- What is found in the text of a type that has some tokens in a source. -/
structure IsRetelling (source : List Char) (ts : List Token) (type : List Char) : Prop where
  /-- There are blanks and comments between the tokens. -/
  gaps : ts.IsChain fun s t => IsGap (between source s t)
  /-- The tokens up to the first line comment are found, each of them in one line. -/
  found : ∃ shown lost, ts = shown ++ lost ∧ shown ≠ [] ∧
    retold type = some (shown.map Token.inLine) ∧ shown.IsChain (IsUncut source) ∧
      ∀ s ∈ shown.getLast?, ∀ t ∈ lost.head?, ¬IsUncut source s t
  /-- They are the tokens of the type exactly if there is no line comment between these, and each of
  them is the same in one line. -/
  same : retold type = some (ts.map Token.unplaced) ↔
    ts.IsChain (IsUncut source) ∧ ∀ t ∈ ts, joined t.text = t.text

/-- **What is found in a row** that is put in one line. -/
theorem IsRow.isRetelling {text : List Char} {ts : List Token} (h : IsRow source text ts) :
    IsRetelling source ts (joined text) := by
  obtain ⟨-, hhead, hlast⟩ := h.ends
  obtain ⟨shown, lost, rfl, hne, hchain, hcut, hfound⟩ := h.retold .nil
  rw [List.nil_append, ← joined_eq_collapse hhead hlast] at hfound
  refine ⟨h.gaps, ⟨shown, lost, rfl, hne, hfound, hchain, hcut⟩, ?_⟩
  rw [hfound, Option.some_inj]
  constructor
  · intro hsame
    have hlength := congrArg List.length hsame
    simp only [List.length_map, List.length_append] at hlength
    obtain rfl : lost = [] := List.length_eq_zero_iff.mp (by omega)
    rw [List.append_nil] at hsame ⊢
    exact ⟨hchain, fun t ht => congrArg Prod.snd (List.map_inj_left.mp hsame t ht)⟩
  · rintro ⟨hall, hkept⟩
    cases lost with
    | nil =>
      rw [List.append_nil] at hkept ⊢
      exact List.map_inj_left.mpr fun t ht => Prod.ext rfl (hkept t ht)
    | cons t lost =>
      have hlastShown := List.getLast?_eq_some_getLast hne
      exact absurd ((List.isChain_append.mp hall).2.2 _ hlastShown t rfl)
        (hcut _ hlastShown t rfl)

/-- **The type of a field is a row**: its tokens stand for the node of the type, and its text is the
row in one line. -/
theorem exists_row_of_typeExtents (h : parse source = .ok tree) {e : Extent}
    (he : e ∈ tree.typeExtents) :
    (∃ children, .node .typeExpr (some e) children ∈ tree.subtrees ∧
      Tree.IsOver (e.tokens source) .typeExpr e children) ∧
      ∃ text, IsRow source text (e.tokens source) ∧ (typeText source e).toList = joined text := by
  obtain ⟨children, hnode⟩ := exists_typeExpr h e he
  obtain ⟨_, heq, hinfix, hover⟩ := exists_isOver h hnode (by simp)
  cases heq
  refine ⟨⟨children, hnode, hover⟩, ?_⟩
  obtain ⟨p, hp, hkind, hparts⟩ := hover.derives
  have hterminals : ∀ t ∈ e.tokens source, t.terminal ∈ typeTerminals := by
    refine hparts.terminal_mem (rhs_subset_typeSymbols hp ?_)
    have hlhs : ∀ p ∈ productions, p.kind = some .typeExpr → p.lhs = .typeExpr := by
      decide +kernel
    rw [hlhs p hp hkind]
    decide
  obtain ⟨front, others, hsplit⟩ := hinfix
  rw [List.append_assoc] at hsplit
  obtain ⟨before, text, after, hsource, hrow, hextent⟩ :=
    exists_row h hsplit.symm (hparts.ne_nil (rhs_ne_nil hp)) hterminals
  obtain rfl := Option.some.inj ((extentOf_eq_some_iff.mpr hover.ends).symm.trans hextent)
  refine ⟨text, hrow, ?_⟩
  rw [hsource, typeText_of_append, String.toList_ofList]

/-- **What is found in the text of the type of a field**, whose tokens stand for the node of the
type. -/
theorem isRetelling_typeText (h : parse source = .ok tree) {e : Extent}
    (he : e ∈ tree.typeExtents) :
    (∃ children, .node .typeExpr (some e) children ∈ tree.subtrees ∧
      Tree.IsOver (e.tokens source) .typeExpr e children) ∧
      IsRetelling source (e.tokens source) (typeText source e).toList := by
  obtain ⟨hnode, text, hrow, htext⟩ := exists_row_of_typeExtents h he
  rw [htext]
  exact ⟨hnode, hrow.isRetelling⟩

end Errata.Syntax
