import Errata.Proofs.Syntax.Declaration

/-!
# How names are spelled

A token that the scanner hands on as a name starts with a letter or a low line, and goes on with
letters, digits and low lines. The parser adds nothing to the tokens it is given, and so every name
in a parse tree, and every name that is read from one, is spelled like that.

* `IsName`: the texts that are spelled like names.
* `isSpelled_of_scan`: **the names that are scanned** are spelled like names.
* `Tree.IsSpelled`, `isSpelled_of_parse`: so are those in a parse tree.
* `Item.IsSpelled`, **`isSpelled_of_fileItems`**: so are those of the items of a file.
-/

namespace Errata.Syntax

/-! ### Tokens -/

/-- Whether a text is spelled like a name. -/
def IsName (text : List Char) : Prop :=
  ∃ first rest, text = first :: rest ∧ isNameStart first = true ∧
    ∀ c ∈ rest, isNameChar c = true

/-- The characters of names are those of the basic alphabet. -/
theorem toNat_lt_of_isNameChar {c : Char} (h : isNameChar c = true) : c.toNat < 128 := by
  have hranges : isNameChar c = (decide ('A'.val ≤ c.val ∧ c.val ≤ 'Z'.val) ||
      (decide ('a'.val ≤ c.val) && decide (c.val ≤ 'z'.val)) ||
      (decide ('0'.val ≤ c.val) && decide (c.val ≤ '9'.val)) || c == '_') := rfl
  simp only [hranges, Bool.or_eq_true, Bool.and_eq_true, decide_eq_true_eq, beq_iff_eq,
    UInt32.le_iff_toNat_le] at h
  rcases h with ((⟨-, h⟩ | ⟨-, h⟩) | ⟨-, h⟩) | rfl
  · exact Nat.lt_of_le_of_lt h (by decide)
  · exact Nat.lt_of_le_of_lt h (by decide)
  · exact Nat.lt_of_le_of_lt h (by decide)
  · decide

/-- What holds of the characters of names in the basic alphabet holds of all characters of names.
-/
theorem forall_isNameChar {P : Char → Prop}
    (h : ∀ n < 128, isNameChar (Char.ofNat n) = true → P (Char.ofNat n)) {c : Char}
    (hc : isNameChar c = true) : P c := by
  have hn := h c.toNat (toNat_lt_of_isNameChar hc)
  rw [Char.ofNat_toNat] at hn
  exact hn hc

/-- What may stand in a name is no white space. -/
theorem isBlank_of_isNameChar {c : Char} (h : isNameChar c = true) : Unicode.isBlank c = false :=
  forall_isNameChar (P := fun c => Unicode.isBlank c = false) (by decide) h

/-- A name has a first character. -/
theorem IsName.ne_nil {text : List Char} (h : IsName text) : text ≠ [] := by
  obtain ⟨first, rest, rfl, -, -⟩ := h
  exact List.cons_ne_nil first rest

/-- What a name consists of, character by character. -/
theorem IsName.isNameChar {text : List Char} (h : IsName text) :
    ∀ c ∈ text, Syntax.isNameChar c = true := by
  obtain ⟨first, rest, rfl, hfirst, hrest⟩ := h
  exact List.forall_mem_cons.mpr ⟨isNameChar_of_isNameStart hfirst, hrest⟩

/-- No white space stands in a name. -/
theorem IsName.isBlank {text : List Char} (h : IsName text) :
    ∀ c ∈ text, Unicode.isBlank c = false :=
  fun c hc => isBlank_of_isNameChar (h.isNameChar c hc)

/-- Whether a token is spelled like what it is: a name like one, and the dots of a relative path
like dots. -/
structure Token.IsSpelled (t : Token) : Prop where
  /-- A name is spelled like one. -/
  name : t.terminal = .name → IsName t.text
  /-- The dots are dots, and there is one. -/
  dots : t.terminal = .relative → (∀ c ∈ t.text, c = '.') ∧ t.text ≠ []

/-- The lexeme of a name is spelled like one. -/
theorem isName_of_lexeme? {chars lexeme rest : List Char}
    (h : Terminal.name.lexeme? chars = some (lexeme, rest)) : IsName lexeme := by
  cases chars with
  | nil => cases h
  | cons c chars =>
    simp only [Terminal.lexeme?] at h
    split at h
    · next hc =>
      cases h
      refine ⟨c, chars.takeWhile isNameChar,
        List.takeWhile_cons_of_pos (isNameChar_of_isNameStart hc), hc, fun d hd => ?_⟩
      exact List.all_eq_true.mp List.all_takeWhile d hd
    · cases h

/-- The lexeme of the dots of a relative path consists of dots, and of one at least. -/
theorem forall_dot_of_lexeme? {chars lexeme rest : List Char}
    (h : Terminal.relative.lexeme? chars = some (lexeme, rest)) :
    (∀ c ∈ lexeme, c = '.') ∧ lexeme ≠ [] := by
  simp only [Terminal.lexeme?, spanNonempty] at h
  split at h
  · cases h
  · next hne =>
    cases h
    refine ⟨fun c hc => ?_, by simpa using hne⟩
    simpa using List.all_eq_true.mp List.all_takeWhile c hc

/-- A lexeme is known for a terminal without a fixed text only if it was found for it: what another
one is wider than has a fixed text. -/
theorem eq_of_narrowed {accepted : List Terminal} {s t : Terminal} {lexeme : List Char}
    (ht : t.fixedText? = none) (h : narrowed accepted s lexeme = t) : s = t := by
  unfold narrowed at h
  cases hfound : accepted.find? fun r => r.wider? = some s && r.fixedText? = some lexeme with
  | none =>
    rw [hfound] at h
    exact h
  | some r =>
    rw [hfound] at h
    obtain rfl : r = t := h
    have hfixed := List.find?_some hfound
    simp [ht] at hfixed

/-- The first token of a text is spelled like what it is. -/
theorem isSpelled_of_firstToken {accepted : List Terminal} {position : Position}
    {chars rest : List Char} {t : Token}
    (h : firstToken accepted position chars = some (t, rest)) : t.IsSpelled := by
  obtain ⟨before, terminal, after, -, hfound, -⟩ := List.findSome?_eq_some_iff.mp h
  obtain ⟨⟨lexeme, rest'⟩, hlexeme, heq⟩ := Option.map_eq_some_iff.mp hfound
  cases heq
  constructor
  · intro hname
    rw [eq_of_narrowed rfl hname] at hlexeme
    exact isName_of_lexeme? hlexeme
  · intro hdots
    rw [eq_of_narrowed rfl hdots] at hlexeme
    exact forall_dot_of_lexeme? hlexeme

/-- **A scanned token is spelled like what it is.** -/
theorem isSpelled_of_scan {accepted : List Terminal} {position : Position} {chars rest : List Char}
    {t : Token} (h : scan accepted position chars = .token t rest) : t.IsSpelled := by
  unfold scan at h
  split at h
  · cases h
  · split at h
    · next hfirst =>
      cases h
      exact isSpelled_of_firstToken hfirst
    · split at h <;> cases h

/-! ### Trees -/

/-- A tree is spelled well if every token in it is spelled like what it is. -/
inductive Tree.IsSpelled : Tree → Prop where
  /-- A token is if it is spelled like what it is. -/
  | leaf {t : Token} (spelled : t.IsSpelled) : IsSpelled (.leaf t)
  /-- A node is if its children are. -/
  | node {kind : Kind} {extent : Option Extent} {children : List Tree}
      (inside : ∀ tree ∈ children, tree.IsSpelled) : IsSpelled (.node kind extent children)

/-- The children of a node that is spelled well. -/
theorem Tree.IsSpelled.of_node {kind : Kind} {extent : Option Extent} {children : List Tree}
    (h : (Tree.node kind extent children).IsSpelled) : ∀ tree ∈ children, tree.IsSpelled := by
  cases h with
  | node inside => exact inside

/-- A configuration is spelled well if the next token and all trees on the stack are. -/
structure Config.IsSpelled (c : Config) : Prop where
  /-- The next token is. -/
  lookahead : ∀ t, c.lookahead = some (some t) → t.IsSpelled
  /-- The trees on the stack are. -/
  stack : ∀ frame ∈ c.stack, ∀ tree ∈ frame.fragment.children, tree.IsSpelled

/-- The trees of a fragment that is put together are those of its parts, or have them for
children. -/
theorem isSpelled_combine {kind : Option Kind} {parts : List Fragment}
    (h : ∀ part ∈ parts, ∀ tree ∈ part.children, tree.IsSpelled) :
    ∀ tree ∈ (Fragment.combine kind parts).children, tree.IsSpelled := by
  have hinside : ∀ tree ∈ parts.flatMap Fragment.children, tree.IsSpelled := by
    intro tree hm
    obtain ⟨part, hpart, hm⟩ := List.mem_flatMap.mp hm
    exact h part hpart tree hm
  cases kind with
  | none => exact hinside
  | some kind =>
    intro tree hm
    rw [List.mem_singleton.mp hm]
    exact .node hinside

/-- Every step keeps a configuration spelled well. -/
theorem Effect.isSpelled {c d : Config} (h : Effect c (.next d)) (hc : c.IsSpelled) :
    d.IsSpelled := by
  cases h with
  | read hl hscan =>
    refine ⟨?_, hc.stack⟩
    rintro _ ⟨⟩
    exact isSpelled_of_scan hscan
  | readEnd => exact ⟨nofun, hc.stack⟩
  | @reduce lookahead k target p front rest hl hk hp hstack hsymbols hgoto =>
    refine ⟨hc.lookahead, ?_⟩
    have hbelow := hc.stack
    rw [hstack] at hbelow
    rintro frame (_ | ⟨_, hm⟩)
    · refine isSpelled_combine fun part hpart => ?_
      obtain ⟨frame, hframe, rfl⟩ := List.mem_map.mp (List.mem_reverse.mp hpart)
      exact hbelow frame (List.mem_append_left _ hframe)
    · exact hbelow frame (List.mem_append_right _ hm)
  | @shift t target hl hk hshift =>
    refine ⟨nofun, ?_⟩
    rintro frame (_ | ⟨_, hm⟩)
    · intro tree htree
      obtain rfl : tree = .leaf t := by
        by_cases hkept : t.terminal.isKept = true <;> simp_all [Fragment.ofToken]
      exact .leaf (hc.lookahead t hl)
    · exact hc.stack frame hm

/-- **Every token in a parse tree is spelled like what it is.** -/
theorem isSpelled_of_parse {source : List Char} {tree : Tree} (h : parse source = .ok tree) :
    tree.IsSpelled := by
  have hinitial : (Config.initial source).IsSpelled := ⟨nofun, by simp [Config.initial]⟩
  obtain ⟨d, -, hd, heffect⟩ := exists_done_of_parse (fun _ heffect hc => heffect.isSpelled hc)
    hinitial h
  cases heffect with
  | acceptEmpty => exact .node (by simp)
  | accept hl hstack =>
    exact hd.stack _ (hstack ▸ List.mem_singleton_self _) tree (List.mem_singleton_self tree)

/-! ### Items -/

/-- The tokens of a terminal are leaves among the trees. -/
theorem mem_tokens {terminal : Terminal} {trees : List Tree} {t : Token} :
    t ∈ Tree.tokens terminal trees ↔ .leaf t ∈ trees ∧ t.terminal = terminal := by
  unfold Tree.tokens
  rw [List.mem_filterMap]
  constructor
  · rintro ⟨tree, hm, heq⟩
    cases tree with
    | node => cases heq
    | leaf t' =>
      dsimp only at heq
      split at heq
      · next hterminal =>
        cases heq
        exact ⟨hm, hterminal⟩
      · cases heq
  · rintro ⟨hm, hterminal⟩
    exact ⟨.leaf t, hm, by simp [hterminal]⟩

/-- The names among trees that are spelled well. -/
theorem isName_of_mem_tokens {trees : List Tree} (h : ∀ tree ∈ trees, tree.IsSpelled) {t : Token}
    (hm : t ∈ Tree.tokens .name trees) : IsName t.text := by
  obtain ⟨hm, hname⟩ := mem_tokens.mp hm
  cases h _ hm with
  | leaf spelled => exact spelled.name hname

/-- Whether the names of a declaration and of its variants are spelled like names. -/
structure Declaration.IsSpelled (d : Declaration) : Prop where
  /-- Its own name is. -/
  name : IsName d.name.text
  /-- Those of its variants are. -/
  variants : ∀ vs, d.body = .variants vs → ∀ v ∈ vs, IsName v.name.text

/-- Whether the names of declarations, and those that imported modules go by, are spelled like
names. -/
def Item.IsSpelled : Item → Prop
  | importModule path _ _ => path ≠ [] ∧ ∀ name ∈ path, IsName name.toList
  | importNames .. => True
  | declaration d => d.IsSpelled

/-- The name of a variant is spelled like one. -/
theorem isName_of_variant? {source : List Char} {extent : Option Extent} {children : List Tree}
    (hs : ∀ tree ∈ children, tree.IsSpelled) {v : Variant}
    (h : variant? source (extent, children) = some v) : IsName v.name.text := by
  cases extent with
  | none => cases h
  | some extent =>
    obtain ⟨attributes, -, h⟩ := Option.bind_eq_some_iff.mp h
    obtain ⟨name, hname, h⟩ := Option.bind_eq_some_iff.mp h
    obtain ⟨shape, -, h⟩ := Option.bind_eq_some_iff.mp h
    cases h
    exact isName_of_mem_tokens hs (List.mem_of_mem_head? hname)

/-- The names of the variants in a body are spelled like names. -/
theorem isName_of_body? {source : List Char} {children : List Tree}
    (hs : ∀ tree ∈ children, tree.IsSpelled) {vs : List Variant}
    (h : body? source children = some (.variants vs)) : ∀ v ∈ vs, IsName v.name.text := by
  unfold body? at h
  split at h
  · cases h
  · next extent body _ _ hbody =>
    have hbody : (extent, body) ∈ Tree.nodes .braceBody children := hbody ▸ List.mem_cons_self
    obtain ⟨vs', hvs, heq⟩ := Option.map_eq_some_iff.mp h
    cases heq
    intro v hv
    obtain ⟨⟨e, inside⟩, hinside, hread⟩ := exists_of_mem_mapM hvs hv
    exact isName_of_variant? ((hs _ (mem_nodes.mp hbody)).of_node _ (mem_nodes.mp hinside)).of_node
      hread
  · cases h

/-- Where the name and the body of a declaration are read. -/
theorem declaration?_eq_some {source : List Char} {extent : Extent} {children : List Tree}
    {d : Declaration} (h : declaration? source extent children = some d) :
    (Tree.tokens .name children).head? = some d.name ∧ body? source children = some d.body := by
  obtain ⟨⟨_, word⟩, -, h⟩ := Option.bind_eq_some_iff.mp h
  obtain ⟨kind, h⟩ : ∃ kind, (do
      let name ← (Tree.tokens .name children).head?
      let attributes ← outerAttributes? children
      let body ← body? source children
      let innerAttributes := Tree.spansWithin.spansWithinAll .innerAttribute children
      return ⟨kind, name, attributes, innerAttributes, body, extent.span⟩) = some d := by
    dsimp only at h
    split at h
    · exact ⟨_, h⟩
    · cases h
  obtain ⟨name, hname, h⟩ := Option.bind_eq_some_iff.mp h
  obtain ⟨attributes, -, h⟩ := Option.bind_eq_some_iff.mp h
  obtain ⟨body, hbody, h⟩ := Option.bind_eq_some_iff.mp h
  cases h
  exact ⟨hname, hbody⟩

/-- The names of a declaration are spelled like names. -/
theorem isSpelled_of_declaration? {source : List Char} {extent : Extent} {children : List Tree}
    (hs : ∀ tree ∈ children, tree.IsSpelled) {d : Declaration}
    (h : declaration? source extent children = some d) : d.IsSpelled := by
  obtain ⟨hname, hbody⟩ := declaration?_eq_some h
  refine ⟨isName_of_mem_tokens hs (List.mem_of_mem_head? hname), ?_⟩
  intro vs hvs
  exact isName_of_body? hs (hvs ▸ hbody)

/-- The names that an imported module goes by are spelled like names. -/
theorem isSpelled_of_importModule? {extent : Extent} {children : List Tree}
    (hw : ∀ tree ∈ children, tree.IsWellFormed) (hs : ∀ tree ∈ children, tree.IsSpelled)
    {item : Item} (h : importModule? extent children = some item) : item.IsSpelled := by
  obtain ⟨⟨pathExtent, path⟩, hpath, h⟩ := Option.bind_eq_some_iff.mp h
  cases h
  have hm := List.mem_of_mem_head? hpath
  obtain ⟨e, inside, heq, hholds, -⟩ := exists_of_mem_nodes hw hm
  cases heq
  refine ⟨by simpa [Tree.names, Kind.Holds] using hholds, fun name hname => ?_⟩
  obtain ⟨t, ht, rfl⟩ := List.mem_map.mp hname
  rw [String.toList_ofList]
  exact isName_of_mem_tokens (hs _ (mem_nodes.mp hm)).of_node ht

/-- The names of an item are spelled like names. -/
theorem isSpelled_of_ofTree {source : List Char} {tree : Tree} (hw : tree.IsWellFormed)
    (hs : tree.IsSpelled) {item : Item} (h : Item.ofTree source tree = .ok item) :
    item.IsSpelled := by
  obtain ⟨extent, children, ⟨rfl, hread⟩ | ⟨rfl, hread⟩ | ⟨d, rfl, hd, rfl⟩⟩ := ofTree_cases h
  · exact isSpelled_of_importModule? hw.of_node.2.2 hs.of_node hread
  · obtain ⟨origin, -, hread⟩ := Option.bind_eq_some_iff.mp hread
    obtain ⟨names, -, hread⟩ := Option.bind_eq_some_iff.mp hread
    cases hread
    trivial
  · exact isSpelled_of_declaration? hs.of_node hd

/-- **The names of the items of a parsed file are spelled like names.** -/
theorem isSpelled_of_fileItems {source : List Char} {tree : Tree} (hparse : parse source = .ok tree)
    {items : List Item} (h : fileItems source tree = .ok items) :
    ∀ item ∈ items, item.IsSpelled := by
  intro item hm
  obtain ⟨extent, before, node, after, rfl, hread⟩ := exists_node_of_fileItems h hm
  have hmem : node ∈ before ++ node :: after := by simp
  rcases isWellFormed_of_parse hparse with hnone | ⟨hw, -⟩
  · simp at hnone
  · exact isSpelled_of_ofTree (hw.of_node.2.2 node hmem)
      ((isSpelled_of_parse hparse).of_node node hmem) hread

end Errata.Syntax
