import Errata.Proofs.Syntax.Derivation
import Errata.Proofs.Syntax.Spelling
import Errata.Proofs.Syntax.Within
import Errata.Proofs.Text.Blank
import Errata.Proofs.Text.Control

/-!
# How fields and imports are worded

The names of fields, and all that an import consists of, are spelled like names. A type is put
together from the words of the source text, with single blanks between them. So what an item says
of a field or an import can be written in one line. An import also says all that it has to say. No
token of a file spans a line feed, so whatever is quoted from one stands in one line as well.

* `IsOneLine`: texts in which no white space other than blanks stands.
* `isOneLine_typeText`: the text of a type is one.
* `Item.IsWorded`, **`isWorded_of_fileItems`**: how the items of a file are worded.
* `Item.IsComplete`, **`isComplete_of_fileItems`**: imports that say what they import, as those of a
  parsed file do.
* `SyntaxError.isUnbroken_of_parse`: **what is said of a text that cannot be parsed.**
* `Attribute.IsInLine`, `Declaration.IsInLine`: attributes and declarations of which every token
  stands in one line.
* **`isInLine_of_fileItems`**: those of a parsed file.
-/

/-! ## Names and types -/

namespace Errata.Syntax

/-! ### Lines -/

/-- Whether a text stands in one line: the only white space in it are blanks. -/
def IsOneLine (text : String) : Prop :=
  ∀ c ∈ text.toList, Unicode.isBlank c = true → c = ' '

instance (text : String) : Decidable (IsOneLine text) :=
  List.decidableBAll _ _

/-- Two texts stand in one line. -/
theorem IsOneLine.append {a b : String} (ha : IsOneLine a) (hb : IsOneLine b) :
    IsOneLine (a ++ b) := by
  intro c hc
  rw [String.toList_append] at hc
  rcases List.mem_append.mp hc with hc | hc
  · exact ha c hc
  · exact hb c hc

/-- A character of texts with another one between them stands in one of them. -/
theorem mem_or_of_mem_intercalate {separator : List Char} {texts : List (List Char)} {c : Char}
    (h : c ∈ separator.intercalate texts) : c ∈ separator ∨ ∃ text ∈ texts, c ∈ text := by
  induction texts with
  | nil => simp at h
  | cons first texts ih =>
    cases texts with
    | nil => exact Or.inr ⟨first, List.mem_singleton_self first, by simpa using h⟩
    | cons second texts =>
      rw [List.intercalate_cons_cons] at h
      rcases List.mem_append.mp h with h | h
      · rcases List.mem_append.mp h with h | h
        · exact Or.inr ⟨first, List.mem_cons_self, h⟩
        · exact Or.inl h
      · rcases ih h with h | ⟨text, htext, h⟩
        · exact Or.inl h
        · exact Or.inr ⟨text, List.mem_cons_of_mem _ htext, h⟩

/-- Texts with another one between them stand in one line. -/
theorem isOneLine_intercalate {separator : String} {texts : List String}
    (hseparator : IsOneLine separator) (h : ∀ text ∈ texts, IsOneLine text) :
    IsOneLine (separator.intercalate texts) := by
  intro c hc
  rw [String.toList_intercalate] at hc
  rcases mem_or_of_mem_intercalate hc with hc | ⟨chars, hchars, hc⟩
  · exact hseparator c hc
  · obtain ⟨text, htext, rfl⟩ := List.mem_map.mp hchars
    exact h text htext c hc

/-- A name stands in one line. -/
theorem IsName.isOneLine {name : String} (h : IsName name.toList) : IsOneLine name := by
  intro c hc hblank
  rw [h.isBlank c hc] at hblank
  cases hblank

/-- The text of a type stands in one line. -/
theorem isOneLine_typeText (source : List Char) (extent : Extent) :
    IsOneLine (typeText source extent) := by
  apply isOneLine_intercalate (by decide)
  intro word hword
  obtain ⟨run, hrun, rfl⟩ := List.mem_map.mp hword
  obtain ⟨-, hrun⟩ := List.mem_filter.mp hrun
  intro c hc hblank
  rw [String.toList_ofList] at hc
  simp only [Bool.not_eq_true', List.any_eq_false] at hrun
  exact absurd hblank (hrun c hc)

/-! ### Items -/

/-- Whether the name of a field is spelled like one and its type stands in one line. -/
structure Field.IsWorded (f : Field) : Prop where
  /-- Its name is spelled like one. -/
  name : IsName f.name.text
  /-- Its type stands in one line. -/
  type : ∀ t, f.type = some t → IsOneLine t

/-- How items are worded: the names in an import are spelled like names, and the fields in a
declaration are worded well. -/
def Item.IsWorded : Item → Prop
  | importModule path newName _ =>
    (∀ name ∈ path, IsName name.toList) ∧ ∀ name ∈ newName, IsName name.toList
  | importNames dots path names _ =>
    (∀ c ∈ dots.toList, c = '.') ∧ (∀ name ∈ path, IsName name.toList) ∧
      ∀ p ∈ names, IsName p.1.toList ∧ ∀ name ∈ p.2, IsName name.toList
  | declaration d => ∀ vs, d.body = .variants vs → ∀ v ∈ vs, ∀ fs, v.shape = .named fs →
      ∀ f ∈ fs, f.IsWorded

/-- The names among trees that are spelled well. -/
theorem isName_of_mem_names {trees : List Tree} (h : ∀ tree ∈ trees, tree.IsSpelled) {name : String}
    (hm : name ∈ Tree.names trees) : IsName name.toList := by
  obtain ⟨t, ht, rfl⟩ := List.mem_map.mp hm
  rw [String.toList_ofList]
  exact isName_of_mem_tokens h ht

/-- What is inside a node among trees that are spelled well. -/
theorem isSpelled_of_mem_nodes {kind : Kind} {trees : List Tree}
    (h : ∀ tree ∈ trees, tree.IsSpelled) {p : Option Extent × List Tree}
    (hm : p ∈ Tree.nodes kind trees) : ∀ tree ∈ p.2, tree.IsSpelled :=
  (h _ (mem_nodes.mp hm)).of_node

/-- A field that is read is worded well. -/
theorem isWorded_of_field? {source : List Char} {p : Option Extent × List Tree}
    (hs : ∀ tree ∈ p.2, tree.IsSpelled) {f : Field} (h : field? source p = some f) :
    f.IsWorded := by
  obtain ⟨extent, children⟩ := p
  cases extent with
  | none => cases h
  | some extent =>
    obtain ⟨attributes, -, h⟩ := Option.bind_eq_some_iff.mp h
    obtain ⟨name, hname, h⟩ := Option.bind_eq_some_iff.mp h
    have hworded : IsName name.text := isName_of_mem_tokens hs (List.mem_of_mem_head? hname)
    dsimp only at h
    split at h
    · cases h
      exact ⟨hworded, nofun⟩
    · split at h
      · cases h
        refine ⟨hworded, ?_⟩
        rintro _ ⟨⟩
        exact isOneLine_typeText source _
      · cases h

/-- The fields of a variant that is read are worded well. -/
theorem isWorded_of_variant? {source : List Char} {p : Option Extent × List Tree}
    (hs : ∀ tree ∈ p.2, tree.IsSpelled) {v : Variant} (h : variant? source p = some v) :
    ∀ fs, v.shape = .named fs → ∀ f ∈ fs, f.IsWorded := by
  obtain ⟨extent, children⟩ := p
  cases extent with
  | none => cases h
  | some extent =>
    obtain ⟨attributes, -, h⟩ := Option.bind_eq_some_iff.mp h
    obtain ⟨name, -, h⟩ := Option.bind_eq_some_iff.mp h
    obtain ⟨shape, hshape, h⟩ := Option.bind_eq_some_iff.mp h
    cases h
    rintro fs rfl f hf
    unfold shape? at hshape
    split at hshape
    · cases hshape
    · cases hshape
    · next body _ _ _ hbody =>
      obtain ⟨fs', hfs, heq⟩ := Option.map_eq_some_iff.mp hshape
      cases heq
      obtain ⟨inside, hinside, hread⟩ := exists_of_mem_mapM hfs hf
      have hbody : ∀ tree ∈ body, tree.IsSpelled :=
        isSpelled_of_mem_nodes hs (hbody ▸ List.mem_cons_self)
      exact isWorded_of_field? (isSpelled_of_mem_nodes hbody hinside) hread
    · cases hshape

/-- The fields of a declaration that is read are worded well. -/
theorem isWorded_of_declaration? {source : List Char} {extent : Extent} {children : List Tree}
    (hs : ∀ tree ∈ children, tree.IsSpelled) {d : Declaration}
    (h : declaration? source extent children = some d) : (Item.declaration d).IsWorded := by
  obtain ⟨-, hbody⟩ := declaration?_eq_some h
  intro vs hvs v hv
  rw [hvs] at hbody
  unfold body? at hbody
  split at hbody
  · cases hbody
  · next body _ _ hbrace =>
    obtain ⟨vs', hvs', heq⟩ := Option.map_eq_some_iff.mp hbody
    cases heq
    obtain ⟨inside, hinside, hread⟩ := exists_of_mem_mapM hvs' hv
    have hbrace : ∀ tree ∈ body, tree.IsSpelled :=
      isSpelled_of_mem_nodes hs (hbrace ▸ List.mem_cons_self)
    exact isWorded_of_variant? (isSpelled_of_mem_nodes hbrace hinside) hread
  · cases hbody

/-- The import of a module that is read is worded well. -/
theorem isWorded_of_importModule? {extent : Extent} {children : List Tree}
    (hs : ∀ tree ∈ children, tree.IsSpelled) {item : Item}
    (h : importModule? extent children = some item) : item.IsWorded := by
  obtain ⟨path, hpath, h⟩ := Option.bind_eq_some_iff.mp h
  cases h
  have hpath := isSpelled_of_mem_nodes hs (List.mem_of_mem_head? hpath)
  exact ⟨fun name hm => isName_of_mem_names hpath hm,
    fun name hm => isName_of_mem_names hs (List.mem_of_mem_head? hm)⟩

/-- An imported name that is read is worded well. -/
theorem isName_of_importedName? {children : List Tree} (hs : ∀ tree ∈ children, tree.IsSpelled)
    {p : String × Option String} (h : importedName? children = some p) :
    IsName p.1.toList ∧ ∀ name ∈ p.2, IsName name.toList := by
  unfold importedName? at h
  split at h
  · cases h
  · next name rest hnames =>
    cases h
    have hmem : ∀ n ∈ name :: rest, IsName n.toList := by
      intro n hn
      exact isName_of_mem_names hs (hnames ▸ hn)
    exact ⟨hmem name List.mem_cons_self,
      fun n hn => hmem n (List.mem_cons_of_mem _ (List.mem_of_mem_head? hn))⟩

/-- The import of names that is read is worded well. -/
theorem isWorded_of_importNames? {extent : Extent} {children : List Tree}
    (hs : ∀ tree ∈ children, tree.IsSpelled) {item : Item}
    (h : importNames? extent children = some item) : item.IsWorded := by
  obtain ⟨origin, horigin, h⟩ := Option.bind_eq_some_iff.mp h
  obtain ⟨names, hnames, h⟩ := Option.bind_eq_some_iff.mp h
  cases h
  have horigin := isSpelled_of_mem_nodes hs (List.mem_of_mem_head? horigin)
  refine ⟨?_, ?_, ?_⟩
  · cases hdots : (Tree.tokens .relative origin.2).head? with
    | none => simp
    | some t =>
      obtain ⟨hmem, hrelative⟩ := mem_tokens.mp (List.mem_of_mem_head? hdots)
      simp only [Option.map_some, Option.getD_some, String.toList_ofList]
      cases horigin _ hmem with
      | leaf spelled => exact (spelled.dots hrelative).1
  · cases hpath : (Tree.nodes .dottedName origin.2).head? with
    | none => simp
    | some path =>
      have hinside := isSpelled_of_mem_nodes horigin (List.mem_of_mem_head? hpath)
      exact fun name hm => isName_of_mem_names hinside hm
  · intro p hp
    obtain ⟨inside, hinside, hread⟩ := exists_of_mem_mapM hnames hp
    exact isName_of_importedName? (isSpelled_of_mem_nodes hs hinside) hread

/-- An item that is read is worded well. -/
theorem isWorded_of_ofTree {source : List Char} {tree : Tree} (hs : tree.IsSpelled) {item : Item}
    (h : Item.ofTree source tree = .ok item) : item.IsWorded := by
  obtain ⟨extent, children, ⟨rfl, hread⟩ | ⟨rfl, hread⟩ | ⟨d, rfl, hd, rfl⟩⟩ := ofTree_cases h
  · exact isWorded_of_importModule? hs.of_node hread
  · exact isWorded_of_importNames? hs.of_node hread
  · exact isWorded_of_declaration? hs.of_node hd

/-- **The items of a parsed file are worded well.** -/
theorem isWorded_of_fileItems {source : List Char} {tree : Tree} (hparse : parse source = .ok tree)
    {items : List Item} (h : fileItems source tree = .ok items) :
    ∀ item ∈ items, item.IsWorded := by
  intro item hm
  obtain ⟨extent, before, node, after, rfl, hread⟩ := exists_node_of_fileItems h hm
  exact isWorded_of_ofTree ((isSpelled_of_parse hparse).of_node node (by simp)) hread

end Errata.Syntax

/-! ## What imports say

An import of a module has the path of a module. An import of names has names, and the module that
they come from has a path or dots in front of it. The grammar says so, and so the items that are
read from parse trees are like that.
-/

namespace Errata.Syntax

/-- Whether an import says what it imports: a module by its path, or names from a module that has a
path or dots in front of it. -/
def Item.IsComplete : Item → Prop
  | importModule path _ _ => path ≠ []
  | importNames dots path names _ => (dots = "" → path ≠ []) ∧ names ≠ []
  | declaration _ => True

/-! ### Parts of nodes -/

/-- A token that a production hands on is found in its node. -/
theorem tokens_ne_nil_of_derives {symbols : List Symbol} {ts : List Token} {trees : List Tree}
    (h : DerivesAll symbols ts trees) {terminal : Terminal} (hkept : terminal.isKept = true)
    (hs : .t terminal ∈ symbols) : Tree.tokens terminal trees ≠ [] := by
  obtain ⟨_, part, hpart, hderives⟩ := h.exists_of_mem hs
  obtain ⟨t, ht, rfl⟩ := hderives.exists_leaf hkept
  exact List.ne_nil_of_mem (mem_tokens.mpr ⟨hpart _ (List.mem_singleton_self _), ht⟩)

/-- A node that a production hands on is found in its node. -/
theorem nodes_ne_nil_of_derives {symbols : List Symbol} {ts : List Token} {trees : List Tree}
    (h : DerivesAll symbols ts trees) {x : Nonterminal} {kind : Kind}
    (hx : ∀ p ∈ productions, p.lhs = x → p.kind = some kind) (hs : .n x ∈ symbols) :
    Tree.nodes kind trees ≠ [] := by
  obtain ⟨_, part, hpart, hderives⟩ := h.exists_of_mem hs
  obtain ⟨extent, children, rfl⟩ := hderives.exists_node hx
  exact List.ne_nil_of_mem (mem_nodes.mpr (hpart _ (List.mem_singleton_self _)))

/-- A path has components. -/
theorem names_ne_nil_of_dottedName {extent : Option Extent} {children : List Tree}
    (h : (Tree.node .dottedName extent children).IsDerived) : Tree.names children ≠ [] := by
  obtain ⟨⟨p, hp, hkind, _, parts⟩, -⟩ := h.of_node
  have hname : ∀ p ∈ productions, p.kind = some .dottedName → .t .name ∈ p.rhs := by
    decide
  simpa [Tree.names] using tokens_ne_nil_of_derives parts rfl (hname p hp hkind)

/-- The module that names come from has dots or a path. -/
theorem dots_or_path_of_moduleRef {extent : Option Extent} {children : List Tree}
    (h : (Tree.node .moduleRef extent children).IsDerived) :
    Tree.tokens .relative children ≠ [] ∨ Tree.nodes .dottedName children ≠ [] := by
  obtain ⟨⟨p, hp, hkind, _, parts⟩, -⟩ := h.of_node
  have hsymbols : ∀ p ∈ productions, p.kind = some .moduleRef →
      .t .relative ∈ p.rhs ∨ .n .dottedName ∈ p.rhs := by
    decide
  rcases hsymbols p hp hkind with hs | hs
  · exact Or.inl (tokens_ne_nil_of_derives parts rfl hs)
  · exact Or.inr (nodes_ne_nil_of_derives parts (by decide) hs)

/-- An import of names has names. -/
theorem aliases_ne_nil_of_fromImport {extent : Option Extent} {children : List Tree}
    (h : (Tree.node .fromImport extent children).IsDerived) :
    Tree.nodes .importAlias children ≠ [] := by
  obtain ⟨⟨p, hp, hkind, _, parts⟩, -⟩ := h.of_node
  have hnames : ∀ p ∈ productions, p.kind = some .fromImport → .n .importNames ∈ p.rhs := by
    decide
  obtain ⟨_, part, hpart, hderives⟩ := parts.exists_of_mem (hnames p hp hkind)
  obtain ⟨q, hq, hlhs, parts⟩ := hderives.exists_rhs (by decide)
  have halias : ∀ p ∈ productions, p.lhs = .importNames → .n .importAlias ∈ p.rhs := by
    decide
  obtain ⟨_, part', hpart', hderives⟩ := parts.exists_of_mem (halias q hq hlhs)
  have hkind : ∀ p ∈ productions, p.lhs = .importAlias → p.kind = some .importAlias := by
    decide
  obtain ⟨extent, inside, rfl⟩ := hderives.exists_node hkind
  exact List.ne_nil_of_mem
    (mem_nodes.mpr (hpart _ (hpart' _ (List.mem_singleton_self _))))

/-! ### Items -/

/-- The import of a module that is read is complete. -/
theorem isComplete_of_importModule? {extent : Extent} {children : List Tree}
    (hd : ∀ tree ∈ children, tree.IsDerived) {item : Item}
    (h : importModule? extent children = some item) : item.IsComplete := by
  obtain ⟨path, hpath, h⟩ := Option.bind_eq_some_iff.mp h
  cases h
  exact names_ne_nil_of_dottedName (hd _ (mem_nodes.mp (List.mem_of_mem_head? hpath)))

/-- The import of names that is read is complete. -/
theorem isComplete_of_importNames? {extent : Extent} {children : List Tree}
    (hd : (Tree.node .fromImport (some extent) children).IsDerived)
    (hs : ∀ tree ∈ children, tree.IsSpelled) {item : Item}
    (h : importNames? extent children = some item) : item.IsComplete := by
  obtain ⟨⟨originExtent, origin⟩, horigin, h⟩ := Option.bind_eq_some_iff.mp h
  obtain ⟨names, hnames, h⟩ := Option.bind_eq_some_iff.mp h
  cases h
  have horigin := mem_nodes.mp (List.mem_of_mem_head? horigin)
  have hderived := hd.of_node.2 _ horigin
  constructor
  · intro hnone
    rcases dots_or_path_of_moduleRef hderived with hdots | hpath
    · obtain ⟨t, ht⟩ := exists_head hdots
      obtain ⟨hmem, hrelative⟩ := mem_tokens.mp (List.mem_of_mem_head? ht)
      cases (hs _ horigin).of_node _ hmem with
      | leaf spelled =>
        simp only [ht, Option.map_some, Option.getD_some, String.ofList_eq_empty_iff] at hnone
        exact absurd hnone (spelled.dots hrelative).2
    · obtain ⟨path, hhead⟩ := exists_head hpath
      rw [hhead]
      exact names_ne_nil_of_dottedName
        (hderived.of_node.2 _ (mem_nodes.mp (List.mem_of_mem_head? hhead)))
  · rintro rfl
    obtain ⟨p, rest, hp⟩ := List.exists_cons_of_ne_nil (aliases_ne_nil_of_fromImport hd)
    rw [hp, List.mapM_cons] at hnames
    obtain ⟨_, -, hnames⟩ := Option.bind_eq_some_iff.mp hnames
    obtain ⟨_, -, hnames⟩ := Option.bind_eq_some_iff.mp hnames
    cases hnames

/-- An item that is read from a derived tree is complete. -/
theorem isComplete_of_ofTree {source : List Char} {tree : Tree} (hd : tree.IsDerived)
    (hs : tree.IsSpelled) {item : Item} (h : Item.ofTree source tree = .ok item) :
    item.IsComplete := by
  obtain ⟨extent, children, ⟨rfl, hread⟩ | ⟨rfl, hread⟩ | ⟨d, rfl, -, rfl⟩⟩ := ofTree_cases h
  · exact isComplete_of_importModule? hd.of_node.2 hread
  · exact isComplete_of_importNames? hd hs.of_node hread
  · trivial

/-- **The imports of a parsed file are complete.** -/
theorem isComplete_of_fileItems {source : List Char} {tree : Tree}
    (hparse : parse source = .ok tree)
    {items : List Item} (h : fileItems source tree = .ok items) :
    ∀ item ∈ items, item.IsComplete := by
  intro item hm
  obtain ⟨extent, before, node, after, rfl, hread⟩ := exists_node_of_fileItems h hm
  have hmem : node ∈ before ++ node :: after := by simp
  rcases isDerived_of_parse hparse with hnone | hd
  · simp at hnone
  · exact isComplete_of_ofTree (hd.of_node.2 node hmem)
      ((isSpelled_of_parse hparse).of_node node hmem) hread

end Errata.Syntax

/-! ## Tokens in one line

No token spans a line feed. So names, the paths of attributes and literals stand in one line as they
are written, and so does the description of a syntax error, which quotes what it finds.
-/

namespace Errata

/-- What is put between texts in one line, and the texts, stand in one line together. -/
theorem isUnbroken_intercalate {separator : String} {texts : List String}
    (hseparator : IsUnbroken separator) (htexts : ∀ text ∈ texts, IsUnbroken text) :
    IsUnbroken (separator.intercalate texts) := by
  intro hmem
  rw [String.toList_intercalate] at hmem
  rcases Syntax.mem_or_of_mem_intercalate hmem with hmem | ⟨chars, hchars, hmem⟩
  · exact hseparator hmem
  · obtain ⟨text, htext, rfl⟩ := List.mem_map.mp hchars
    exact htexts text htext hmem

namespace Syntax

/-! ### Syntax errors -/

/-- The label of a terminal stands in one line, and so does that of the end of the input. -/
theorem Terminal.isUnbroken_labelOrEnd (t : Option Terminal) : IsUnbroken (labelOrEnd t) := by
  cases t with
  | none => decide
  | some t => cases t <;> decide

/-- Whether a syntax error is described in one line. -/
def SyntaxError.IsInLine (e : SyntaxError) : Prop :=
  ∀ description, e.what.describe? = some description → IsUnbroken description

/-- A refused token is described in one line. -/
theorem isInLine_of_refuse {t : Token} {expected : List (Option Terminal)} {e : SyntaxError}
    (h : refuse t expected = .failed (.syntaxError e)) : e.IsInLine := by
  cases h
  rintro description ⟨⟩
  have hlabel := Terminal.isUnbroken_labelOrEnd (some t.terminal)
  refine (((((IsUnbroken.append (by decide) hlabel).append
    (by decide)).append (isUnbroken_quoted _)).append (by decide)).append
      (isUnbroken_intercalate (by decide) fun label hlabel => ?_)).append (by decide)
  obtain ⟨terminal, -, rfl⟩ := List.mem_map.mp (List.mem_mergeSort.mp (List.mem_of_mem_take hlabel))
  exact Terminal.isUnbroken_labelOrEnd terminal

/-- **A syntax error that a step meets** is described in one line. -/
theorem isInLine_of_step {c : Config} {e : SyntaxError}
    (h : step c = .failed (.syntaxError e)) : e.IsInLine := by
  have hend : ∀ description, Unexpected.endOfInput.describe? = some description →
      IsUnbroken description := by
    rintro description ⟨⟩
    decide
  unfold step at h
  split at h
  · unfold readNext at h
    split at h
    · cases h
    · cases h
    · exact isInLine_of_refuse h
    · cases h
      rintro description ⟨⟩
      exact IsUnbroken.append (by decide) (isUnbroken_quoted _)
  · split at h
    · split at h
      · unfold reduce at h
        split at h
        · cases h
        · dsimp only at h
          split at h <;> cases h
      · cases h
    · split at h
      · unfold shift at h
        split at h
        · cases h
        · exact isInLine_of_refuse h
      · unfold finish at h
        split at h
        · split at h <;> cases h
        · cases h
          exact hend

/-- A syntax error that a run meets is described in one line. -/
theorem isInLine_of_run {fuel : Nat} {c : Config} {e : SyntaxError}
    (h : run fuel c = .error (.syntaxError e)) : e.IsInLine := by
  induction fuel generalizing c with
  | zero => cases h
  | succ fuel ih =>
    rw [run] at h
    split at h
    · exact ih h
    · cases h
    · next reason hstep =>
      cases h
      exact isInLine_of_step hstep

/-- **What is said of a text that cannot be parsed** stands in one line. -/
theorem SyntaxError.isUnbroken_of_parse {source : List Char} {e : SyntaxError}
    (h : parse source = .error (.syntaxError e)) {description : String}
    (hdescription : e.what.describe? = some description) : IsUnbroken description :=
  isInLine_of_run h description hdescription

/-! ### Items -/

section

variable (source : List Char)

/-- Whether the path of an attribute stands in one line, and its literal is that of a token. -/
structure Attribute.IsInLine (a : Attribute) : Prop where
  /-- Its path does. -/
  name : IsUnbroken a.name
  /-- Its literal is. -/
  literal : ∀ t, a.literal = some t → t.IsLiteralIn source

/-- Whether the name and the attributes of a field stand in one line, each of them. -/
structure Field.IsInLine (f : Field) : Prop where
  /-- Its name does. -/
  name : '\n' ∉ f.name.text
  /-- Its attributes do. -/
  attributes : ∀ a ∈ f.attributes, a.IsInLine source

/-- Whether the name, the attributes and the fields of a variant stand in one line, each of them. -/
structure Variant.IsInLine (v : Variant) : Prop where
  /-- Its name does. -/
  name : '\n' ∉ v.name.text
  /-- Its attributes do. -/
  attributes : ∀ a ∈ v.attributes, a.IsInLine source
  /-- Its fields do. -/
  fields : ∀ fs, v.shape = .named fs → ∀ f ∈ fs, f.IsInLine source

/-- Whether the name, the attributes and the variants of a declaration stand in one line, each of
them. -/
structure Declaration.IsInLine (d : Declaration) : Prop where
  /-- Its name does. -/
  name : '\n' ∉ d.name.text
  /-- Its attributes do. -/
  attributes : ∀ a ∈ d.attributes, a.IsInLine source
  /-- Its variants do. -/
  variants : ∀ vs, d.body = .variants vs → ∀ v ∈ vs, v.IsInLine source

end

variable {source : List Char} {children : List Tree}

/-- The tokens among trees of a file stand in one line. -/
theorem notMem_of_mem_tokens (h : ∀ tree ∈ children, tree.IsPlaced source) {terminal : Terminal}
    {t : Token} (ht : t ∈ Tree.tokens terminal children) : '\n' ∉ t.text := by
  cases h _ (mem_tokens.mp ht).1 with
  | leaf hin => exact hin.newline_notMem

/-- What is inside a node among trees of a file. -/
theorem isPlaced_inside {kind : Kind} (h : ∀ tree ∈ children, tree.IsPlaced source)
    {p : Option Extent × List Tree} (hp : p ∈ Tree.nodes kind children) :
    ∀ tree ∈ p.2, tree.IsPlaced source :=
  (h _ (mem_nodes.mp hp)).of_node

/-- An attribute of a file stands in one line. -/
theorem isInLine_of_attribute? {extent : Option Extent}
    (h : ∀ tree ∈ children, tree.IsPlaced source) {a : Attribute}
    (ha : attribute? (extent, children) = some a) : a.IsInLine source := by
  unfold attribute? at ha
  split at ha
  · next e form _ inside rest heq =>
    obtain ⟨rfl, rfl⟩ := Prod.mk.inj heq
    obtain ⟨path, hpath, ha⟩ := Option.bind_eq_some_iff.mp ha
    have hinside := (h _ List.mem_cons_self).of_node
    cases ha
    constructor
    · have hplaced := isPlaced_inside (fun tree htree => hinside tree (List.mem_of_mem_take htree))
        (List.mem_of_mem_head? hpath)
      refine isUnbroken_intercalate (by decide) fun name hname => ?_
      obtain ⟨t, ht, rfl⟩ := List.mem_map.mp hname
      exact isUnbroken_ofList (notMem_of_mem_tokens hplaced ht)
    · intro t ht
      dsimp only at ht
      split at ht
      · split at ht
        · next t' more hdrop =>
          obtain ⟨hstring, ht⟩ := Option.ite_none_right_eq_some.mp ht
          cases ht
          cases hinside _ (List.mem_of_mem_drop (hdrop ▸ List.mem_cons_self)) with
          | leaf hin => exact ⟨hin, hstring⟩
        · cases ht
      · cases ht
  · cases ha

/-- The attributes of what follows stand in one line. -/
theorem isInLine_of_outerAttributes? (h : ∀ tree ∈ children, tree.IsPlaced source)
    {as : List Attribute} (has : outerAttributes? children = some as) :
    ∀ a ∈ as, a.IsInLine source := by
  intro a ha
  obtain ⟨⟨extent, inside⟩, hm, hread⟩ := exists_of_mem_mapM has ha
  exact isInLine_of_attribute? (isPlaced_inside h hm) hread

/-- A field of a file stands in one line, part by part. -/
theorem isInLine_of_field? {p : Option Extent × List Tree}
    (h : ∀ tree ∈ p.2, tree.IsPlaced source) {f : Field} (hf : field? source p = some f) :
    f.IsInLine source := by
  obtain ⟨extent, children⟩ := p
  cases extent with
  | none => cases hf
  | some e =>
    obtain ⟨attributes, hattributes, hf⟩ := Option.bind_eq_some_iff.mp hf
    obtain ⟨name, hname, hf⟩ := Option.bind_eq_some_iff.mp hf
    obtain ⟨type, rfl⟩ : ∃ type, f = ⟨attributes, name, type, e.span⟩ := by
      dsimp only at hf
      split at hf
      · exact ⟨_, (Option.some.inj hf).symm⟩
      · split at hf
        · exact ⟨_, (Option.some.inj hf).symm⟩
        · cases hf
    exact ⟨notMem_of_mem_tokens h (List.mem_of_mem_head? hname),
      isInLine_of_outerAttributes? h hattributes⟩

/-- A variant of a file stands in one line, part by part. -/
theorem isInLine_of_variant? {p : Option Extent × List Tree}
    (h : ∀ tree ∈ p.2, tree.IsPlaced source) {v : Variant} (hv : variant? source p = some v) :
    v.IsInLine source := by
  obtain ⟨extent, children⟩ := p
  cases extent with
  | none => cases hv
  | some e =>
    obtain ⟨attributes, hattributes, hv⟩ := Option.bind_eq_some_iff.mp hv
    obtain ⟨name, hname, hv⟩ := Option.bind_eq_some_iff.mp hv
    obtain ⟨shape, hshape, hv⟩ := Option.bind_eq_some_iff.mp hv
    cases hv
    refine ⟨notMem_of_mem_tokens h (List.mem_of_mem_head? hname),
      isInLine_of_outerAttributes? h hattributes, ?_⟩
    rintro fs rfl f hf
    unfold shape? at hshape
    split at hshape
    · cases hshape
    · cases hshape
    · next extent body _ _ _ hbody =>
      obtain ⟨fs', hfs, heq⟩ := Option.map_eq_some_iff.mp hshape
      cases heq
      obtain ⟨inside, hinside, hread⟩ := exists_of_mem_mapM hfs hf
      have hplaced := isPlaced_inside h (hbody ▸ List.mem_cons_self)
      exact isInLine_of_field? (isPlaced_inside hplaced hinside) hread
    · cases hshape

/-- Where the attributes of a declaration are read. -/
theorem outerAttributes?_of_declaration? {extent : Extent} {d : Declaration}
    (h : declaration? source extent children = some d) :
    outerAttributes? children = some d.attributes := by
  obtain ⟨⟨_, word⟩, -, h⟩ := Option.bind_eq_some_iff.mp h
  obtain ⟨kind, h⟩ : ∃ kind, (do
      let name ← (Tree.tokens .name children).head?
      let attributes ← outerAttributes? children
      let body ← body? source children
      let innerAttributes := Tree.spansWithin.spansWithinAll .innerAttribute children
      return ⟨kind, name, attributes, innerAttributes, body, extent.span⟩) = some d := by
    dsimp only at h
    split at h
    · exact ⟨_, h⟩
    · cases h
  obtain ⟨name, -, h⟩ := Option.bind_eq_some_iff.mp h
  obtain ⟨attributes, hattributes, h⟩ := Option.bind_eq_some_iff.mp h
  obtain ⟨body, -, h⟩ := Option.bind_eq_some_iff.mp h
  cases h
  exact hattributes

/-- A declaration of a file stands in one line, part by part. -/
theorem isInLine_of_declaration? {extent : Extent}
    (h : ∀ tree ∈ children, tree.IsPlaced source) {d : Declaration}
    (hd : declaration? source extent children = some d) : d.IsInLine source := by
  obtain ⟨hname, hbody⟩ := declaration?_eq_some hd
  refine ⟨notMem_of_mem_tokens h (List.mem_of_mem_head? hname),
    isInLine_of_outerAttributes? h (outerAttributes?_of_declaration? hd), fun vs hvs v hv => ?_⟩
  rw [hvs] at hbody
  unfold body? at hbody
  split at hbody
  · cases hbody
  · next extent body _ _ hbrace =>
    obtain ⟨vs', hvs', heq⟩ := Option.map_eq_some_iff.mp hbody
    cases heq
    obtain ⟨inside, hinside, hread⟩ := exists_of_mem_mapM hvs' hv
    have hplaced := isPlaced_inside h (hbrace ▸ List.mem_cons_self)
    exact isInLine_of_variant? (isPlaced_inside hplaced hinside) hread
  · cases hbody

/-- **The declarations of a parsed file** stand in one line, token by token. -/
theorem isInLine_of_fileItems {tree : Tree} (hparse : parse source = .ok tree) {items : List Item}
    (h : fileItems source tree = .ok items) {d : Declaration} (hd : .declaration d ∈ items) :
    d.IsInLine source := by
  obtain ⟨extent, before, node, after, rfl, hread⟩ := exists_node_of_fileItems h hd
  have hplaced := (isPlaced_of_parse hparse).of_node node (by simp)
  obtain ⟨extent, children, ⟨rfl, himport⟩ | ⟨rfl, himport⟩ | ⟨d', rfl, hdeclaration, heq⟩⟩ :=
    ofTree_cases hread
  · obtain ⟨path, -, himport⟩ := Option.bind_eq_some_iff.mp himport
    cases himport
  · obtain ⟨origin, -, himport⟩ := Option.bind_eq_some_iff.mp himport
    obtain ⟨names, -, himport⟩ := Option.bind_eq_some_iff.mp himport
    cases himport
  · cases heq
    exact isInLine_of_declaration? hplaced.of_node hdeclaration

end Syntax

end Errata
