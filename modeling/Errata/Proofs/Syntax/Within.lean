import Errata.Proofs.Syntax.Placement
import Errata.Proofs.Syntax.Spelling

/-!
# Where items point

An item carries spans of what it was read from: its own, those of its attributes, its variants and
its fields, and those of their names. The tokens of its literals are carried along with it.

* `Item.Within`: items whose spans have one property and whose literals have another.
* **`within_of_fileItems`**: the spans of the items of a file are in its source, and their literals
  are tokens of it.
-/

namespace Errata.Syntax

section Within

variable (S : Span → Prop) (L : Token → Prop)

/-- Whether the span of an attribute and its literal have a property. -/
structure Attribute.Within (a : Attribute) : Prop where
  /-- Its span has it. -/
  span : S a.span
  /-- Its literal has it. -/
  literal : ∀ t, a.literal = some t → L t

/-- Whether the spans and the literals of a field have a property. -/
structure Field.Within (f : Field) : Prop where
  /-- Those of its attributes do. -/
  attributes : ∀ a ∈ f.attributes, a.Within S L
  /-- That of its name does. -/
  name : S f.name.span
  /-- Its own does. -/
  span : S f.span

/-- Whether the spans and the literals of a variant have a property. -/
structure Variant.Within (v : Variant) : Prop where
  /-- Those of its attributes do. -/
  attributes : ∀ a ∈ v.attributes, a.Within S L
  /-- That of its name does. -/
  name : S v.name.span
  /-- Those of its fields do. -/
  fields : ∀ fs, v.shape = .named fs → ∀ f ∈ fs, f.Within S L
  /-- Its own does. -/
  span : S v.span

/-- Whether the spans and the literals of a declaration have a property. -/
structure Declaration.Within (d : Declaration) : Prop where
  /-- That of the word that says what is declared does. -/
  kind : S d.kind.span
  /-- That of its name does. -/
  name : S d.name.span
  /-- Those of its attributes do. -/
  attributes : ∀ a ∈ d.attributes, a.Within S L
  /-- Those of the inner attributes do. -/
  innerAttributes : ∀ s ∈ d.innerAttributes, S s
  /-- Those of its variants do. -/
  variants : ∀ vs, d.body = .variants vs → ∀ v ∈ vs, v.Within S L
  /-- Its own does. -/
  span : S d.span

/-- Whether the spans and the literals of an item have a property. -/
def Item.Within : Item → Prop
  | importModule _ _ span | importNames _ _ _ span => S span
  | declaration d => d.Within S L

end Within

/-- Every declaration has a property that all spans and all literals have. -/
theorem Declaration.within_of_forall {S : Span → Prop} {L : Token → Prop} (hS : ∀ s, S s)
    (hL : ∀ t, L t) (d : Declaration) : d.Within S L := by
  have hattribute : ∀ a : Attribute, a.Within S L := fun a => ⟨hS _, fun t _ => hL t⟩
  have hfield : ∀ f : Field, f.Within S L := fun f => ⟨fun a _ => hattribute a, hS _, hS _⟩
  have hvariant : ∀ v : Variant, v.Within S L := fun v =>
    ⟨fun a _ => hattribute a, hS _, fun _ _ f _ => hfield f, hS _⟩
  exact ⟨hS _, hS _, fun a _ => hattribute a, fun s _ => hS s, fun _ _ v _ => hvariant v, hS _⟩

/-- What the spans and the literals of a declaration have, they have with every property of literals
that follows. -/
theorem Declaration.Within.mono {S : Span → Prop} {L L' : Token → Prop} (hL : ∀ t, L t → L' t)
    {d : Declaration} (h : d.Within S L) : d.Within S L' := by
  have hattribute : ∀ {a : Attribute}, a.Within S L → a.Within S L' := fun ha =>
    ⟨ha.span, fun t ht => hL t (ha.literal t ht)⟩
  have hfield : ∀ {f : Field}, f.Within S L → f.Within S L' := fun hf =>
    ⟨fun a ha => hattribute (hf.attributes a ha), hf.name, hf.span⟩
  have hvariant : ∀ {v : Variant}, v.Within S L → v.Within S L' := fun hv =>
    ⟨fun a ha => hattribute (hv.attributes a ha), hv.name,
      fun fs hfs f hf => hfield (hv.fields fs hfs f hf), hv.span⟩
  exact ⟨h.kind, h.name, fun a ha => hattribute (h.attributes a ha), h.innerAttributes,
    fun vs hvs v hv => hvariant (h.variants vs hvs v hv), h.span⟩

/-! ### Items of a file -/

/-- Whether a token is that of a literal of the source. -/
def Token.IsLiteralIn (source : List Char) (t : Token) : Prop :=
  t.IsIn source ∧ t.terminal = .string

variable {source : List Char} {children : List Tree}

/-- The tokens among trees of a file are in its source. -/
theorem isIn_span_of_mem_tokens (h : ∀ tree ∈ children, tree.IsPlaced source)
    {terminal : Terminal} {t : Token} (hm : t ∈ Tree.tokens terminal children) :
    t.span.IsIn source := by
  cases h _ (mem_tokens.mp hm).1 with
  | leaf ht => exact ht.isIn_extent.span

/-- The nodes among trees of a file have extents in its source, and so have those inside. -/
theorem isPlaced_of_mem_nodes (h : ∀ tree ∈ children, tree.IsPlaced source) {kind : Kind}
    {extent : Option Extent} {inside : List Tree}
    (hm : (extent, inside) ∈ Tree.nodes kind children) :
    (∀ e, extent = some e → e.span.IsIn source) ∧ ∀ tree ∈ inside, tree.IsPlaced source := by
  have hnode := h _ (mem_nodes.mp hm)
  exact ⟨fun e he => (hnode.extent_of_node e he).span, hnode.of_node⟩

/-- An attribute of a file. -/
theorem within_of_attribute? {extent : Option Extent}
    (hextent : ∀ e, extent = some e → e.span.IsIn source)
    (h : ∀ tree ∈ children, tree.IsPlaced source) {a : Attribute}
    (ha : attribute? (extent, children) = some a) :
    a.Within (Span.IsIn source) (Token.IsLiteralIn source) := by
  unfold attribute? at ha
  split at ha
  · next e form _ inside rest heq =>
    obtain ⟨rfl, rfl⟩ := Prod.mk.inj heq
    obtain ⟨path, -, ha⟩ := Option.bind_eq_some_iff.mp ha
    have hinside := (h _ List.mem_cons_self).of_node
    cases ha
    refine ⟨hextent e rfl, fun t ht => ?_⟩
    dsimp only at ht
    split at ht
    · split at ht
      · next t' more hdrop =>
        split at ht
        · next hstring =>
          cases ht
          have hm : .leaf t ∈ inside := List.mem_of_mem_drop (hdrop ▸ List.mem_cons_self)
          cases hinside _ hm with
          | leaf hin => exact ⟨hin, hstring⟩
        · cases ht
      · cases ht
    · cases ht
  · cases ha

/-- The attributes of what follows. -/
theorem within_of_outerAttributes? (h : ∀ tree ∈ children, tree.IsPlaced source)
    {as : List Attribute} (has : outerAttributes? children = some as) :
    ∀ a ∈ as, a.Within (Span.IsIn source) (Token.IsLiteralIn source) := by
  intro a ha
  obtain ⟨⟨extent, inside⟩, hm, hread⟩ := exists_of_mem_mapM has ha
  obtain ⟨hextent, hinside⟩ := isPlaced_of_mem_nodes h hm
  exact within_of_attribute? hextent hinside hread

/-- A field of a file. -/
theorem within_of_field? {extent : Option Extent}
    (hextent : ∀ e, extent = some e → e.span.IsIn source)
    (h : ∀ tree ∈ children, tree.IsPlaced source) {f : Field}
    (hf : field? source (extent, children) = some f) :
    f.Within (Span.IsIn source) (Token.IsLiteralIn source) := by
  cases extent with
  | none => cases hf
  | some e =>
    obtain ⟨attributes, hattributes, hf⟩ := Option.bind_eq_some_iff.mp hf
    obtain ⟨name, hname, hf⟩ := Option.bind_eq_some_iff.mp hf
    obtain ⟨type, rfl⟩ : ∃ type, f = ⟨attributes, name, type, e.span⟩ := by
      dsimp only at hf
      split at hf
      · exact ⟨_, (Option.some.inj hf).symm⟩
      · split at hf
        · exact ⟨_, (Option.some.inj hf).symm⟩
        · cases hf
    exact ⟨within_of_outerAttributes? h hattributes,
      isIn_span_of_mem_tokens h (List.mem_of_mem_head? hname), hextent e rfl⟩

/-- The fields of a variant of a file. -/
theorem within_of_shape? (h : ∀ tree ∈ children, tree.IsPlaced source) {fs : List Field}
    (hs : shape? source children = some (.named fs)) :
    ∀ f ∈ fs, f.Within (Span.IsIn source) (Token.IsLiteralIn source) := by
  unfold shape? at hs
  split at hs
  · cases hs
  · cases hs
  · next extent body _ _ _ hbody =>
    obtain ⟨fs', hfs, heq⟩ := Option.map_eq_some_iff.mp hs
    cases heq
    obtain ⟨-, hinside⟩ := isPlaced_of_mem_nodes h (hbody ▸ List.mem_cons_self)
    intro f hf
    obtain ⟨⟨e, members⟩, hm, hread⟩ := exists_of_mem_mapM hfs hf
    obtain ⟨hextent, hmembers⟩ := isPlaced_of_mem_nodes hinside hm
    exact within_of_field? hextent hmembers hread
  · cases hs

/-- A variant of a file. -/
theorem within_of_variant? {extent : Option Extent}
    (hextent : ∀ e, extent = some e → e.span.IsIn source)
    (h : ∀ tree ∈ children, tree.IsPlaced source) {v : Variant}
    (hv : variant? source (extent, children) = some v) :
    v.Within (Span.IsIn source) (Token.IsLiteralIn source) := by
  cases extent with
  | none => cases hv
  | some e =>
    obtain ⟨attributes, hattributes, hv⟩ := Option.bind_eq_some_iff.mp hv
    obtain ⟨name, hname, hv⟩ := Option.bind_eq_some_iff.mp hv
    obtain ⟨shape, hshape, hv⟩ := Option.bind_eq_some_iff.mp hv
    cases hv
    refine ⟨within_of_outerAttributes? h hattributes,
      isIn_span_of_mem_tokens h (List.mem_of_mem_head? hname), ?_, hextent e rfl⟩
    rintro fs rfl
    exact within_of_shape? h hshape

/-- The variants in the body of a declaration of a file. -/
theorem within_of_body? (h : ∀ tree ∈ children, tree.IsPlaced source) {vs : List Variant}
    (hb : body? source children = some (.variants vs)) :
    ∀ v ∈ vs, v.Within (Span.IsIn source) (Token.IsLiteralIn source) := by
  unfold body? at hb
  split at hb
  · cases hb
  · next extent body _ _ hbody =>
    obtain ⟨vs', hvs, heq⟩ := Option.map_eq_some_iff.mp hb
    cases heq
    obtain ⟨-, hinside⟩ := isPlaced_of_mem_nodes h (hbody ▸ List.mem_cons_self)
    intro v hv
    obtain ⟨⟨e, members⟩, hm, hread⟩ := exists_of_mem_mapM hvs hv
    obtain ⟨hextent, hmembers⟩ := isPlaced_of_mem_nodes hinside hm
    exact within_of_variant? hextent hmembers hread
  · cases hb

/-- The spans in several trees are those in one of them. -/
theorem exists_of_mem_spansWithinAll {kind : Kind} {trees : List Tree} {s : Span}
    (h : s ∈ Tree.spansWithin.spansWithinAll kind trees) :
    ∃ tree ∈ trees, s ∈ Tree.spansWithin kind tree := by
  induction trees with
  | nil => cases h
  | cons tree trees ih =>
    rcases List.mem_append.mp h with h | h
    · exact ⟨tree, List.mem_cons_self, h⟩
    · obtain ⟨tree', hm, h⟩ := ih h
      exact ⟨tree', List.mem_cons_of_mem _ hm, h⟩

/-- The nodes of a kind in a tree of a file have spans in its source. -/
theorem isIn_of_mem_spansWithin {kind : Kind} {tree : Tree} (h : tree.IsPlaced source) :
    ∀ s ∈ Tree.spansWithin kind tree, s.IsIn source := by
  induction h with
  | leaf ht => exact fun s hs => absurd hs List.not_mem_nil
  | @node k extent children place inside ih =>
    have hinside : ∀ s ∈ Tree.spansWithin.spansWithinAll kind children, s.IsIn source := by
      intro s hs
      obtain ⟨tree, hm, hs⟩ := exists_of_mem_spansWithinAll hs
      exact ih tree hm s hs
    cases extent with
    | none => exact hinside
    | some e =>
      rw [Tree.spansWithin.eq_def]
      dsimp only
      split
      · exact List.forall_mem_cons.mpr ⟨(place e rfl).span, hinside⟩
      · exact hinside

/-- A declaration of a file. -/
theorem within_of_declaration? {extent : Extent} (hextent : extent.span.IsIn source)
    (h : ∀ tree ∈ children, tree.IsPlaced source) {d : Declaration}
    (hd : declaration? source extent children = some d) :
    d.Within (Span.IsIn source) (Token.IsLiteralIn source) := by
  obtain ⟨⟨e, word⟩, hword, hd⟩ := Option.bind_eq_some_iff.mp hd
  obtain ⟨-, hword⟩ := isPlaced_of_mem_nodes h (List.mem_of_mem_head? hword)
  obtain ⟨kind, more, rfl, hrest⟩ : ∃ kind more, word = .leaf kind :: more ∧ (do
      let name ← (Tree.tokens .name children).head?
      let attributes ← outerAttributes? children
      let body ← body? source children
      let innerAttributes := Tree.spansWithin.spansWithinAll .innerAttribute children
      return ⟨kind, name, attributes, innerAttributes, body, extent.span⟩) = some d := by
    dsimp only at hd
    split at hd
    · next t more _ => exact ⟨t, more, rfl, hd⟩
    · cases hd
  obtain ⟨name, hname, hrest⟩ := Option.bind_eq_some_iff.mp hrest
  obtain ⟨attributes, hattributes, hrest⟩ := Option.bind_eq_some_iff.mp hrest
  obtain ⟨body, hbody, hrest⟩ := Option.bind_eq_some_iff.mp hrest
  cases hrest
  have hkind : kind.span.IsIn source := by
    cases hword _ List.mem_cons_self with
    | leaf ht => exact ht.isIn_extent.span
  refine ⟨hkind, isIn_span_of_mem_tokens h (List.mem_of_mem_head? hname),
    within_of_outerAttributes? h hattributes, fun s hs => ?_, ?_, hextent⟩
  · obtain ⟨tree, hm, hs⟩ := exists_of_mem_spansWithinAll hs
    exact isIn_of_mem_spansWithin (h tree hm) s hs
  · rintro vs rfl
    exact within_of_body? h hbody

/-- An item of a file. -/
theorem within_of_ofTree {tree : Tree} (h : tree.IsPlaced source) {item : Item}
    (hi : Item.ofTree source tree = .ok item) :
    item.Within (Span.IsIn source) (Token.IsLiteralIn source) := by
  obtain ⟨extent, children, ⟨rfl, hread⟩ | ⟨rfl, hread⟩ | ⟨d, rfl, hd, rfl⟩⟩ := ofTree_cases hi
  · obtain ⟨path, -, hread⟩ := Option.bind_eq_some_iff.mp hread
    cases hread
    exact (h.extent_of_node extent rfl).span
  · obtain ⟨origin, -, hread⟩ := Option.bind_eq_some_iff.mp hread
    obtain ⟨names, -, hread⟩ := Option.bind_eq_some_iff.mp hread
    cases hread
    exact (h.extent_of_node extent rfl).span
  · exact within_of_declaration? (h.extent_of_node extent rfl).span h.of_node hd

/-- **The items of a file** have their spans in its source, and their literals are tokens of it. -/
theorem within_of_fileItems {tree : Tree} (hparse : parse source = .ok tree) {items : List Item}
    (h : fileItems source tree = .ok items) :
    ∀ item ∈ items, item.Within (Span.IsIn source) (Token.IsLiteralIn source) := by
  intro item hm
  obtain ⟨extent, before, node, after, rfl, hread⟩ := exists_node_of_fileItems h hm
  exact within_of_ofTree ((isPlaced_of_parse hparse).of_node node (by simp)) hread

end Errata.Syntax
