import Errata.Proofs.Syntax.Bare
import Errata.Proofs.Syntax.Boundary
import Errata.Proofs.Syntax.Within
import Errata.Proofs.Text.Joined

/-!
# Types as they are written

The type of a field is not put together from its tokens. It is the text of the source from the first
token of the type to the last, in one line. So what is put into a source is left out of a type
unless it is put between two tokens of it, and then it is a part of it.

* `Extent.IsCutAt`: the places inside an extent.
* **`typeText_displace_of_not_isCutAt`**, **`joined_infix_typeText`**: a type in a source into which
  something is put.
* `forall_mem_typeExtents`: what holds of the types in a file.
* **`types_of_fileItems`**: the types of the items of a file are those that are written in it.
-/

namespace Errata.Syntax

/-! ### Extents that are cut -/

/-- Whether a place in a source is inside an extent, and neither at its start nor at its end. -/
def Extent.IsCutAt (e : Extent) (offset : Nat) : Prop :=
  e.start.offset < offset ∧ offset < e.stop.offset

instance (e : Extent) (offset : Nat) : Decidable (e.IsCutAt offset) :=
  inferInstanceAs (Decidable (_ ∧ _))

/-- An extent of a source is that of a text in it. -/
theorem Extent.IsIn.exists_append {source : List Char} {e : Extent} (h : e.IsIn source) :
    ∃ front text back, source = front ++ text ++ back ∧ text ≠ [] ∧
      e = ⟨.ofPrefix front, .ofPrefix (front ++ text)⟩ := by
  obtain ⟨front, c, more, back, hsource, -, he⟩ := h
  exact ⟨front, c :: more, back, hsource, List.cons_ne_nil c more, he⟩

/-- The type at the extent of a text is the text in one line. -/
theorem typeText_of_append (front text back : List Char) :
    typeText (front ++ text ++ back) ⟨.ofPrefix front, .ofPrefix (front ++ text)⟩ =
      String.ofList (joined text) := by
  have hwritten : ((front ++ text ++ back).drop front.length).take
      ((front ++ text).length - front.length) = text := by
    rw [List.length_append, Nat.add_sub_cancel_left, List.append_assoc, List.drop_left,
      List.take_left]
  have hwords : ((words text).map String.ofList).map String.toList = words text := by
    simp [Function.comp_def]
  rw [typeText]
  dsimp only
  rw [Position.offset_ofPrefix, Position.offset_ofPrefix, hwritten, ← String.toList_inj,
    String.toList_intercalate, hwords, String.toList_ofList]
  exact (String.toList_ofList).symm

variable {before after : List Char}

/-- **What is put into a source outside of a type** does not change the type. -/
theorem typeText_displace_of_not_isCutAt (comment : List Char) {e : Extent}
    (he : e.IsIn (before ++ after)) (hcut : ¬e.IsCutAt before.length) :
    typeText (before ++ comment ++ after) (e.displace (insertion before comment after)) =
      typeText (before ++ after) e := by
  have hlt := he.offset_lt
  obtain ⟨front, text, back, hsource, htext, rfl⟩ := he.exists_append
  have hstart := Position.offset_ofPrefix front
  have hstop := Position.offset_ofPrefix (front ++ text)
  by_cases hle : (Position.ofPrefix (front ++ text)).offset ≤ before.length
  · obtain ⟨between, rfl⟩ : front ++ text <+: before := by
      refine List.prefix_of_prefix_length_le ⟨back, hsource.symm⟩ ⟨after, rfl⟩ ?_
      rwa [hstop] at hle
    rw [displace_insertion_of_le hlt hle, List.append_assoc _ between, List.append_assoc _ _ after,
      List.append_assoc _ between, typeText_of_append, typeText_of_append]
  · have hbehind : before.length ≤ front.length := by
      rw [Extent.IsCutAt] at hcut
      dsimp only at hcut
      omega
    obtain ⟨passed, rfl⟩ : before <+: front :=
      List.prefix_of_prefix_length_le ⟨after, rfl⟩
        ⟨text ++ back, by rw [hsource, List.append_assoc]⟩ hbehind
    obtain rfl : after = passed ++ text ++ back := by
      refine List.append_cancel_left (hsource.trans ?_)
      simp only [List.append_assoc]
    have hmoved := displace_insertion_of_append before comment htext
      (Eq.refl (passed ++ text ++ back))
    rw [hmoved, hsource, typeText_of_append]
    have hthere := typeText_of_append (before ++ comment ++ passed) text back
    simp only [List.append_assoc] at hthere ⊢
    exact hthere

/-- **What is put into a type** stands in it, in one line. -/
theorem joined_infix_typeText (comment : List Char) {e : Extent} (he : e.IsIn (before ++ after))
    (hcut : e.IsCutAt before.length) :
    joined comment <:+:
      (typeText (before ++ comment ++ after)
        (e.displace (insertion before comment after))).toList := by
  obtain ⟨front, text, back, hsource, htext, rfl⟩ := he.exists_append
  obtain ⟨hstart, hstop⟩ := hcut
  have hfront := Position.offset_ofPrefix front
  have htextEnd := Position.offset_ofPrefix (front ++ text)
  dsimp only at hstart hstop
  obtain ⟨first, rfl⟩ : front <+: before :=
    List.prefix_of_prefix_length_le ⟨text ++ back, by rw [hsource, List.append_assoc]⟩
      ⟨after, rfl⟩ (by omega)
  obtain ⟨second, htext'⟩ : front ++ first <+: front ++ text :=
    List.prefix_of_prefix_length_le ⟨after, rfl⟩ ⟨back, hsource.symm⟩ (by omega)
  obtain rfl : first ++ second = text := by
    refine List.append_cancel_left (Eq.trans ?_ htext')
    rw [List.append_assoc]
  obtain rfl : after = second ++ back := by
    refine List.append_cancel_left (hsource.trans ?_)
    simp only [List.append_assoc]
  -- the start of the type stays where it is, and its end is moved
  have hmoved : Extent.displace (insertion (front ++ first) comment (second ++ back))
      ⟨.ofPrefix front, .ofPrefix (front ++ (first ++ second))⟩ =
        ⟨.ofPrefix front, .ofPrefix (front ++ (first ++ comment ++ second))⟩ := by
    have hbehind := behindInsertion_ofPrefix (front ++ first) comment
      (Eq.refl (second ++ back))
    have hafter : ¬(Position.ofPrefix (front ++ (first ++ second))).offset ≤
        (front ++ first).length := by omega
    simp only [Extent.displace, insertion, if_pos hstart, if_neg hafter]
    simp only [List.append_assoc] at hbehind ⊢
    rw [hbehind]
  have hwritten := typeText_of_append front (first ++ comment ++ second) back
  simp only [List.append_assoc] at hwritten hmoved ⊢
  rw [hmoved, hwritten, String.toList_ofList, ← List.append_assoc]
  exact joined_infix_append first comment second

/-! ### Where types stand -/

variable {source : List Char}

section Types

variable {Q : Tree → Prop} {P : Extent → Prop}
  (hdown : ∀ {kind extent children}, Q (.node kind extent children) → ∀ tree ∈ children, Q tree)
  (hfield : ∀ {extent kind e children others},
    Q (.node .fieldType extent (.node kind (some e) children :: others)) → P e)

include hfield in
/-- What holds of the type of a field. -/
theorem forall_mem_fieldTypes {children : List Tree} (h : ∀ tree ∈ children, Q tree) :
    ∀ e ∈ fieldTypes children, P e := by
  intro e he
  unfold fieldTypes at he
  split at he
  · next hnodes =>
    rw [List.mem_singleton.mp he]
    exact hfield (h _ (mem_nodes.mp (hnodes ▸ List.mem_cons_self)))
  · cases he

include hdown

/-- What holds of all trees in a node holds of those in the nodes of a kind among them. -/
theorem forall_of_mem_nodes {trees : List Tree} (h : ∀ tree ∈ trees, Q tree) {kind : Kind}
    {extent : Option Extent} {children : List Tree}
    (hm : (extent, children) ∈ Tree.nodes kind trees) : ∀ tree ∈ children, Q tree :=
  hdown (h _ (mem_nodes.mp hm))

/-- What holds of the types in each member of a body holds of all types in it. -/
theorem forall_mem_memberTypes {types : List Tree → List Extent}
    (htypes : ∀ {inside : List Tree}, (∀ tree ∈ inside, Q tree) → ∀ e ∈ types inside, P e)
    {children : List Tree} (h : ∀ tree ∈ children, Q tree) :
    ∀ e ∈ memberTypes types (Tree.nodes .braceBody children), P e := by
  intro e he
  unfold memberTypes at he
  split at he
  · next extent body more hnodes =>
    have hbody := forall_of_mem_nodes hdown h (hnodes ▸ List.mem_cons_self)
    obtain ⟨⟨extent', inside⟩, hmember, he⟩ := List.mem_flatMap.mp he
    exact htypes (forall_of_mem_nodes hdown hbody hmember) e he
  · cases he

include hfield

/-- What holds of the types in a variant. -/
theorem forall_mem_shapeTypes {children : List Tree} (h : ∀ tree ∈ children, Q tree) :
    ∀ e ∈ shapeTypes children, P e := by
  intro e he
  unfold shapeTypes at he
  split at he
  · exact forall_mem_memberTypes hdown (forall_mem_fieldTypes hfield) h e he
  · cases he

/-- What holds of the types in a declaration. -/
theorem forall_mem_bodyTypes {children : List Tree} (h : ∀ tree ∈ children, Q tree) :
    ∀ e ∈ bodyTypes children, P e := by
  intro e he
  unfold bodyTypes at he
  split at he
  · exact forall_mem_memberTypes hdown (forall_mem_shapeTypes hdown hfield) h e he
  · cases he

/-- **What holds of the types in a file**: what follows for the type of a field from something that
holds of the file, and that goes over from each node to its children. -/
theorem forall_mem_typeExtents {tree : Tree} (h : Q tree) : ∀ e ∈ tree.typeExtents, P e := by
  intro e he
  unfold Tree.typeExtents at he
  split at he
  · obtain ⟨⟨extent, children⟩, hmem, he⟩ := List.mem_flatMap.mp he
    exact forall_mem_bodyTypes hdown hfield (forall_of_mem_nodes hdown (hdown h) hmem) e he
  · cases he

end Types

/-- The types in a file stand in its source. -/
theorem isIn_of_mem_typeExtents {tree : Tree} (h : parse source = .ok tree) :
    ∀ e ∈ tree.typeExtents, e.IsIn source :=
  forall_mem_typeExtents (Q := Tree.IsPlaced source) Tree.IsPlaced.of_node
    (fun hfield => (hfield.of_node _ List.mem_cons_self).extent_of_node _ rfl)
    (isPlaced_of_parse h)

/-! ### The types of items -/

/-- The types of the fields of a variant. -/
def Shape.types : Shape → List String
  | named fields => fields.flatMap fun f => f.type.toList
  | _ => []

/-- The types of the fields in a body. -/
def Body.types : Body → List String
  | variants vs => vs.flatMap fun v => v.shape.types
  | _ => []

/-- The types of the fields in an item. -/
def Item.types : Item → List String
  | declaration d => d.body.types
  | _ => []

/-- What is gathered from what is read from the entries of a list is gathered from the entries. -/
theorem flatMap_of_mapM {α β γ δ : Type} {read : α → Option β} {g : β → List γ} {k : α → List δ}
    {say : δ → γ} (hread : ∀ {a b}, read a = some b → g b = (k a).map say) {as : List α}
    {bs : List β} (h : as.mapM read = some bs) : bs.flatMap g = (as.flatMap k).map say := by
  induction as generalizing bs with
  | nil =>
    cases h
    rfl
  | cons a as ih =>
    rw [List.mapM_cons] at h
    obtain ⟨b, hb, h⟩ := Option.bind_eq_some_iff.mp h
    obtain ⟨rest, hrest, h⟩ := Option.bind_eq_some_iff.mp h
    cases h
    rw [List.flatMap_cons, List.flatMap_cons, List.map_append, hread hb, ih hrest]

/-- The type of a field is the one that is written there. -/
theorem type_of_field? {node : Option Extent × List Tree} {f : Field}
    (h : field? source node = some f) :
    f.type.toList = (fieldTypes node.2).map (typeText source) := by
  obtain ⟨e, as, name, type, -, -, -, htype, rfl⟩ := field?_eq_some_iff.mp h
  unfold type? at htype
  unfold fieldTypes
  split at htype
  · next hnone =>
    cases htype
    rw [hnone]
    rfl
  · next fieldExtent inside rest hsome =>
    rw [hsome]
    split at htype
    · cases htype
      rfl
    · cases htype

/-- The types of the fields of a variant are those that are written there. -/
theorem types_of_variant? {node : Option Extent × List Tree} {v : Variant}
    (h : variant? source node = some v) :
    v.shape.types = (shapeTypes node.2).map (typeText source) := by
  obtain ⟨e, as, name, shape, -, -, -, hshape, rfl⟩ := variant?_eq_some_iff.mp h
  unfold shape? at hshape
  unfold shapeTypes
  split at hshape
  · next hparen =>
    cases hshape
    rw [hparen]
    rfl
  · next hparen htype =>
    cases hshape
    rw [hparen, htype]
    rfl
  · next hparen htype hbody =>
    obtain ⟨fields, hfields, rfl⟩ := Option.map_eq_some_iff.mp hshape
    rw [hparen, htype, hbody]
    exact flatMap_of_mapM type_of_field? hfields
  · next hparen htype hbody =>
    cases hshape
    rw [hparen, htype, hbody]
    rfl

/-- The types in the body of a declaration are those that are written there. -/
theorem types_of_body? {children : List Tree} {body : Body}
    (h : body? source children = some body) :
    body.types = (bodyTypes children).map (typeText source) := by
  unfold body? at h
  unfold bodyTypes
  split at h
  · next hparen =>
    cases h
    rw [hparen]
    rfl
  · next hparen hbody =>
    obtain ⟨vs, hvs, rfl⟩ := Option.map_eq_some_iff.mp h
    rw [hparen, hbody]
    exact flatMap_of_mapM types_of_variant? hvs
  · next hparen hbody =>
    cases h
    rw [hparen, hbody]
    rfl

/-- The types in an item are those that are written there. -/
theorem types_of_ofTree {kind : Kind} {extent : Option Extent} {children : List Tree} {item : Item}
    (h : Item.ofTree source (.node kind extent children) = .ok item) :
    item.types = ((Tree.nodes .declaration [.node kind extent children]).flatMap
      fun d => bodyTypes d.2).map (typeText source) := by
  obtain ⟨e, inside, ⟨hnode, hread⟩ | ⟨hnode, hread⟩ | ⟨d, hnode, hd, rfl⟩⟩ := ofTree_cases h
  · cases hnode
    obtain ⟨_, -, hread⟩ := Option.bind_eq_some_iff.mp hread
    cases hread
    rfl
  · cases hnode
    obtain ⟨_, -, hread⟩ := Option.bind_eq_some_iff.mp hread
    obtain ⟨_, -, hread⟩ := Option.bind_eq_some_iff.mp hread
    cases hread
    rfl
  · cases hnode
    obtain ⟨-, -, -, hbody, -, -⟩ := declaration?_eq_some_iff.mp hd
    rw [Tree.nodes_cons_self, List.flatMap_cons]
    exact (types_of_body? hbody).trans (by simp [Tree.nodes])

/-- **The types of the items of a file** are those that are written in it. -/
theorem types_of_fileItems {tree : Tree} {items : List Item}
    (h : fileItems source tree = .ok items) :
    items.flatMap Item.types = tree.typeExtents.map (typeText source) := by
  unfold fileItems at h
  split at h
  · next extent trees =>
    unfold itemsOfTrees at h
    show _ = ((Tree.nodes .declaration trees).flatMap fun d => bodyTypes d.2).map (typeText source)
    induction trees generalizing items with
    | nil =>
      cases h
      rfl
    | cons tree trees ih =>
      cases tree with
      | leaf t => exact ih h
      | node kind extent children =>
        obtain ⟨item, rest, hitem, hrest, rfl⟩ := Outcome.mapM_cons_eq_ok_iff.mp h
        have hnodes := Tree.nodes_append .declaration [.node kind extent children] trees
        rw [List.singleton_append] at hnodes
        rw [List.flatMap_cons, types_of_ofTree hitem, ih hrest, hnodes, List.flatMap_append,
          List.map_append]
  · cases h

end Errata.Syntax
