import Errata.Proofs.Descriptor.Build

/-!
# Where the parts of a file come from

A file is described item by item. An import leaves one statement, a declaration one enumeration or
nothing, and nothing else is ever put into the file or taken out of it.

* `addItem_cases`: **what adding an item does** to a file.
* `imports_of_addItems`: the imports of a file are those of its items, in order.
* `exists_declaration_of_addItems`: an enumeration in a file is what one of its declarations
  describes.
* **`describe_origin`**: both, for a described file.
-/

namespace Errata

namespace Descriptor

/-- The import that an item leaves in a file. -/
def importOf? : Syntax.Item → Option Import
  | .importModule path newName span => some ⟨importModuleText path newName, span⟩
  | .importNames dots path names span => some ⟨importNamesText dots path names, span⟩
  | .declaration _ => none

variable [Expression.Capacity]

/-- **What adding an item does** to a file: an import is put at the end of the imports, a
declaration that describes an enumeration of a new name puts that at the end of the enumerations,
and any other declaration leaves the file as it is. -/
theorem addItem_cases {strict : Bool} {d d' : Descriptor} {item : Syntax.Item}
    (h : outcome (addItem strict d item) = .ok d') :
    (∃ i, importOf? item = some i ∧ d' = { d with imports := d.imports ++ [i] }) ∨
      (importOf? item = none ∧ d' = d) ∨
      (∃ declaration e, item = .declaration declaration ∧
        outcome (enumeration strict declaration) = .ok e ∧
        (∀ f ∈ d.enumerations, f.name ≠ e.name) ∧
        d' = { d with enumerations := d.enumerations ++ [e] }) := by
  cases item with
  | importModule path newName span =>
    cases h
    exact Or.inl ⟨_, rfl, rfl⟩
  | importNames dots path names span =>
    cases h
    exact Or.inl ⟨_, rfl, rfl⟩
  | declaration declaration =>
    rw [(outcome_addItem_declaration strict d declaration).2] at h
    cases hmade : outcome (enumeration strict declaration) with
    | error e =>
      rw [hmade] at h
      cases e with
      | violation f =>
        cases h
        exact Or.inr (Or.inl ⟨rfl, rfl⟩)
      | unreadable u => cases h
    | ok e =>
      rw [hmade] at h
      dsimp only [addEnumeration] at h
      split at h
      · cases h
        exact Or.inr (Or.inl ⟨rfl, rfl⟩)
      · next hfresh =>
        cases h
        exact Or.inr (Or.inr ⟨declaration, e, rfl, hmade, by simpa using hfresh, rfl⟩)

/-- What adding items does to a file, one item more. -/
theorem addItems_cons_eq_ok_iff {strict : Bool} {d d' : Descriptor} {item : Syntax.Item}
    {items : List Syntax.Item} :
    outcome ((item :: items).foldlM (addItem strict) d) = .ok d' ↔
      ∃ first, outcome (addItem strict d item) = .ok first ∧
        outcome (items.foldlM (addItem strict) first) = .ok d' := by
  rw [List.foldlM_cons]
  exact bind_eq_ok_iff (isSteady_addItem strict d item) fun first _ =>
    isSteady_addItems strict first items

/-- **The imports of a file are those of its items**, in order. -/
theorem imports_of_addItems {strict : Bool} {d d' : Descriptor} {items : List Syntax.Item}
    (h : outcome (items.foldlM (addItem strict) d) = .ok d') :
    d'.imports = d.imports ++ items.filterMap importOf? := by
  induction items generalizing d with
  | nil =>
    cases h
    exact (List.append_nil _).symm
  | cons item items ih =>
    obtain ⟨first, hfirst, hrest⟩ := addItems_cons_eq_ok_iff.mp h
    rw [ih hrest]
    rcases addItem_cases hfirst with
      ⟨i, hi, rfl⟩ | ⟨hnone, rfl⟩ | ⟨declaration, e, rfl, -, -, rfl⟩
    · rw [List.filterMap_cons_some hi, List.append_assoc]
      rfl
    · rw [List.filterMap_cons_none hnone]
    · rw [List.filterMap_cons_none rfl]

/-- **An enumeration in a file** was there before, or is what one of the declarations describes.
-/
theorem exists_declaration_of_addItems {strict : Bool} {d d' : Descriptor}
    {items : List Syntax.Item} (h : outcome (items.foldlM (addItem strict) d) = .ok d')
    {e : Enumeration} (he : e ∈ d'.enumerations) :
    e ∈ d.enumerations ∨ ∃ declaration, .declaration declaration ∈ items ∧
      outcome (enumeration strict declaration) = .ok e := by
  induction items generalizing d with
  | nil =>
    cases h
    exact Or.inl he
  | cons item items ih =>
    obtain ⟨first, hfirst, hrest⟩ := addItems_cons_eq_ok_iff.mp h
    rcases ih hrest with he | ⟨declaration, hm, hmade⟩
    · rcases addItem_cases hfirst with
        ⟨i, -, rfl⟩ | ⟨-, rfl⟩ | ⟨declaration, e', rfl, hmade, -, rfl⟩
      · exact Or.inl he
      · exact Or.inl he
      · rcases List.mem_append.mp he with he | he
        · exact Or.inl he
        · obtain rfl := List.mem_singleton.mp he
          exact Or.inr ⟨declaration, List.mem_cons_self, hmade⟩
    · exact Or.inr ⟨declaration, List.mem_cons_of_mem item hm, hmade⟩

end Descriptor

/-- What a described file is made by: adding its items to an empty file. -/
theorem addItems_of_describe [Expression.Capacity]
    {strict : Bool} {items : List Syntax.Item} {description : Description}
    (h : describe strict items = .ok description) :
    Descriptor.outcome (items.foldlM (Descriptor.addItem strict) ⟨[], []⟩) =
      .ok description.descriptor := by
  unfold describe at h
  rw [← Descriptor.outcome_describing]
  split at h
  · next d findings hrun =>
    cases h
    exact congrArg Prod.fst hrun
  · cases h
  · next f findings hrun =>
    have hviolation : Descriptor.outcome (Descriptor.describing strict items) =
        .error (.violation f) := congrArg Prod.fst hrun
    rw [Descriptor.outcome_describing] at hviolation
    exact absurd hviolation Descriptor.addItems_ne_violation

/-- **The parts of a described file** come from its items: the imports are those of the items, in
order, and every enumeration is what one of the declarations describes. -/
theorem describe_origin [Expression.Capacity]
    {strict : Bool} {items : List Syntax.Item} {description : Description}
    (h : describe strict items = .ok description) :
    description.descriptor.imports = items.filterMap Descriptor.importOf? ∧
      ∀ e ∈ description.descriptor.enumerations, ∃ declaration, .declaration declaration ∈ items ∧
        Descriptor.outcome (Descriptor.enumeration strict declaration) = .ok e := by
  have hitems := addItems_of_describe h
  refine ⟨by simpa using Descriptor.imports_of_addItems hitems, fun e he => ?_⟩
  exact (Descriptor.exists_declaration_of_addItems hitems he).resolve_left List.not_mem_nil

end Errata
