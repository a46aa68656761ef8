import Errata.Association
import Errata.Proofs.Error.Loading
import Errata.Proofs.Error.Registration

/-!
# What names stand for while selectors are made

When the selector of a variant is made, a module has all its imports and classes, and the selectors
and functions of the variants before. If no name is taken twice, each of these names stands for what
it was taken for. The names of the language are not kept apart from them, so that an earlier variant
may take one.

* `Library.IsClear`: no name is taken twice.
* `Library.perm_of_loadDeclared`, `Library.exists_of_loadSelectors`: the names before the selectors,
  and those that come with them.
* `Library.exists_isScope`: a name stands for what it was taken for.
* **`Library.resolves_of_loadSelectors`**: what a name stands for when a selector is made.
-/

namespace Errata.Error

open Descriptor (Enumeration Import Variant)
open Scene (namesOfBinding namesOfClasses namesOfModule)

/-- Whether a definition is for the use of a variant: a selector, or a function that makes an error.
-/
def Definition.isUse : Definition → Bool
  | selector .. | constructor .. => true
  | imported _ | enumeration _ | variant .. => false

namespace Library

/-! ### Names before the selectors -/

/-- The names of the classes of an enumeration. -/
def classEntries (e : Enumeration) : List (String × Definition) :=
  (e.name, .enumeration e) :: e.variants.map fun v => (v.className, .variant e v)

/-- The names of an import. -/
def importEntries (i : Import) : List (String × Definition) :=
  i.boundNames.map fun name => (name, .imported name)

/-- Whether no name of a module is taken twice, or imported as well, where the imports are read as
the names that are kept for them. -/
structure IsClear (d : Descriptor) : Prop where
  /-- No name is taken twice. -/
  nodup : (namesOfModule d).Nodup
  /-- No name is imported as well. -/
  imports : ∀ i ∈ d.imports, ∀ name ∈ i.boundNames, name ∉ namesOfModule d
  /-- The names that are kept for an import are those that it is read as. -/
  read : ∀ i ∈ d.imports, ∀ s, readImport i = some s → i.boundNames = s.boundNames

section

variable {w : Surroundings} {support : String} {d : Descriptor} {e : Enumeration} {i : Import}
  {more declared found : List (String × Definition)} {made rest : List (Enumeration × Variant)}

/-- The classes of an enumeration take their names. -/
theorem perm_of_loadClasses (h : loadClasses e = .ok more) : more.Perm (classEntries e) := by
  obtain ⟨variants, hvariants, h⟩ := Outcome.bind_eq_ok_iff.mp h
  cases h
  have hmade : variants = e.variants.map fun v => (v.className, Definition.variant e v) := by
    rw [← List.forall₂_eq_eq_eq, List.forall₂_map_right_iff]
    refine (Outcome.mapM_eq_ok_iff.mp hvariants).flip.imp fun entry v hv => ?_
    dsimp only at hv
    split at hv
    · cases hv
    · cases hv
      rfl
  rw [hmade]
  exact List.perm_append_comm.trans (List.Perm.cons _ (List.reverse_perm _))

/-- An import takes the names that it is read as. -/
theorem eq_of_loadImport (hread : ∀ s, readImport i = some s → i.boundNames = s.boundNames)
    (h : loadImport w i = .ok more) : more = importEntries i := by
  unfold loadImport at h
  split at h
  · cases h
  · next s hs =>
    split at h
    · cases h
    · obtain ⟨_, -, h⟩ := Outcome.bind_eq_ok_iff.mp h
      cases h
      rw [importEntries, hread s hs]

/-- Entries that are gathered step by step. -/
theorem perm_of_foldlM {α β : Type} {step : List β → α → Except Failure (List β)}
    {entriesOf : α → List β} {as : List α} {before after : List β}
    (hstep : ∀ a ∈ as, ∀ found more, step found a = .ok more → more.Perm (entriesOf a ++ found))
    (h : as.foldlM step before = .ok after) : after.Perm (as.flatMap entriesOf ++ before) := by
  induction as generalizing before with
  | nil =>
    cases h
    exact List.Perm.refl _
  | cons a as ih =>
    rw [List.forall_mem_cons] at hstep
    rw [List.foldlM_cons] at h
    obtain ⟨found, hfound, h⟩ := Outcome.bind_eq_ok_iff.mp h
    refine (ih hstep.2 h).trans (((hstep.1 _ _ hfound).append_left _).trans ?_)
    rw [List.flatMap_cons, ← List.append_assoc]
    exact List.perm_append_comm.append_right _

/-- **The names before the selectors** are those of the classes and of the imports. -/
theorem perm_of_loadDeclared (hread : ∀ i ∈ d.imports, ∀ s, readImport i = some s →
    i.boundNames = s.boundNames) (h : loadDeclared w support d = .ok declared) :
    declared.Perm (d.enumerations.flatMap classEntries ++ d.imports.flatMap importEntries) := by
  obtain ⟨imported, himported, h⟩ := exists_of_loadDeclared h
  have himported : imported.Perm (d.imports.flatMap importEntries ++ []) := by
    refine perm_of_foldlM (fun i hi found more hstep => ?_) himported
    obtain ⟨names, hnames, hstep⟩ := Outcome.bind_eq_ok_iff.mp hstep
    cases hstep
    rw [eq_of_loadImport (hread i hi) hnames]
    exact (List.reverse_perm _).append_right _
  rw [List.append_nil] at himported
  refine (perm_of_foldlM (fun e _ found more hstep => ?_) h).trans (himported.append_left _)
  obtain ⟨classes, hclasses, hstep⟩ := Outcome.bind_eq_ok_iff.mp hstep
  cases hstep
  exact (perm_of_loadClasses hclasses).append_right _

/-! ### Names that come with selectors -/

/-- The names that the use of variants takes. -/
def namesOfUses (made : List (Enumeration × Variant)) : List String :=
  made.flatMap fun p => namesOfBinding p.2

/-- Whether the use of one of the variants takes a name. -/
def Takes (made : List (Enumeration × Variant)) (name : String) : Prop :=
  ∃ p ∈ made, name ∈ namesOfBinding p.2

/-- The names for the use of a variant are its own. -/
theorem perm_usesOf (e : Enumeration) (v : Variant) (causeType : Kind) :
    ((usesOf e v causeType).map Prod.fst).Perm (namesOfBinding v) := by
  rw [usesOf, List.map_append, List.map_map]
  refine List.perm_append_comm.trans ?_
  rw [namesOfBinding, List.map_singleton, List.singleton_append]
  exact List.Perm.cons _ (List.Perm.of_eq (List.map_id _))

/-- They are for the use of the variant. -/
theorem isUse_of_mem_usesOf {v : Variant} {causeType : Kind} {entry : String × Definition}
    (h : entry ∈ usesOf e v causeType) : entry.2.isUse = true := by
  rcases List.mem_append.mp h with h | h
  · obtain ⟨_, -, rfl⟩ := List.mem_map.mp h
    rfl
  · cases List.mem_singleton.mp h
    rfl

/-- **The names that come with selectors** are those for the use of their variants. -/
theorem exists_of_loadSelectors (h : loadSelectors declared made = .ok found) :
    ∃ uses, found = uses ++ declared ∧ (uses.map Prod.fst).Perm (namesOfUses made) ∧
      (∀ entry ∈ uses, entry.2.isUse = true) ∧
      ∀ p ∈ made, ∃ causeType, usesOf p.1 p.2 causeType ⊆ uses := by
  unfold loadSelectors at h
  induction made generalizing declared with
  | nil =>
    cases h
    exact ⟨[], rfl, List.Perm.refl _, by simp, by simp⟩
  | cons p made ih =>
    rw [List.foldlM_cons] at h
    obtain ⟨next, hnext, h⟩ := Outcome.bind_eq_ok_iff.mp h
    obtain ⟨causeType, -, rfl⟩ := exists_of_loadSelector hnext
    obtain ⟨uses, rfl, hnames, huse, hall⟩ := ih h
    refine ⟨uses ++ usesOf p.1 p.2 causeType, by rw [List.append_assoc], ?_, ?_, ?_⟩
    · rw [List.map_append, namesOfUses, List.flatMap_cons]
      exact List.perm_append_comm.trans ((perm_usesOf _ _ _).append hnames)
    · intro entry hentry
      exact (List.mem_append.mp hentry).elim (huse entry) isUse_of_mem_usesOf
    · rw [List.forall_mem_cons]
      refine ⟨⟨causeType, List.subset_append_right _ _⟩, fun q hq => ?_⟩
      obtain ⟨other, hother⟩ := hall q hq
      exact ⟨other, List.Subset.trans hother (List.subset_append_left _ _)⟩

/-! ### Names and what they stand for -/

/-- The names of a module are those of its classes, those of the use of some of its variants, and
those of the use of the others. -/
theorem namesOfModule_eq (hsplit : variantsOf d = made ++ rest) :
    namesOfModule d =
      d.enumerations.flatMap namesOfClasses ++ namesOfUses made ++ namesOfUses rest := by
  have hvariants : d.enumerations.flatMap Enumeration.variants = (variantsOf d).map Prod.snd := by
    simp [variantsOf, List.map_flatMap, Function.comp_def]
  rw [namesOfModule, hvariants, hsplit, List.map_append, List.flatMap_append, List.flatMap_map,
    List.flatMap_map, List.append_assoc]
  rfl

/-- The names of the classes of enumerations. -/
theorem map_fst_classEntries (es : List Enumeration) :
    (es.flatMap classEntries).map Prod.fst = es.flatMap namesOfClasses := by
  rw [List.map_flatMap]
  refine congrArg (List.flatMap · es) (funext fun e => ?_)
  simp [classEntries, namesOfClasses, Function.comp_def]

/-- The names of imports stand for what is imported. -/
theorem mem_importEntries_iff {name : String} {definition : Definition} :
    (name, definition) ∈ d.imports.flatMap importEntries ↔
      ∃ i ∈ d.imports, name ∈ i.boundNames ∧ definition = .imported name := by
  simp only [List.mem_flatMap, importEntries, List.mem_map, Prod.mk.injEq]
  constructor
  · rintro ⟨i, hi, _, hname, rfl, rfl⟩
    exact ⟨i, hi, hname, rfl⟩
  · rintro ⟨i, hi, hname, rfl⟩
    exact ⟨i, hi, name, hname, rfl, rfl⟩

/-- What is declared or imported is not for the use of a variant. -/
theorem isUse_of_mem_declared {entry : String × Definition}
    (h : entry ∈ d.enumerations.flatMap classEntries ++ d.imports.flatMap importEntries) :
    entry.2.isUse = false := by
  rcases List.mem_append.mp h with h | h
  · obtain ⟨e, -, h⟩ := List.mem_flatMap.mp h
    rcases List.mem_cons.mp h with rfl | h
    · rfl
    · obtain ⟨v, -, rfl⟩ := List.mem_map.mp h
      rfl
  · obtain ⟨i, -, h⟩ := List.mem_flatMap.mp h
    obtain ⟨name, -, rfl⟩ := List.mem_map.mp h
    rfl

/-- The names of a module when the selectors of some variants are made: those that come with the
selectors, in front of those before. -/
structure IsScope (d : Descriptor) (made : List (Enumeration × Variant))
    (declared uses : List (String × Definition)) : Prop where
  /-- The names before the selectors are those of the classes and of the imports. -/
  before : declared.Perm
    (d.enumerations.flatMap classEntries ++ d.imports.flatMap importEntries)
  /-- Those that come with the selectors are the names that the use of the variants takes. -/
  names : (uses.map Prod.fst).Perm (namesOfUses made)
  /-- They are for the use of variants. -/
  use : ∀ entry ∈ uses, entry.2.isUse = true
  /-- None is missing. -/
  complete : ∀ p ∈ made, ∃ causeType, usesOf p.1 p.2 causeType ⊆ uses
  /-- A name stands for what it was taken for. -/
  read : ∀ name definition, (uses ++ declared).lookup name = some definition ↔
    (name, definition) ∈ uses ++ declared

/-- **A name stands for what it was taken for**, if no name is taken twice. -/
theorem exists_isScope (hd : IsClear d) (hdeclared : loadDeclared w support d = .ok declared)
    (hsplit : variantsOf d = made ++ rest) (hfound : loadSelectors declared made = .ok found) :
    ∃ uses, found = uses ++ declared ∧ IsScope d made declared uses := by
  obtain ⟨uses, rfl, hnames, huse, hmade⟩ := exists_of_loadSelectors hfound
  have hold := perm_of_loadDeclared hd.read hdeclared
  refine ⟨uses, rfl, hold, hnames, huse, hmade, ?_⟩
  have hperm := hold.append_left uses
  rw [← List.append_assoc] at hperm
  have hkeys : ((uses ++ d.enumerations.flatMap classEntries).map Prod.fst).Perm
      (d.enumerations.flatMap namesOfClasses ++ namesOfUses made) := by
    rw [List.map_append, map_fst_classEntries]
    exact (hnames.append_right _).trans List.perm_append_comm
  have hmodule := namesOfModule_eq hsplit
  have hnodup : ((uses ++ d.enumerations.flatMap classEntries).map Prod.fst).Nodup := by
    rw [hkeys.nodup_iff]
    exact (List.nodup_append.mp (hmodule ▸ hd.nodup)).1
  have himported : ∀ name a b, (name, a) ∈ uses ++ d.enumerations.flatMap classEntries →
      (name, b) ∉ d.imports.flatMap importEntries := by
    intro name a b ha hb
    obtain ⟨i, hi, hname, -⟩ := mem_importEntries_iff.mp hb
    refine hd.imports i hi name hname ?_
    rw [hmodule]
    exact List.mem_append_left _ (hkeys.mem_iff.mp (List.mem_map_of_mem (f := Prod.fst) ha))
  refine fun _ _ => lookup_eq_some_iff_mem fun name a b ha hb => ?_
  rw [hperm.mem_iff, List.mem_append] at ha hb
  rcases ha with ha | ha
  · rcases hb with hb | hb
    · exact congrArg Prod.snd (List.inj_on_of_nodup_map hnodup ha hb rfl)
    · exact absurd hb (himported name a b ha)
  · rcases hb with hb | hb
    · exact absurd ha (himported name b a hb)
    · obtain ⟨-, -, -, rfl⟩ := mem_importEntries_iff.mp ha
      obtain ⟨-, -, -, rfl⟩ := mem_importEntries_iff.mp hb
      rfl

namespace IsScope

variable {uses : List (String × Definition)} {name : String}

/-- What is declared or imported stands for itself. -/
theorem lookup_of_declared (h : IsScope d made declared uses) {definition : Definition}
    (hmem : (name, definition) ∈
      d.enumerations.flatMap classEntries ++ d.imports.flatMap importEntries) :
    (uses ++ declared).lookup name = some definition :=
  (h.read name definition).mpr (List.mem_append_right _ (h.before.mem_iff.mpr hmem))

/-- What is for the use of an earlier variant stands for itself. -/
theorem lookup_of_made (h : IsScope d made declared uses) {p : Enumeration × Variant}
    (hp : p ∈ made) : ∃ causeType, ∀ entry ∈ usesOf p.1 p.2 causeType,
      (uses ++ declared).lookup entry.1 = some entry.2 := by
  obtain ⟨causeType, hsubset⟩ := h.complete p hp
  exact ⟨causeType, fun entry hentry =>
    (h.read entry.1 entry.2).mpr (List.mem_append_left _ (hsubset hentry))⟩

/-- Whether an earlier variant takes a name is seen from the names that come with selectors. -/
theorem takes_iff (h : IsScope d made declared uses) :
    Takes made name ↔ name ∈ uses.map Prod.fst := by
  rw [h.names.mem_iff]
  exact List.mem_flatMap.symm

/-- A name that no earlier variant takes stands for what it stood for before the selectors. -/
theorem lookup_of_not_takes (h : IsScope d made declared uses) (hnone : ¬Takes made name) :
    (uses ++ declared).lookup name = declared.lookup name := by
  rw [h.takes_iff] at hnone
  rw [List.lookup_append, List.lookup_eq_none_iff.mpr, Option.none_or]
  exact fun entry hentry => bne_iff_ne.mpr fun heq => hnone (heq ▸ List.mem_map_of_mem hentry)

/-- A name that an earlier variant takes is for its use. -/
theorem isUse_of_takes (h : IsScope d made declared uses) (hname : Takes made name) :
    ∃ definition, (uses ++ declared).lookup name = some definition ∧ definition.isUse = true := by
  obtain ⟨entry, hentry, rfl⟩ := List.mem_map.mp (h.takes_iff.mp hname)
  exact ⟨entry.2, (h.read _ _).mpr (List.mem_append_left _ hentry), h.use entry hentry⟩

/-- What is declared or imported is not for the use of a variant. -/
theorem not_isUse_of_declared (h : IsScope d made declared uses) {definition : Definition}
    (hdefinition : declared.lookup name = some definition) : definition.isUse = false :=
  isUse_of_mem_declared (h.before.mem_iff.mp (mem_of_lookup hdefinition))

/-- A name that an earlier variant takes is neither declared nor imported. -/
theorem lookup_declared_of_takes (h : IsScope d made declared uses) (hname : Takes made name) :
    declared.lookup name = none := by
  obtain ⟨definition, hdefinition, huse⟩ := h.isUse_of_takes hname
  refine Option.eq_none_iff_forall_ne_some.mpr fun other hother => ?_
  have hsame := (h.read name other).mpr (List.mem_append_right _ (mem_of_lookup hother))
  obtain rfl := Option.some.inj (hdefinition.symm.trans hsame)
  rw [h.not_isUse_of_declared hother] at huse
  cases huse

/-- A name that is neither declared nor imported stands for nothing before the selectors. -/
theorem lookup_declared_of_notMem (h : IsScope d made declared uses)
    (hclasses : name ∉ d.enumerations.flatMap namesOfClasses)
    (himports : ∀ i ∈ d.imports, name ∉ i.boundNames) : declared.lookup name = none := by
  refine Option.eq_none_iff_forall_ne_some.mpr fun definition hdefinition => ?_
  rcases List.mem_append.mp (h.before.mem_iff.mp (mem_of_lookup hdefinition)) with hmem | hmem
  · rw [← map_fst_classEntries] at hclasses
    exact hclasses (List.mem_map_of_mem (f := Prod.fst) hmem)
  · obtain ⟨i, hi, hname, -⟩ := mem_importEntries_iff.mp hmem
    exact himports i hi hname

end IsScope

/-- What a name stands for when the selector of a variant is made. The selectors of some variants
are made already. -/
structure Resolves (d : Descriptor) (made : List (Enumeration × Variant))
    (declared found : List (String × Definition)) (name : String) : Prop where
  /-- The name of an earlier variant stands for its selector. -/
  selector : ∀ p ∈ made, p.2.name = name →
    ∃ causeType, found.lookup name = some (.selector p.1 p.2 causeType)
  /-- The name of the function that makes errors of an earlier variant stands for that function. -/
  constructor : ∀ p ∈ made, p.2.constructor? = some name →
    found.lookup name = some (.constructor p.1 p.2)
  /-- The name of an enumeration stands for it, wherever it is declared. -/
  enumeration : ∀ e ∈ d.enumerations, e.name = name → found.lookup name = some (.enumeration e)
  /-- The name of the class of a variant stands for it. -/
  variant : ∀ e ∈ d.enumerations, ∀ v ∈ e.variants, v.className = name →
    found.lookup name = some (.variant e v)
  /-- An imported name stands for what is imported. -/
  imported : ∀ i ∈ d.imports, name ∈ i.boundNames → found.lookup name = some (.imported name)
  /-- Any other name is left to the support of the module, and to the language. -/
  other : ¬Takes made name → name ∉ d.enumerations.flatMap namesOfClasses →
    (∀ i ∈ d.imports, name ∉ i.boundNames) → found.lookup name = none
  /-- So a name stands for a selector, or for a function that makes errors, exactly if an earlier
  variant takes it. -/
  use_iff : (∃ definition ∈ found.lookup name, definition.isUse = true) ↔ Takes made name
  /-- Then the name is neither declared nor imported. -/
  undeclared : Takes made name → declared.lookup name = none
  /-- Otherwise it stands for what it stands for before the selectors. -/
  kept : ¬Takes made name → found.lookup name = declared.lookup name

/-- **What a name stands for when a selector is made**, if no name is taken twice. -/
theorem resolves_of_loadSelectors (hd : IsClear d)
    (hdeclared : loadDeclared w support d = .ok declared) (hsplit : variantsOf d = made ++ rest)
    (hfound : loadSelectors declared made = .ok found) (name : String) :
    Resolves d made declared found name := by
  obtain ⟨uses, rfl, hscope⟩ := exists_isScope hd hdeclared hsplit hfound
  refine ⟨fun p hp hname => ?_, fun p hp hname => ?_, fun e he hname => ?_,
    fun e he v hv hname => ?_, fun i hi hname => ?_, fun hnone hclasses himports => ?_, ⟨?_, ?_⟩,
    hscope.lookup_declared_of_takes, hscope.lookup_of_not_takes⟩
  · obtain ⟨causeType, hmade⟩ := hscope.lookup_of_made hp
    subst hname
    exact ⟨causeType, hmade _ (List.mem_append_right _ (List.mem_singleton_self _))⟩
  · obtain ⟨causeType, hmade⟩ := hscope.lookup_of_made hp
    refine hmade (name, .constructor p.1 p.2) (List.mem_append_left _ ?_)
    rw [hname]
    exact List.mem_singleton_self _
  · subst hname
    refine hscope.lookup_of_declared (List.mem_append_left _ (List.mem_flatMap.mpr ⟨e, he, ?_⟩))
    exact List.mem_cons_self
  · subst hname
    refine hscope.lookup_of_declared (List.mem_append_left _ (List.mem_flatMap.mpr ⟨e, he, ?_⟩))
    exact List.mem_cons_of_mem _ (List.mem_map_of_mem hv)
  · exact hscope.lookup_of_declared
      (List.mem_append_right _ (mem_importEntries_iff.mpr ⟨i, hi, hname, rfl⟩))
  · rw [hscope.lookup_of_not_takes hnone, hscope.lookup_declared_of_notMem hclasses himports]
  · rintro ⟨definition, hdefinition, huse⟩
    by_contra hnone
    rw [hscope.lookup_of_not_takes hnone] at hdefinition
    rw [hscope.not_isUse_of_declared hdefinition] at huse
    cases huse
  · exact hscope.isUse_of_takes

end

end Library

end Errata.Error
