import Errata.Association
import Errata.Error.Library
import Errata.Proofs.Error.Call

/-!
# The selectors of loaded modules

A loaded module knows the selectors of the variants of its descriptor. The type of the causes is
nothing for a variant that wraps no error.

* `Library.Fits`: names that stand for no other selectors.
* `Library.exists_of_loadSelector`, `Library.exists_of_loadDeclared`: what making a selector adds,
  and what there is before.
* `Library.fits_of_load`: the names of a loaded module.
* `Library.HasMade`, **`Library.exists_isOf`**: calling a selector of a loaded module makes a
  selector of a variant.
-/

namespace Errata

namespace Error.Library

open Descriptor (Enumeration Variant)

/-- Whether all selectors among some names are those of variants of a descriptor, without a type of
causes if the variant wraps no error. -/
def Fits (d : Descriptor) (definitions : List (String × Definition)) : Prop :=
  ∀ name e v causeType, (name, Definition.selector e v causeType) ∈ definitions →
    (e ∈ d.enumerations ∧ v ∈ e.variants) ∧ (v.source? = none → causeType = .nothing)

variable {d : Descriptor} {found more : List (String × Definition)}

/-- Names that stand for no selectors fit. -/
theorem fits_of_forall_ne
    (h : ∀ name e v causeType, (name, Definition.selector e v causeType) ∉ found) : Fits d found :=
  fun name e v causeType hm => absurd hm (h name e v causeType)

/-- Names that fit, together with others that do. -/
theorem fits_append (hfound : Fits d found) (hmore : Fits d more) : Fits d (more ++ found) := by
  intro name e v causeType hm
  rcases List.mem_append.mp hm with hm | hm
  · exact hmore name e v causeType hm
  · exact hfound name e v causeType hm

/-- An import defines no selectors. -/
theorem fits_of_loadImport {w : Surroundings} {i : Descriptor.Import}
    (h : loadImport w i = .ok more) : Fits d more.reverse := by
  unfold loadImport at h
  split at h
  · cases h
  · split at h
    · cases h
    · obtain ⟨_, -, h⟩ := Outcome.bind_eq_ok_iff.mp h
      cases h
      apply fits_of_forall_ne
      simp

/-- The classes of an enumeration are no selectors. -/
theorem fits_of_loadClasses {e : Enumeration} (h : loadClasses e = .ok more) : Fits d more := by
  obtain ⟨variants, hvariants, h⟩ := Outcome.bind_eq_ok_iff.mp h
  cases h
  apply fits_of_forall_ne
  intro name e' v causeType hm
  rcases List.mem_append.mp hm with hm | hm
  · obtain ⟨w, -, hw⟩ := Outcome.exists_of_mem_mapM hvariants (List.mem_reverse.mp hm)
    split at hw
    · cases hw
    · cases hw
  · simp at hm

/-- The names for the use of a variant, the latest first. -/
def usesOf (e : Enumeration) (v : Variant) (causeType : Kind) : List (String × Definition) :=
  (v.constructor?.toList.map fun name => (name, .constructor e v)) ++
    [(v.name, .selector e v causeType)]

/-- **Making the selector of a variant** adds the names for its use. -/
theorem exists_of_loadSelector {e : Enumeration} {v : Variant}
    (h : loadSelector found e v = .ok more) :
    ∃ causeType, (v.source? = none → causeType = .nothing) ∧
      more = usesOf e v causeType ++ found := by
  unfold loadSelector at h
  dsimp only at h
  split at h
  · next f hsource =>
    obtain ⟨causeType, -, h⟩ := Outcome.bind_eq_ok_iff.mp h
    cases h
    refine ⟨causeType, by simp [hsource], ?_⟩
    unfold usesOf
    cases v.constructor? <;> rfl
  · cases h
    refine ⟨.nothing, fun _ => rfl, ?_⟩
    unfold usesOf
    cases v.constructor? <;> rfl

/-- The selector of a variant fits. -/
theorem fits_of_loadSelector {e : Enumeration} {v : Variant} (he : e ∈ d.enumerations)
    (hv : v ∈ e.variants) (hfound : Fits d found) (h : loadSelector found e v = .ok more) :
    Fits d more := by
  obtain ⟨causeType, hcause, rfl⟩ := exists_of_loadSelector h
  refine fits_append hfound fun name e' v' causeType' hm => ?_
  rcases List.mem_append.mp hm with hm | hm
  · obtain ⟨_, -, heq⟩ := List.mem_map.mp hm
    cases heq
  · cases List.mem_singleton.mp hm
    exact ⟨⟨he, hv⟩, hcause⟩

/-- **The names of a module before its selectors** are gathered from its imports, and then from its
enumerations. -/
theorem exists_of_loadDeclared {w : Surroundings} {support : String}
    (h : loadDeclared w support d = .ok found) :
    ∃ imported,
      (d.imports.foldlM (fun found i => do
        let more ← loadImport w i
        return more.reverse ++ found) []) = .ok imported ∧
      (d.enumerations.foldlM (fun found e => do
        let more ← loadClasses e
        return more ++ found) imported) = .ok found := by
  unfold loadDeclared at h
  dsimp only at h
  split at h
  · cases h
  · obtain ⟨_, -, h⟩ := Outcome.bind_eq_ok_iff.mp h
    obtain ⟨imported, himported, h⟩ := Outcome.bind_eq_ok_iff.mp h
    split at h
    · cases h
    · exact ⟨imported, himported, h⟩

/-- The names of a module before its selectors fit. -/
theorem fits_of_loadDeclared {w : Surroundings} {support : String}
    (h : loadDeclared w support d = .ok found) : Fits d found := by
  obtain ⟨imported, himported, h⟩ := exists_of_loadDeclared h
  have himported : Fits d imported := by
    refine Outcome.of_foldlM (fun i _ found found' hfound hstep => ?_)
      (fits_of_forall_ne (by simp)) himported
    obtain ⟨more, hmore, hstep⟩ := Outcome.bind_eq_ok_iff.mp hstep
    cases hstep
    exact fits_append hfound (fits_of_loadImport hmore)
  refine Outcome.of_foldlM (fun e _ found found' hfound hstep => ?_) himported h
  obtain ⟨more, hmore, hstep⟩ := Outcome.bind_eq_ok_iff.mp hstep
  cases hstep
  exact fits_append hfound (fits_of_loadClasses hmore)

/-- The variants of a descriptor are those of its enumerations. -/
theorem mem_variantsOf_iff {e : Enumeration} {v : Variant} :
    (e, v) ∈ variantsOf d ↔ e ∈ d.enumerations ∧ v ∈ e.variants := by
  simp [variantsOf, List.mem_flatMap]

/-- **The names of a loaded module** fit its descriptor. -/
theorem fits_of_load {w : Surroundings} {support : String} {l : Library}
    (h : load w support d = .ok l) : Fits d l.definitions := by
  obtain ⟨declared, hdeclared, h⟩ := Outcome.bind_eq_ok_iff.mp h
  obtain ⟨definitions, hdefinitions, h⟩ := Outcome.bind_eq_ok_iff.mp h
  cases h
  refine Outcome.of_foldlM (fun pair hpair found found' hfound hstep => ?_)
    (fits_of_loadDeclared hdeclared) hdefinitions
  obtain ⟨he, hv⟩ := mem_variantsOf_iff.mp hpair
  exact fits_of_loadSelector he hv hfound hstep

/-- Whether an object was made by calling the selector of a variant in a loaded module. -/
def HasMade (e : Enumeration) (v : Variant) (causeType : Kind) (r : Ref) (t : Store) : Prop :=
  ∃ w support d l name s stack values, load w support d = .ok l ∧
    l.definition name = .ok (.selector e v causeType) ∧
    call s stack values (.selector e v causeType) = .ok (r, t)

/-- **A selector of a loaded module** makes selectors of a variant. -/
theorem exists_isOf {e : Enumeration} {v : Variant} {causeType : Kind} {r : Ref} {t : Store}
    (h : HasMade e v causeType r t) :
    ∃ x, t.selector? (.object r) = some x ∧ x.IsOf e v causeType := by
  obtain ⟨w, support, d, l, name, s, stack, values, hload, hname, hcall⟩ := h
  have hmem : (name, Definition.selector e v causeType) ∈ l.definitions := by
    unfold definition at hname
    split at hname
    · next found hfound =>
      cases hname
      exact mem_of_lookup hfound
    · cases hname
  exact isOf_of_makeSelector (fits_of_load hload _ _ _ _ hmem).2 hcall

end Error.Library

end Errata
