import Errata.Error.Call
import Errata.Proofs.Descriptor.WellFormed
import Errata.Proofs.Outcome

/-!
# Calls with named arguments

The class of a variant takes its fields by name. Calling it with all of them makes an error that
holds them, unless a name belongs to the class alone: inside the class it stands for another name,
so that no argument of that name is taken.

* `IsPrivate`, `privateName_ne_of_isPrivate`: names that belong to a class alone.
* `mismatch?_eq_none_iff`: when named arguments match parameters.
* `assembled_eq_ok`: the arguments that are put together for the class of a variant.
* `foldlM_initialField`: what a run through the fields makes of them.
* **`makeError_eq_ok`**, `makeError_of_isPrivate`: the error that the class makes of values for all
  its fields.
* `Selector.IsOf`, **`isOf_of_makeSelector`**: the selector that is made of values.
-/

namespace Errata.Error

open Descriptor (Enumeration Field Variant)

/-! ### Names that belong to a class -/

/-- Whether a name belongs to a class alone, where it stands for another name. -/
def IsPrivate (owner name : String) : Prop :=
  privateName owner name ≠ name

instance (owner name : String) : Decidable (IsPrivate owner name) :=
  inferInstanceAs (Decidable (_ ≠ _))

/-- A name that belongs to a class alone has one low line more in front, and the name of the class
without the low lines that it starts with. -/
theorem privateName_of_dropWhile {owner name : String} {c : Char} {rest : List Char}
    (hstart : name.startsWith "__" = true) (hend : name.endsWith "__" = false)
    (howner : owner.toList.dropWhile (· = '_') = c :: rest) :
    privateName owner name = "_" ++ String.ofList (c :: rest) ++ name := by
  simp [privateName, hstart, hend, howner]

/-- A name belongs to a class alone if it starts with two low lines, does not end with two, and the
name of the class is more than low lines. -/
theorem isPrivate_iff {owner name : String} :
    IsPrivate owner name ↔ name.startsWith "__" = true ∧ name.endsWith "__" = false ∧
      owner.toList.dropWhile (· = '_') ≠ [] := by
  unfold IsPrivate
  constructor
  · intro h
    by_contra hnot
    apply h
    unfold privateName
    split
    · next hname =>
      simp only [Bool.and_eq_true, Bool.not_eq_true'] at hname
      split
      · rfl
      · next stripped hstripped => exact absurd ⟨hname.1, hname.2, hstripped⟩ hnot
    · rfl
  · rintro ⟨hstart, hend, howner⟩ heq
    obtain ⟨c, rest, hrest⟩ := List.exists_cons_of_ne_nil howner
    rw [privateName_of_dropWhile hstart hend hrest] at heq
    have hlength := congrArg String.length heq
    simp only [String.length_append] at hlength
    have hone : "_".length = 1 := rfl
    omega

/-- No name stands for a name that belongs to the class alone. -/
theorem privateName_ne_of_isPrivate {owner name : String} (h : IsPrivate owner name)
    (other : String) : privateName owner other ≠ name := by
  intro heq
  by_cases hother : IsPrivate owner other
  · obtain ⟨hstart, hend, howner⟩ := isPrivate_iff.mp hother
    obtain ⟨c, rest, hrest⟩ := List.exists_cons_of_ne_nil howner
    have hc : c ≠ '_' := by
      have hhead := List.head?_dropWhile_not (· = '_') owner.toList
      simpa [hrest] using hhead
    -- the second character is no low line, but it is one in the name that belongs to the class
    have hname : ['_', '_'] <+: name.toList := by
      simpa using String.startsWith_string_iff.mp (isPrivate_iff.mp h).1
    rw [← heq, privateName_of_dropWhile hstart hend hrest] at hname
    simp only [String.toList_append, String.toList_ofList] at hname
    obtain ⟨after, hafter⟩ := hname
    simp only [String.reduceToList, List.cons_append, List.nil_append, List.cons.injEq] at hafter
    exact hc hafter.2.1.symm
  · rw [IsPrivate, not_not] at hother
    rw [hother] at heq
    rw [heq] at hother
    exact h hother

/-- A name that belongs to a class alone would also belong to any class with a longer name. -/
theorem IsPrivate.append {owner name : String} (h : IsPrivate owner name) (before : String) :
    IsPrivate (before ++ owner) name := by
  obtain ⟨hstart, hend, howner⟩ := isPrivate_iff.mp h
  refine isPrivate_iff.mpr ⟨hstart, hend, ?_⟩
  intro hnone
  apply howner
  rw [List.dropWhile_eq_nil_iff] at hnone ⊢
  intro c hc
  exact hnone c (by simp [hc])

/-! ### Matching -/

/-- Named arguments match parameters exactly if each has a parameter, and every parameter that may
not be left out has an argument. -/
theorem mismatch?_eq_none_iff {callee : String} {areNamed isMethod : Bool}
    {parameters : List Parameter} {names : List String} :
    mismatch? callee areNamed isMethod parameters names = none ↔
      (∀ n ∈ names, ∃ p ∈ parameters, p.name = n) ∧
        ∀ p ∈ parameters, p.isOptional = false → p.name ∈ names := by
  unfold mismatch?
  dsimp only
  cases hfind : names.find? fun name => !parameters.any fun p => decide (p.name = name) with
  | some name =>
    have hunknown : ¬∃ p ∈ parameters, p.name = name := by
      simpa using List.find?_some hfind
    have hmem : name ∈ names := List.mem_of_find?_eq_some hfind
    dsimp only
    constructor
    · intro h
      split at h <;> cases h
    · rintro ⟨hknown, -⟩
      exact absurd (hknown name hmem) hunknown
  | none =>
    have hknown : ∀ n ∈ names, ∃ p ∈ parameters, p.name = n := by
      simpa using List.find?_eq_none.mp hfind
    dsimp only
    rw [ite_eq_left_iff, and_iff_right hknown]
    simp

/-- Values by the names of fields, looked up by the name of a field. -/
theorem lookup_map_of_nodup {fields : List Field} (hnodup : (fields.map Field.name).Nodup)
    (value : Field → Value) {f : Field} (hf : f ∈ fields) :
    (fields.map fun g => (g.name, value g)).lookup f.name = some (value f) := by
  induction fields with
  | nil => cases hf
  | cons g fields ih =>
    rw [List.map_cons, List.nodup_cons] at hnodup
    rw [List.map_cons]
    by_cases hname : f.name = g.name
    · have heq : f = g := by
        rcases List.mem_cons.mp hf with heq | hmem
        · exact heq
        · exact absurd (hname ▸ List.mem_map_of_mem hmem) hnodup.1
      rw [heq, List.lookup_cons_self]
    · have hmem : f ∈ fields := by
        rcases List.mem_cons.mp hf with heq | hmem
        · exact absurd (congrArg Field.name heq) hname
        · exact hmem
      rw [List.lookup_cons, beq_false_of_ne hname]
      exact ih hnodup.2 hmem

/-! ### Errors -/

/-- The arguments for the class of a variant, where the values for all fields but that for the place
are at hand. -/
theorem assembled_eq_ok {stack : List Frame} {v : Variant} {place : Location}
    (hplace : capture 1 stack = .ok place) {valueOf : Field → Except Failure Value}
    (value : Field → Value)
    (hvalue : ∀ f ∈ v.fields, f.role ≠ .location → valueOf f = .ok (value f)) :
    assembled stack v valueOf = .ok (v.fields.map fun f =>
      (f.name, if f.role = .location then .location place else value f)) := by
  unfold assembled
  rw [Outcome.mapM_eq_ok_iff, List.forall₂_map_right_iff, List.forall₂_same]
  intro f hf
  by_cases hrole : f.role = .location
  · simp only [if_pos hrole, hplace]
    rfl
  · simp only [if_neg hrole, hvalue f hf hrole]
    rfl

section

variable {s : Store} {stack : List Frame} {v : Variant} {value : Field → Value}
  {cause : Option Ref}

/-- A run through fields sets each to its value. The error is chained to the wrapped one. -/
theorem foldlM_initialField (stack : List Frame) {values : List (String × Value)}
    {fields : List Field}
    (hpublic : ∀ f ∈ fields, ¬IsPrivate v.className f.name)
    (hvalues : ∀ f ∈ fields, values.lookup f.name = some (value f))
    (hsource : ∀ f ∈ fields, f.role = .source → s.chainable (value f) = .ok cause)
    (hplace : ∀ f ∈ fields, f.role = .location → (value f).isNone = false)
    (attributes : List (String × Value)) (chained : Option Ref) :
    fields.foldlM (fun state f => initialField s stack values state v f) (attributes, chained) =
      .ok (attributes ++ fields.map fun f => (f.name, value f),
        if fields.any fun f => f.role = .source then cause else chained) := by
  induction fields generalizing attributes chained with
  | nil => simp [pure, Except.pure]
  | cons f fields ih =>
    rw [List.forall_mem_cons] at hpublic hvalues hsource hplace
    have hname : privateName v.className f.name = f.name := not_not.mp hpublic.1
    have hstep : initialField s stack values (attributes, chained) v f =
        .ok (attributes ++ [(f.name, value f)],
          if f.role = .source then cause else chained) := by
      simp only [initialField, hname, hvalues.1, Option.getD_some]
      cases hrole : f.role with
      | source => simp [hsource.1 hrole, bind, Except.bind, pure, Except.pure]
      | location => simp [hplace.1 hrole, pure, Except.pure]
      | _ => simp [pure, Except.pure]
    rw [List.foldlM_cons, hstep]
    refine (ih hpublic.2 hvalues.2 hsource.2 hplace.2 _ _).trans ?_
    by_cases hrole : f.role = .source <;> simp [hrole]

/-- **The class of a variant** makes an error that holds values for all its fields, unless one of
their names belongs to the class alone. -/
theorem makeError_eq_ok (e : Enumeration) (hv : v.fieldNames.Nodup)
    (hpublic : ∀ f ∈ v.fields, ¬IsPrivate v.className f.name)
    (hsource : ∀ f ∈ v.fields, f.role = .source → s.chainable (value f) = .ok cause)
    (hplace : ∀ f ∈ v.fields, f.role = .location → (value f).isNone = false) :
    makeError s stack e v (v.fields.map fun f => (f.name, value f)) =
      .ok (s.add (.error
        { kind := .variant e v
          attributes := v.fields.map fun f => (f.name, value f)
          chained := if v.source?.isSome then cause else none })) := by
  have hname : ∀ f ∈ v.fields, privateName v.className f.name = f.name := by
    intro f hf
    exact not_not.mp (hpublic f hf)
  have hmatch : mismatch? (v.className ++ ".__init__") true true (variantParameters v)
      ((v.fields.map fun f => (f.name, value f)).map Prod.fst) = none := by
    rw [mismatch?_eq_none_iff]
    constructor
    · intro n hn
      obtain ⟨f, hf, rfl⟩ : ∃ f ∈ v.fields, f.name = n := by simpa using hn
      exact ⟨_, List.mem_map_of_mem hf, hname f hf⟩
    · intro p hp _
      obtain ⟨f, hf, rfl⟩ := List.mem_map.mp hp
      rw [List.map_map]
      exact List.mem_map.mpr ⟨f, hf, (hname f hf).symm⟩
  have hrun := foldlM_initialField stack hpublic
    (fun f hf => lookup_map_of_nodup hv value hf) hsource hplace [] none
  have hcause : (v.fields.any fun f => f.role = .source) = v.source?.isSome := by
    rw [Bool.eq_iff_iff]
    simp [Variant.source?]
  unfold makeError
  by_cases hunit : v.fields = []
  · have hnone : v.source? = none := by simp [Variant.source?, hunit]
    simp [Variant.isUnit, hunit, hnone, pure, Except.pure]
  · have hunit : v.isUnit = false := by simpa [Variant.isUnit] using hunit
    rw [if_neg (by simp [hunit])]
    simp only [hmatch, hrun, hcause]
    rfl

/-- **The class of a variant** makes no error of values for all its fields if one of their names
belongs to the class alone. -/
theorem makeError_of_isPrivate (s : Store) (stack : List Frame) (e : Enumeration)
    {values : List (String × Value)}
    (hvalues : values.map Prod.fst = v.fieldNames) {f : Field} (hf : f ∈ v.fields)
    (hprivate : IsPrivate v.className f.name) :
    ∃ failure, makeError s stack e v values = .error failure := by
  have hmismatch : mismatch? (v.className ++ ".__init__") true true (variantParameters v)
      (values.map Prod.fst) ≠ none := by
    intro hnone
    have hmem : f.name ∈ values.map Prod.fst := hvalues ▸ List.mem_map_of_mem hf
    obtain ⟨p, hp, hname⟩ := (mismatch?_eq_none_iff.mp hnone).1 f.name hmem
    obtain ⟨g, -, rfl⟩ := List.mem_map.mp hp
    exact privateName_ne_of_isPrivate hprivate g.name hname
  obtain ⟨failure, hfailure⟩ := Option.ne_none_iff_exists'.mp hmismatch
  have hunit : v.isUnit = false := by
    simpa [Variant.isUnit] using List.ne_nil_of_mem hf
  refine ⟨failure, ?_⟩
  unfold makeError
  simp only [hunit, hfailure]
  rfl

end

/-! ### Selectors -/

/-- A selector of a variant: it holds a value for every field that a selector holds, and knows the
type of the causes, if the variant wraps any. -/
structure Selector.IsOf (x : Selector) (e : Enumeration) (v : Variant) (causeType : Kind) :
    Prop where
  /-- It makes errors of the variant. -/
  product : x.product = .variant e v
  /-- It can be bound to the shapes that the variant accepts. -/
  shapes : x.shapes = Emission.acceptedShapes v
  /-- It knows the type of the causes. -/
  causes : x.causeType = some causeType
  /-- Without a wrapped error, the type of the causes is nothing. -/
  sourceless : v.source? = none → causeType = .nothing
  /-- It holds the fields. -/
  fields : x.fields.map Prod.fst = v.selectorFields.map fun f => privateName v.name f.name

/-- **Calling a selector** of a variant makes a selector of it. -/
theorem isOf_of_makeSelector {s t : Store} {r : Ref} {e : Enumeration} {v : Variant}
    {causeType : Kind} (hsourceless : v.source? = none → causeType = .nothing)
    {values : List (String × Value)} (h : makeSelector s e v causeType values = .ok (r, t)) :
    ∃ x, t.selector? (.object r) = some x ∧ x.IsOf e v causeType := by
  unfold makeSelector at h
  dsimp only at h
  split at h
  · cases h
  · cases h
    let x : Selector :=
      { name := v.name
        shapes := selectorShapes v
        causeType := some causeType
        product := .variant e v
        fields := (v.selectorFields.map fun f => privateName v.name f.name).map fun name =>
          (name, (values.lookup name).getD .none) }
    have hfound : (s.add (.selector x)).2.selector? (.object s.size) = some x := by
      simp [Store.selector?, Store.get?, Store.size, Store.add]
    exact ⟨x, hfound, rfl, rfl, rfl, hsourceless, by simp [x, Function.comp_def]⟩

end Errata.Error
