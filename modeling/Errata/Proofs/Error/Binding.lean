import Errata.Error.Binding
import Errata.Error.Chain
import Errata.Proofs.Error.Call
import Errata.Proofs.Error.Story

/-!
# Bound selectors

A selector accepts what a failed operation left if it is an error of the type of its causes, or, for
a variant that wraps none, any error or nothing. Bound to that it makes an error of its variant that
holds its fields, the place of the caller and the cause. The function that makes errors of a variant
without a cause sets the same fields.

* `Class.belongsTo_self`: an error belongs to its own class.
* `Store.Accepts`: what a selector of a variant accepts.
* `Store.extractCause_of_accepts`, `Store.extractCause_of_not_accepts`: what is extracted.
* `IsPublic`: variants none of whose names belongs to a class alone.
* `Store.bind_of_accepts`, **`Store.exists_bind_iff`**: when a selector can be bound, and the error
  that is made.
* **`Store.callConstructor_eq_ok_iff`**: the error that the function makes.
-/

namespace Errata.Error

open Descriptor (Enumeration Field Variant)

/-! ### Classes -/

/-- A class of the language is found among the classes above it. -/
theorem mem_foreignAncestors (name : String) : name ∈ foreignAncestors name := by
  unfold foreignAncestors
  generalize foreignParents ++ supportParents = table
  induction table with
  | nil => exact List.mem_singleton_self name
  | cons row rest ih =>
    rw [List.foldr_cons]
    dsimp only
    split
    · exact List.mem_append_left _ ih
    · exact ih

/-- **An error belongs to its own class.** -/
theorem Class.belongsTo_self [Hierarchy] (c : Class) : c.belongsTo c = true := by
  rw [belongsTo, List.contains_iff_mem]
  cases c with
  | foreign name =>
    rw [ancestors]
    split
    · exact List.mem_map_of_mem (mem_foreignAncestors name)
    · exact List.mem_cons_self
  | _ => exact List.mem_cons_self

/-- An error is caught if it belongs to the only class that is asked for. -/
theorem Kind.admits?_of_belongsTo [Hierarchy] {c d : Class} (h : c.belongsTo d = true) :
    (Kind.tuple [.errors d]).admits? c = some true := by
  rw [admits?, anyAdmits?, admits?, h]

/-- Where some classes of the language stand. -/
theorem Class.belongsTo_foreign :
    (foreign "PermissionError").belongsTo (foreign "OSError") = true ∧
      (foreign "PermissionError").belongsTo ordinary = true ∧
      (foreign "ValueError").belongsTo (foreign "OSError") = false ∧
      (foreign "KeyboardInterrupt").belongsTo ordinary = false :=
  ⟨by decide +kernel, by decide +kernel, by decide +kernel, by decide +kernel⟩

namespace Store

/-! ### Objects -/

variable {s : Store}

/-- What is known for an error is a reference to one. -/
theorem error?_eq_some_iff {value : Value} {r : Ref} {error : ErrorObject} :
    s.error? value = some (r, error) ↔ value = .object r ∧ s.get? r = some (.error error) := by
  cases value with
  | object q =>
    rw [error?_object_eq_some_iff, Value.object.injEq]
    constructor
    · rintro ⟨rfl, hget⟩
      exact ⟨rfl, hget⟩
    · rintro ⟨rfl, hget⟩
      exact ⟨rfl, hget⟩
  | _ => simp [error?]

/-- An error that was just added. -/
theorem error?_add (s : Store) (error : ErrorObject) :
    (s.add (.error error)).2.error? (.object s.size) = some (s.size, error) :=
  error?_object_eq_some_iff.mpr ⟨rfl, s.get?_add _⟩

/-- Adding an error and chaining it is adding the chained error. -/
theorem chain_add (s : Store) (error : ErrorObject) (cause : Option Ref) :
    (s.add (.error error)).2.chain s.size cause =
      (s.add (.error { error with chained := cause })).2 := by
  rw [chain, get?_add]
  simp [put, add, size]

/-! ### What is accepted -/

variable [Hierarchy]

/-- Whether a selector of a variant accepts what a failed operation left: an error of the type of
its causes, if the variant wraps one, and any error or nothing otherwise. -/
def Accepts (s : Store) (v : Variant) (causeType : Kind) (residual : Value) : Prop :=
  if v.source?.isSome then
    ∃ r error, s.error? residual = some (r, error) ∧ causeType.admits? error.kind = some true
  else
    residual = .none ∨ ∃ r error, s.error? residual = some (r, error)

/-- The shape of an error. -/
theorem shapeOf_error {residual : Value} {r : Ref} {error : ErrorObject}
    (herror : s.error? residual = some (r, error)) (causeType : Kind) :
    s.shapeOf residual causeType =
      if causeType.isNothing then .ok .anyError
      else
        match causeType.admits? error.kind with
        | none => .error .notAType
        | some true => .ok .error
        | some false => .ok .anyError := by
  obtain ⟨rfl, -⟩ := error?_eq_some_iff.mp herror
  rw [shapeOf, herror]
  rfl

/-- What has no shape is of no use as a cause. -/
theorem className_of_shapeOf {residual : Value} {causeType : Kind} {failure : Failure}
    (h : s.shapeOf residual causeType = .error failure) : failure.className = "TypeError" := by
  unfold shapeOf at h
  split at h
  · cases h
  · split at h
    · cases h
      rfl
    · split at h
      · cases h
      · split at h <;> cases h
        rfl

/-- A shape that a variant accepts is that of what its selectors accept. -/
theorem exists_shape_iff {v : Variant} {causeType : Kind} {residual : Value}
    (hsourceless : v.source? = none → causeType = .nothing) :
    (∃ shape, s.shapeOf residual causeType = .ok shape ∧ shape ∈ Emission.acceptedShapes v) ↔
      s.Accepts v causeType residual := by
  unfold Accepts Emission.acceptedShapes
  by_cases hnone : residual = .none
  · subst hnone
    have hshape : s.shapeOf .none causeType = .ok .empty := rfl
    split <;> simp [hshape, error?]
  · cases herror : s.error? residual with
    | none =>
      have hshape : s.shapeOf residual causeType = .error (.unboundable (s.typeName residual)) := by
        cases residual with
        | none => exact absurd rfl hnone
        | _ => simp [shapeOf, Value.isNone, herror]
      simp [hshape, hnone]
    | some found =>
      obtain ⟨r, error⟩ := found
      rw [shapeOf_error herror]
      by_cases hsource : v.source?.isSome = true
      · cases causeType with
        | nothing => simp [hsource, Kind.isNothing, Kind.admits?]
        | _ =>
          rw [if_neg (by simp [Kind.isNothing])]
          split <;> simp_all
      · have hnothing : causeType = .nothing := hsourceless (by simpa using hsource)
        simp [hsource, hnothing, Kind.isNothing]

section

variable {home : String} {x : Selector} {e : Enumeration} {v : Variant} {causeType : Kind}
  {residual : Value}

/-- **What is extracted** from what a selector accepts. -/
theorem extractCause_of_accepts (home : String) (hx : x.IsOf e v causeType)
    (haccepts : s.Accepts v causeType residual) :
    s.extractCause home x residual = .ok ((s.error? residual).map Prod.fst) := by
  obtain ⟨shape, hshape, hmem⟩ := (exists_shape_iff hx.sourceless).mpr haccepts
  have hcontains : x.shapes.contains shape = true := by simpa [hx.shapes] using hmem
  simp only [extractCause, hx.causes, hshape, Bind.bind, Except.bind, hcontains]
  rfl

/-- **Nothing is extracted** from what a selector does not accept. -/
theorem extractCause_of_not_accepts (home : String) (hx : x.IsOf e v causeType)
    (hnot : ¬s.Accepts v causeType residual) :
    ∃ failure, s.extractCause home x residual = .error failure ∧
      failure.className = "TypeError" := by
  simp only [extractCause, hx.causes]
  cases hshape : s.shapeOf residual causeType with
  | error failure => exact ⟨failure, rfl, className_of_shapeOf hshape⟩
  | ok shape =>
    have hcontains : x.shapes.contains shape = false := by
      rw [← Bool.not_eq_true, hx.shapes, List.contains_iff_mem]
      intro hmem
      exact hnot ((exists_shape_iff hx.sourceless).mp ⟨shape, hshape, hmem⟩)
    simp only [Bind.bind, Except.bind, hcontains]
    exact ⟨_, rfl, rfl⟩

/-- What is accepted is nothing, or an error. -/
theorem eq_none_or_error_of_accepts (haccepts : s.Accepts v causeType residual) :
    residual = .none ∨ ∃ r error, s.error? residual = some (r, error) := by
  unfold Accepts at haccepts
  split at haccepts
  · obtain ⟨r, error, herror, -⟩ := haccepts
    exact Or.inr ⟨r, error, herror⟩
  · exact haccepts

/-- What is accepted is the extracted error, or nothing. -/
theorem valueOfRef_of_accepts (haccepts : s.Accepts v causeType residual) :
    valueOfRef ((s.error? residual).map Prod.fst) = residual := by
  rcases eq_none_or_error_of_accepts haccepts with rfl | ⟨r, error, herror⟩
  · rfl
  · obtain ⟨rfl, -⟩ := error?_eq_some_iff.mp herror
    rw [herror]
    rfl

/-- An error may be chained to what is accepted. -/
theorem chainable_of_accepts (haccepts : s.Accepts v causeType residual) :
    s.chainable residual = .ok ((s.error? residual).map Prod.fst) := by
  rcases eq_none_or_error_of_accepts haccepts with rfl | ⟨r, error, herror⟩
  · rfl
  · obtain ⟨rfl, -⟩ := error?_eq_some_iff.mp herror
    simp [chainable, Value.isNone, herror]

end

end Store

/-! ### Errors that are made -/

/-- Whether no name that the class of a variant and its selectors use belongs to a class alone. -/
structure IsPublic (v : Variant) : Prop where
  /-- The name of the class does not belong to the class of the selectors. -/
  className : ¬IsPrivate v.name v.className
  /-- The names of the fields do not belong to the class of the errors. -/
  fields : ∀ f ∈ v.fields, ¬IsPrivate v.className f.name

/-- What a selector sets a field to: the place, what it is bound to, or a value that it holds. -/
def Selector.boundValue (x : Selector) (v : Variant) (place : Location) (residual : Value)
    (f : Field) : Value :=
  match f.role with
  | .location => .location place
  | .source => residual
  | _ => (x.fields.lookup (privateName v.name f.name)).getD .none

/-- The error that a selector makes. -/
def Selector.boundError (x : Selector) (e : Enumeration) (v : Variant) (place : Location)
    (residual : Value) (cause : Option Ref) : ErrorObject where
  kind := .variant e v
  attributes := v.fields.map fun f => (f.name, x.boundValue v place residual f)
  chained := cause

/-- A place above a call of generated code is that of its caller. -/
theorem capture_succ (frame : Frame) (stack : List Frame) (depth : Nat) :
    capture (depth + 1) (frame :: stack) = capture depth stack := by
  simp [capture]

/-- A field that is not private in the class of errors is not private in that of selectors. -/
theorem not_isPrivate_name {v : Variant} {name : String} (h : ¬IsPrivate v.className name) :
    ¬IsPrivate v.name name := by
  intro hprivate
  exact h (hprivate.append (v.enumeration ++ "_"))

namespace Store

section

variable {s : Store} {home : String} {stack : List Frame} {x : Selector} {e : Enumeration}
  {v : Variant} {causeType : Kind} {residual : Value} {place : Location}

variable [Hierarchy]

/-- The arguments that a selector puts together for the class of its variant. -/
theorem assembled_boundValue (hv : v.IsWellFormed) (hplace : capture 0 stack = .ok place)
    (haccepts : s.Accepts v causeType residual) :
    (assembled (generatedFrame "bind" :: stack) v fun f =>
      if f.role = .source then .ok (valueOfRef ((s.error? residual).map Prod.fst))
      else .ok ((x.fields.lookup (privateName v.name f.name)).getD .none)) =
        .ok (v.fields.map fun f => (f.name, x.boundValue v place residual f)) := by
  have hplace : capture 1 (generatedFrame "bind" :: stack) = .ok place := by
    rw [capture_succ, hplace]
  refine (assembled_eq_ok hplace (x.boundValue v place residual) ?_).trans ?_
  · intro f hf hrole
    have hsound := (hv.fields f hf).role
    rw [valueOfRef_of_accepts haccepts, Selector.boundValue]
    cases hf : f.role <;> simp_all
  · congr 1
    apply List.map_congr_left
    intro f _
    split
    · next hrole => rw [Selector.boundValue, hrole]
    · rfl

/-- **A bound selector makes an error** of what it accepts, if all names of its variant are public.
-/
theorem bind_of_accepts (home : String) (hv : v.IsWellFormed) (hx : x.IsOf e v causeType)
    (hplace : capture 0 stack = .ok place) (hpublic : IsPublic v)
    (haccepts : s.Accepts v causeType residual) :
    s.bind home stack x residual = .ok (s.add (.error
      (x.boundError e v place residual ((s.error? residual).map Prod.fst)))) := by
  have hclass : privateName v.name v.className = v.className := not_not.mp hpublic.className
  have hmade : makeError s (generatedFrame "bind" :: stack) e v
      (v.fields.map fun f => (f.name, x.boundValue v place residual f)) =
        .ok (s.add (.error
          { x.boundError e v place residual none with
            chained := if v.source?.isSome then (s.error? residual).map Prod.fst else none })) :=
    makeError_eq_ok e hv.fieldNames hpublic.fields ?_ ?_
  · unfold bind
    simp only [extractCause_of_accepts home hx haccepts, hx.product, hclass, ne_eq,
      not_true_eq_false, if_false, assembled_boundValue hv hplace haccepts, hmade, Bind.bind,
      Except.bind, Pure.pure, Except.pure]
    by_cases hsource : v.source?.isSome = true
    · simp only [hsource, if_true]
      rfl
    · simp only [hsource]
      exact congrArg (fun t => Except.ok (s.size, t)) (s.chain_add _ _)
  · intro f _ hrole
    rw [Selector.boundValue, hrole]
    exact chainable_of_accepts haccepts
  · intro f _ hrole
    rw [Selector.boundValue, hrole]
    rfl

/-- A selector cannot be bound to what it does not accept. -/
theorem bind_of_not_accepts (home : String) (stack : List Frame) (hx : x.IsOf e v causeType)
    (hnot : ¬s.Accepts v causeType residual) :
    ∃ failure, s.bind home stack x residual = .error failure ∧ failure.className = "TypeError" := by
  obtain ⟨failure, hfailure, hclass⟩ := extractCause_of_not_accepts home hx hnot
  refine ⟨failure, ?_, hclass⟩
  unfold bind
  rw [hfailure]
  rfl

/-- No error is made of a variant of which some name is not public. -/
theorem bind_of_not_isPublic (home : String) (hv : v.IsWellFormed) (hx : x.IsOf e v causeType)
    (hplace : capture 0 stack = .ok place) (haccepts : s.Accepts v causeType residual)
    (hnot : ¬IsPublic v) : ∃ failure, s.bind home stack x residual = .error failure := by
  by_cases hclass : IsPrivate v.name v.className
  · unfold bind
    rw [extractCause_of_accepts home hx haccepts]
    have hclass : privateName v.name v.className ≠ v.className := hclass
    simp only [hx.product, if_pos hclass, Bind.bind, Except.bind]
    exact ⟨_, rfl⟩
  · obtain ⟨f, hf, hprivate⟩ : ∃ f ∈ v.fields, IsPrivate v.className f.name := by
      by_contra hnone
      push Not at hnone
      exact hnot ⟨hclass, hnone⟩
    have hnames : (v.fields.map fun f => (f.name, x.boundValue v place residual f)).map Prod.fst =
        v.fieldNames := by
      simp [Variant.fieldNames]
    obtain ⟨failure, hfailure⟩ :=
      makeError_of_isPrivate s (generatedFrame "bind" :: stack) e hnames hf hprivate
    refine ⟨failure, ?_⟩
    unfold bind
    simp only [extractCause_of_accepts home hx haccepts, hx.product, not_not.mp hclass, ne_eq,
      not_true_eq_false, if_false, assembled_boundValue hv hplace haccepts, hfailure, Bind.bind,
      Except.bind]

/-- **A selector can be bound** exactly to what it accepts, if all names of its variant are public.
-/
theorem exists_bind_iff (hv : v.IsWellFormed) (hx : x.IsOf e v causeType)
    (hplace : capture 0 stack = .ok place) :
    (∃ made, s.bind home stack x residual = .ok made) ↔
      s.Accepts v causeType residual ∧ IsPublic v := by
  constructor
  · rintro ⟨made, hmade⟩
    have haccepts : s.Accepts v causeType residual := by
      by_contra hnot
      obtain ⟨failure, hfailure, -⟩ := bind_of_not_accepts home stack hx hnot
      rw [hfailure] at hmade
      cases hmade
    refine ⟨haccepts, ?_⟩
    by_contra hnot
    obtain ⟨failure, hfailure⟩ := bind_of_not_isPublic home hv hx hplace haccepts hnot
    rw [hfailure] at hmade
    cases hmade
  · rintro ⟨haccepts, hpublic⟩
    exact ⟨_, bind_of_accepts home hv hx hplace hpublic haccepts⟩

/-! ### Functions that make errors -/

omit [Hierarchy] in
/-- The fields of a selector go by the names of the parameters, if these are public. -/
theorem fields_of_public (hx : x.IsOf e v causeType)
    (hpublic : ∀ f ∈ v.fields, ¬IsPrivate v.className f.name) :
    x.fields.map Prod.fst = v.selectorFields.map Field.name := by
  rw [hx.fields]
  apply List.map_congr_left
  intro f hf
  have hf : f ∈ v.fields := (List.mem_filter.mp hf).1
  exact not_not.mp (not_isPrivate_name (hpublic f hf))

omit [Hierarchy] in
/-- The arguments that the function puts together for the class of the variant. -/
theorem assembled_function (hsource : v.source? = none)
    (hplace : capture 0 stack = .ok place) (name : String) (values : List (String × Value)) :
    ∃ arguments, assembled (generatedFrame name :: stack) v
        (fun f => .ok ((values.lookup f.name).getD .none)) = .ok arguments ∧
      arguments.map Prod.fst = v.fieldNames ∧
      ((∀ f ∈ v.fields, ¬IsPrivate v.className f.name) → values = x.fields →
        arguments = v.fields.map fun f => (f.name, x.boundValue v place .none f)) := by
  have hplace : capture 1 (generatedFrame name :: stack) = .ok place := by
    rw [capture_succ, hplace]
  refine ⟨_, assembled_eq_ok hplace (fun f => (values.lookup f.name).getD .none)
    (fun f _ _ => rfl), by simp [Variant.fieldNames, Function.comp_def], ?_⟩
  rintro hpublic rfl
  apply List.map_congr_left
  intro f hf
  have hname : privateName v.name f.name = f.name :=
    not_not.mp (not_isPrivate_name (hpublic f hf))
  have hrole : f.role ≠ .source := by
    intro hrole
    exact List.find?_eq_none.mp hsource f hf (by simpa using hrole)
  rw [Selector.boundValue, hname]
  cases hrole' : f.role <;> simp_all

omit [Hierarchy] in
/-- **The function** that makes errors of a variant without a cause makes one of the fields of a
selector exactly if the names of the fields are public and none of them is that of the class. It
sets the fields as the selector does. -/
theorem callConstructor_eq_ok_iff (hv : v.IsWellFormed) (hx : x.IsOf e v causeType)
    (hsource : v.source? = none) (hplace : capture 0 stack = .ok place) (name : String)
    {made : Ref × Store} :
    callConstructor s stack e v name x.fields = .ok made ↔
      ((∀ f ∈ v.fields, ¬IsPrivate v.className f.name) ∧
        ∀ f ∈ v.selectorFields, f.name ≠ v.className) ∧
      made = s.add (.error (x.boundError e v place .none none)) := by
  obtain ⟨arguments, harguments, hnames, hbound⟩ :=
    assembled_function (v := v) (x := x) hsource hplace name x.fields
  have hmade : (∀ f ∈ v.fields, ¬IsPrivate v.className f.name) →
      makeError s (generatedFrame name :: stack) e v arguments =
        .ok (s.add (.error (x.boundError e v place .none none))) := by
    intro hpublic
    have hchainable : ∀ f ∈ v.fields, f.role = .source →
        s.chainable (x.boundValue v place .none f) = .ok none := by
      intro f hf hrole
      exact absurd (by simpa using hrole) (List.find?_eq_none.mp hsource f hf)
    rw [hbound hpublic rfl, makeError_eq_ok e hv.fieldNames hpublic hchainable]
    · simp [Selector.boundError]
    · intro f _ hrole
      rw [Selector.boundValue, hrole]
      rfl
  unfold callConstructor
  simp only [harguments]
  constructor
  · intro h
    split at h
    · cases h
    · split at h
      · cases h
      · next hhidden =>
        have hpublic : ∀ f ∈ v.fields, ¬IsPrivate v.className f.name := by
          intro f hf hprivate
          obtain ⟨failure, hfailure⟩ :=
            makeError_of_isPrivate s (generatedFrame name :: stack) e hnames hf hprivate
          simp [hfailure, Bind.bind, Except.bind] at h
        simp only [hmade hpublic, Bind.bind, Except.bind] at h
        cases h
        exact ⟨⟨hpublic, by simpa using hhidden⟩, rfl⟩
  · rintro ⟨⟨hpublic, hhidden⟩, rfl⟩
    have hmatch : mismatch? name true false
        (v.selectorFields.map fun f => { name := f.name : Parameter }) (x.fields.map Prod.fst) =
          none := by
      rw [mismatch?_eq_none_iff, fields_of_public hx hpublic]
      constructor
      · intro n hn
        obtain ⟨f, hf, rfl⟩ := List.mem_map.mp hn
        exact ⟨_, List.mem_map_of_mem hf, rfl⟩
      · intro p hp _
        obtain ⟨f, hf, rfl⟩ := List.mem_map.mp hp
        exact List.mem_map_of_mem hf
    have hhidden : (v.selectorFields.any fun f => f.name = v.className) = false := by
      simpa using hhidden
    simp only [hmatch, hhidden, Bind.bind, Except.bind]
    exact hmade hpublic

end

/-! ### Examples of selectors -/

/-- A selector of a variant that holds the same value for every field. -/
def selectorOf (e : Enumeration) (v : Variant) (causeType : Kind) (value : Value) : Selector where
  name := v.name
  shapes := Emission.acceptedShapes v
  causeType := some causeType
  product := .variant e v
  fields := v.selectorFields.map fun f => (privateName v.name f.name, value)

/-- It is a selector of the variant. -/
theorem isOf_selectorOf {e : Enumeration} {v : Variant} {causeType : Kind}
    (h : v.source? = none → causeType = .nothing) (value : Value) :
    (selectorOf e v causeType value).IsOf e v causeType :=
  ⟨rfl, rfl, rfl, h, by simp [selectorOf, Function.comp_def]⟩

/-- A call in the main file of a program. -/
def mainFrame : Frame :=
  ⟨.file "main.py", 3, "main"⟩

end Store

end Errata.Error
