import Errata.Proofs.Descriptor.Wording
import Errata.Proofs.Emission.Assembly
import Errata.Proofs.Error.Binding
import Errata.Proofs.Error.Loading
import Errata.Proofs.Shadowing

/-!
# What binding makes

Four parts of a generated module have to agree on the fields of a variant: the class of its errors,
the fields of its selectors, the method that binds them, and the function that makes errors of it.

* `Store.IsBound`: what an error that a selector made tells.
* `isBound_of_bind`: an error that a selector made tells that.
* **`bind_assembles`**: when a selector can be bound, what its errors tell, and that the function
  sets the same fields.
* `exists_declared`: variants of compiled files, with and without such fields.
* `not_bind_private`: a field that selectors cannot hand on, and one that hides the class.
-/

namespace Errata.Error

open Descriptor (Enumeration Field Variant)

namespace Store

/-- What an error tells that a selector made of what a failed operation left: its class, the fields
of the selector, the place, and its cause. -/
structure IsBound (t : Store) (r : Ref) (x : Selector) (e : Enumeration) (v : Variant)
    (place : Location) (residual : Value) : Prop where
  /-- It is of the class of the variant. -/
  variant : t.variant? (.object r) = some (r, e, v)
  /-- Its fields are those of the selector. -/
  fields : ∀ f ∈ v.selectorFields, ∃ value, x.fields.lookup f.name = some value ∧
    t.attributeOf (.object r) f.name = .ok value
  /-- A field for the place holds the place. -/
  location : ∀ f, v.location? = some f → t.attributeOf (.object r) f.name = .ok (.location place)
  /-- A field for the cause holds what the selector was bound to. -/
  source : ∀ f, v.source? = some f → t.attributeOf (.object r) f.name = .ok residual
  /-- The cause that the error tells of is what the field for it holds. -/
  cause : t.cause (.object r) = .ok (if v.source?.isSome then residual else .none)
  /-- It is chained to what the selector was bound to. -/
  chained : t.chainedTo (.object r) = .ok residual

section

variable {s t : Store} {home : String} {stack : List Frame} {x : Selector} {e : Enumeration}
  {v : Variant} {causeType : Kind} {residual : Value} {place : Location} {r : Ref}

/-- The fields of an error that a selector made. -/
theorem attributeOf_boundError (hv : v.IsWellFormed) (cause : Option Ref) {f : Field}
    (hf : f ∈ v.fields) :
    (s.add (.error (x.boundError e v place residual cause))).2.attributeOf (.object s.size) f.name =
      .ok (x.boundValue v place residual f) := by
  have hfound := lookup_map_of_nodup hv.fieldNames (x.boundValue v place residual) hf
  simp only [attributeOf, error?_add, Selector.boundError, hfound]

/-- The class of an error that a selector made. -/
theorem variant?_boundError (cause : Option Ref) :
    (s.add (.error (x.boundError e v place residual cause))).2.variant? (.object s.size) =
      some (s.size, e, v) :=
  variant?_eq_some_iff.mpr ⟨_, s.error?_add _, rfl⟩

/-- A selector holds every field that selectors of its variant hold. -/
theorem exists_lookup_of_isOf (hx : x.IsOf e v causeType) {f : Field} (hf : f ∈ v.selectorFields) :
    ∃ value, x.fields.lookup (privateName v.name f.name) = some value := by
  have hmem : privateName v.name f.name ∈ x.fields.map Prod.fst := by
    rw [hx.fields]
    exact List.mem_map_of_mem hf
  obtain ⟨⟨name, value⟩, hentry, hname⟩ := List.mem_map.mp hmem
  rw [← Option.ne_none_iff_exists']
  intro hnone
  have hne := List.lookup_eq_none_iff.mp hnone _ hentry
  exact (bne_iff_ne.mp hne) hname.symm

/-- **An error that a selector made** tells its class, the fields, the place and the cause. -/
theorem isBound_of_bind [Hierarchy] (hv : v.IsWellFormed) (hx : x.IsOf e v causeType)
    (hplace : capture 0 stack = .ok place)
    (h : s.bind home stack x residual = .ok (r, t)) :
    t.IsBound r x e v place residual := by
  obtain ⟨haccepts, hpublic⟩ := (exists_bind_iff hv hx hplace).mp ⟨_, h⟩
  rw [bind_of_accepts home hv hx hplace hpublic haccepts] at h
  have hr : s.size = r := congrArg Prod.fst (Except.ok.inj h)
  have ht : (s.add (.error _)).2 = t := congrArg Prod.snd (Except.ok.inj h)
  subst hr ht
  have hsourceRole : ∀ f, v.source? = some f → f ∈ v.fields ∧ f.role = .source := by
    intro f hf
    exact ⟨List.mem_of_find?_eq_some hf, by simpa using List.find?_some hf⟩
  have hsource : ∀ f, v.source? = some f →
      x.boundValue v place residual f = residual := by
    intro f hf
    rw [Selector.boundValue, (hsourceRole f hf).2]
  constructor
  · exact variant?_boundError _
  · intro f hf
    obtain ⟨hmem, hrole⟩ := List.mem_filter.mp hf
    have hrole : f.role = .selector := by simpa using hrole
    have hname : privateName v.name f.name = f.name :=
      not_not.mp (not_isPrivate_name (hpublic.fields f hmem))
    obtain ⟨value, hvalue⟩ := exists_lookup_of_isOf hx hf
    rw [hname] at hvalue
    refine ⟨value, hvalue, (attributeOf_boundError hv _ hmem).trans ?_⟩
    simp [Selector.boundValue, hrole, hname, hvalue]
  · intro f hf
    have hrole : f.role = .location := by simpa using List.find?_some hf
    rw [attributeOf_boundError hv _ (List.mem_of_find?_eq_some hf), Selector.boundValue, hrole]
  · intro f hf
    rw [attributeOf_boundError hv _ (hsourceRole f hf).1, hsource f hf]
  · rw [cause, error?_add]
    simp only [Selector.boundError, Class.isGenerated, causeOf, if_true]
    cases hfound : v.source? with
    | none => rfl
    | some f =>
      have hname : sourceField = f.name := (hv.sourceName f hfound).symm
      simp only [Option.isSome_some, if_true, hname]
      refine (attributeOf_boundError hv _ (hsourceRole f hfound).1).trans ?_
      rw [hsource f hfound]
  · rw [chainedTo, error?_add]
    exact congrArg Except.ok (valueOfRef_of_accepts haccepts)

/-- The function that makes errors of a variant sets the fields as a bound selector does. -/
theorem attributeOf_callConstructor [Hierarchy] (hv : v.IsWellFormed) (hx : x.IsOf e v causeType)
    (hsource : v.source? = none) (hplace : capture 0 stack = .ok place) {name : String} {q : Ref}
    {u : Store} (hbind : s.bind home stack x residual = .ok (r, t))
    (hcall : callConstructor s stack e v name x.fields = .ok (q, u)) :
    u.variant? (.object q) = some (q, e, v) ∧
      ∀ f ∈ v.fields, u.attributeOf (.object q) f.name = t.attributeOf (.object r) f.name := by
  obtain ⟨haccepts, hpublic⟩ := (exists_bind_iff hv hx hplace).mp ⟨_, hbind⟩
  obtain ⟨-, hmade⟩ := (callConstructor_eq_ok_iff hv hx hsource hplace name).mp hcall
  rw [bind_of_accepts home hv hx hplace hpublic haccepts] at hbind
  have hr : s.size = r := congrArg Prod.fst (Except.ok.inj hbind)
  have ht : (s.add (.error _)).2 = t := congrArg Prod.snd (Except.ok.inj hbind)
  have hq : q = s.size := congrArg Prod.fst hmade
  have hu : u = (s.add (.error _)).2 := congrArg Prod.snd hmade
  subst hr ht hq hu
  refine ⟨variant?_boundError _, fun f hf => ?_⟩
  have hother : f.role ≠ .source := by
    simpa using List.find?_eq_none.mp hsource f hf
  rw [attributeOf_boundError hv _ hf, attributeOf_boundError hv _ hf]
  simp only [Selector.boundValue]
  split <;> simp_all

end

/-! ### Variants of compiled files -/

/-- A variant of a file that compiles. -/
theorem exists_variant_of_compile [Expression.Capacity]
    (source : String) (P : Enumeration → Variant → Bool)
    (h : ((compile {} source "<input>").toOption.any fun c => !c.report.hasErrors &&
      c.descriptor.any fun d => d.enumerations.any fun e => e.variants.any (P e)) = true) :
    ∃ e v, v.IsWellFormed ∧ (∀ f ∈ v.fields, Syntax.IsName f.name.toList) ∧ P e v = true := by
  obtain ⟨c, hc, hrun⟩ := (Option.any_eq_true _ _).mp h
  rw [Outcome.toOption_eq_some_iff] at hc
  obtain ⟨hclean, hdescribed⟩ := Bool.and_eq_true_iff.mp hrun
  obtain ⟨items, d, blocks, hmodule⟩ := exists_isModuleOf hc (by simpa using hclean)
  rw [hmodule.held, Option.any_some] at hdescribed
  obtain ⟨e, he, hdescribed⟩ := List.any_eq_true.mp hdescribed
  obtain ⟨v, hv, hP⟩ := List.any_eq_true.mp hdescribed
  obtain ⟨tree, hparse, hitems⟩ := hmodule.read
  obtain ⟨findings, hdescription⟩ := hmodule.described
  have hwell := (describe_isWellFormed hdescription).enumerations e he
  have hworded := describe_isWorded (Syntax.isWorded_of_fileItems hparse hitems) hdescription
  exact ⟨e, v, hwell.variants v hv, fun f hf => (hworded.fields e he v hv f hf).name, hP⟩

/-- A file with one variant. -/
def declaring (variant : String) : String :=
  "enum E \x7b #[error = \"m\"] " ++ variant ++ " \x7d"

/-- A store with an error that is not generated. -/
def denied : Store :=
  ⟨[.error { kind := .foreign "PermissionError" }]⟩

/-- Three variants of files that compile: with a cause and a place, with a field that belongs to its
class alone, and with a field that has the name of its class. -/
theorem exists_declared :
    (∃ (_ : Enumeration) (v : Variant), v.IsWellFormed ∧
      (∀ f ∈ v.fields, Syntax.IsName f.name.toList) ∧
      v.selectorFields.length = 1 ∧ v.source?.isSome ∧ v.location?.isSome ∧
      ¬IsPrivate v.name v.className ∧ ∀ f ∈ v.fields, ¬IsPrivate v.className f.name) ∧
    (∃ e v, v.IsWellFormed ∧ (∀ f ∈ v.fields, Syntax.IsName f.name.toList) ∧ v.source? = none ∧
      (bind ⟨[]⟩ "m" [mainFrame] (selectorOf e v .nothing (.int 1)) .none).toOption = none) ∧
    ∃ e v, v.IsWellFormed ∧ (∀ f ∈ v.fields, Syntax.IsName f.name.toList) ∧ v.source? = none ∧
      (bind ⟨[]⟩ "m" [mainFrame] (selectorOf e v .nothing (.int 1)) .none).toOption.isSome ∧
      (callConstructor ⟨[]⟩ [mainFrame] e v "v"
        (selectorOf e v .nothing (.int 1)).fields).toOption = none := by
  refine ⟨?_, ?_, ?_⟩
  · obtain ⟨e, v, hv, hnames, hP⟩ := exists_variant_of_compile
      (declaring "V \x7b n: int, #[source] source: OSError, #[location] location: Location \x7d")
      (fun _ v => v.selectorFields.length = 1 && v.source?.isSome && v.location?.isSome &&
        decide (¬IsPrivate v.name v.className) &&
        v.fields.all fun f => ¬IsPrivate v.className f.name) (by decide +kernel)
    simp only [Bool.and_eq_true, decide_eq_true_eq, List.all_eq_true] at hP
    obtain ⟨⟨⟨⟨hlength, hsource⟩, hlocation⟩, hclass⟩, hfields⟩ := hP
    exact ⟨e, v, hv, hnames, hlength, hsource, hlocation, hclass, hfields⟩
  · obtain ⟨e, v, hv, hnames, hP⟩ := exists_variant_of_compile
      (declaring "V \x7b __x: int \x7d")
      (fun e v => v.source?.isNone &&
        (bind ⟨[]⟩ "m" [mainFrame] (selectorOf e v .nothing (.int 1)) .none).toOption.isNone)
      (by decide +kernel)
    simp only [Bool.and_eq_true, Option.isNone_iff_eq_none] at hP
    exact ⟨e, v, hv, hnames, hP⟩
  · obtain ⟨e, v, hv, hnames, hP⟩ := exists_variant_of_compile
      (declaring "V \x7b E_V: int \x7d")
      (fun e v => v.source?.isNone &&
        (bind ⟨[]⟩ "m" [mainFrame] (selectorOf e v .nothing (.int 1)) .none).toOption.isSome &&
        (callConstructor ⟨[]⟩ [mainFrame] e v "v"
          (selectorOf e v .nothing (.int 1)).fields).toOption.isNone)
      (by decide +kernel)
    simp only [Bool.and_eq_true, Option.isNone_iff_eq_none] at hP
    exact ⟨e, v, hv, hnames, hP.1.1, hP.1.2, hP.2⟩

end Store

end Errata.Error
