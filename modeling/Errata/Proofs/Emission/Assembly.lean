import Errata.Emission.Selector
import Errata.Proofs.Emission.Call
import Errata.Proofs.Emission.Module
import Errata.Proofs.Syntax.Spelling

/-!
# The arguments for the class of a variant

Selectors, and the functions that make errors, call the class of their variant with one named
argument for each of its parameters. Each argument is taken from a name that is known where the call
stands.

* `IsCall`: a text that is read as a call with some named arguments.
* **`isCall_assembly`**: what is read of the call that is emitted.
* **`parameters_of_initMethod`**: the parameters of the class are its fields.
* `bindBody_calls`, `constructor_calls`: the calls and the names that are known there.
-/

namespace Errata.Emission

open Descriptor (Field IsWhole Role Variant)
open Expression (IsPlain Place isPlain_of)
open Syntax (IsName isNameChar)

/-! ### Calls -/

/-- Whether a text is read as a call with the given named arguments. -/
def IsCall (text callee : String) (arguments : List (String × String)) : Prop :=
  ∃ inside r, text.toList = callee.toList ++ '(' :: (inside ++ [')']) ∧
    readCall? (inside ++ [')']) = some r ∧ r.behind = [] ∧
    r.arguments = arguments.map fun a => a.1.toList ++ '=' :: a.2.toList

/-- Whether a character may stand in the names of parts. -/
def isPathChar (c : Char) : Bool :=
  isNameChar c || c = '.' || c = '='

/-- Whether a text is a name with the names of parts behind it. -/
def IsPath (text : String) : Prop :=
  ∀ c ∈ text.toList, isPathChar c = true

instance (text : String) : Decidable (IsPath text) :=
  List.decidableBAll _ _

/-- The expression that captures the place of the caller. -/
def captured : String := "_eg_rt.capture_location(1)"

/-- What holds of plain characters that are no commas. -/
def IsInner (c : Char) : Prop :=
  IsPlain c ∧ Unicode.isBlank c = false ∧ c ≠ ','

instance (c : Char) : Decidable (IsInner c) :=
  inferInstanceAs (Decidable (_ ∧ _))

/-- Characters of paths are neither marks nor white space nor commas. -/
theorem isInner_of_isPathChar {c : Char} (h : isPathChar c = true) : IsInner c := by
  have hascii : ∀ n < 128, isNameChar (Char.ofNat n) = true → IsInner (Char.ofNat n) := by
    decide
  simp only [isPathChar, Bool.or_eq_true, decide_eq_true_eq] at h
  rcases h with (h | rfl) | rfl
  · exact Syntax.forall_isNameChar (P := IsInner) hascii h
  · decide
  · decide

/-- Plain characters outside strings, comments and brackets change nothing. -/
theorem run_of_isInner {e : List Char} (h : ∀ c ∈ e, IsInner c) :
    Place.start.run e = some .start := by
  have hpasses := (Expression.passes_append (fun c hc => (h c hc).1) []).run_eq []
  rwa [List.append_nil] at hpasses

/-- A text without white space and commas that ends where it started is whole and stands alone. -/
theorem isWhole_of_run {e : List Char} (hne : e ≠ [])
    (hchars : ∀ c ∈ e, Unicode.isBlank c = false ∧ c ≠ ',')
    (hrun : Place.start.run e = some .start) : IsWhole e ∧ StandsAlone e := by
  refine ⟨⟨hne, isStripped_of_forall _ fun c hc => (hchars c hc).1, .code, hrun, trivial, trivial⟩,
    ?_, ?_⟩
  · rintro ⟨before, after, -, rfl, -⟩
    exact (hchars ',' (by simp)).2 rfl
  · rintro ⟨t, ht, hcomment⟩
    rw [hrun] at ht
    cases ht
    cases hcomment

/-- An argument that is emitted is whole and stands alone. -/
theorem isWhole_argument {name value : String} (hname : IsName name.toList)
    (hvalue : IsPath value ∨ value = captured) :
    IsWhole (name.toList ++ '=' :: value.toList) ∧
      StandsAlone (name.toList ++ '=' :: value.toList) := by
  have hfront : ∀ c ∈ name.toList ++ ['='], IsInner c := by
    intro c hc
    apply isInner_of_isPathChar
    rcases List.mem_append.mp hc with hc | hc
    · simp [isPathChar, hname.isNameChar c hc]
    · rw [List.mem_singleton.mp hc]
      rfl
  have hback : (∀ c ∈ value.toList, Unicode.isBlank c = false ∧ c ≠ ',') ∧
      Place.start.run value.toList = some .start := by
    rcases hvalue with hvalue | rfl
    · have hinner : ∀ c ∈ value.toList, IsInner c :=
        fun c hc => isInner_of_isPathChar (hvalue c hc)
      exact ⟨fun c hc => (hinner c hc).2, run_of_isInner hinner⟩
    · have hall : (captured.toList.all fun c => !Unicode.isBlank c && c != ',') = true := by
        decide
      exact ⟨by simpa using hall, by decide⟩
  have hsplit : name.toList ++ '=' :: value.toList = (name.toList ++ ['=']) ++ value.toList := by
    simp
  rw [hsplit]
  apply isWhole_of_run
  · simp
  · intro c hc
    rcases List.mem_append.mp hc with hc | hc
    · exact (hfront c hc).2
    · exact hback.1 c hc
  · rw [Expression.run_append, run_of_isInner hfront]
    exact hback.2

/-- **The call of the class of a variant** is read as a call with an argument for every field. -/
theorem isCall_assembly {v : Variant} (hnames : ∀ f ∈ v.fields, IsName f.name.toList)
    {valueOf : Field → String}
    (hvalue : ∀ f ∈ v.fields, f.role ≠ .location → IsPath (valueOf f)) :
    IsCall (assembly v valueOf) v.className
      (v.fields.map fun f => (f.name, if f.role = .location then captured else valueOf f)) := by
  have hwhole : ∀ a ∈ v.fields.map (fun f => f.name.toList ++ '=' ::
      (if f.role = .location then captured else valueOf f).toList), IsWhole a ∧ StandsAlone a := by
    intro a ha
    obtain ⟨f, hf, rfl⟩ := List.mem_map.mp ha
    apply isWhole_argument (hnames f hf)
    by_cases hrole : f.role = .location
    · exact Or.inr (if_pos hrole)
    · exact Or.inl (by rw [if_neg hrole]; exact hvalue f hf hrole)
  obtain ⟨r, hr, harguments, hbehind⟩ :=
    (readCall?_joined (fun a ha => (hwhole a ha).1) []).mpr fun a ha => (hwhole a ha).2
  refine ⟨_, r, ?_, hr, hbehind, by rw [harguments, List.map_map]; rfl⟩
  have hargument : ∀ f : Field, (if f.role = .location then f.name ++ "=_eg_rt.capture_location(1)"
      else f.name ++ "=" ++ valueOf f).toList =
        f.name.toList ++ '=' :: (if f.role = .location then captured else valueOf f).toList := by
    intro f
    split <;> simp [captured]
  simp [assembly, String.toList_intercalate, hargument, Function.comp_def]

/-! ### Parameters -/

/-- **The parameters of the class of a variant** are its fields, in order. -/
theorem parameters_of_initMethod {fields : List Field} {lines : Lines}
    (h : initMethod fields = .ok lines) :
    ∃ parameters, lines.head? =
        some ("def __init__(self, *, " ++ ", ".intercalate parameters ++ ") -> None:") ∧
      List.Forall₂ (fun f p => (f.name ++ ": ").toList <+: p.toList) fields parameters := by
  obtain ⟨found, hfound, h⟩ := Outcome.bind_eq_ok_iff.mp h
  cases h
  refine ⟨found.map Prod.fst, rfl, ?_⟩
  rw [List.forall₂_map_right_iff]
  refine (Outcome.mapM_eq_ok_iff.mp hfound).imp fun f p hp => ?_
  unfold parameter at hp
  dsimp only at hp
  split at hp <;> cases hp <;> simp

/-! ### Known names -/

/-- The name that a line of a function assigns, if it does. -/
def assignedIn? (line : String) : Option String :=
  if [' ', '=', ' '] <+: line.toList.dropWhile isNameChar then
    some (String.ofList (line.toList.takeWhile isNameChar))
  else none

/-- The name that a path starts with. -/
def pathHead (path : String) : String :=
  String.ofList (path.toList.takeWhile isNameChar)

/-- Where a selector takes the value of a field from when it is bound. -/
def boundTo (f : Field) : String :=
  match f.role with
  | .location => captured
  | .source => "source"
  | _ => "self." ++ f.name

/-- Where the function that makes errors of a variant takes the value of a field from. -/
def givenTo (f : Field) : String :=
  if f.role = .location then captured else f.name

/-- The name that a path of two parts starts with. -/
theorem pathHead_append {name : String} (hname : ∀ c ∈ name.toList, isNameChar c = true)
    {rest : String} (hrest : (rest.toList.takeWhile isNameChar) = []) :
    pathHead (name ++ rest) = name := by
  rw [pathHead, String.toList_append, List.takeWhile_append_of_pos hname, hrest, List.append_nil,
    String.ofList_toList]

/-- A name is a path. -/
theorem isPath_of_isName {name : String} (h : IsName name.toList) : IsPath name := by
  intro c hc
  simp [isPathChar, h.isNameChar c hc]

/-- The name of a part of something with a name is a path. -/
theorem isPath_append {first second : String} (hfirst : IsPath first) (hsecond : IsPath second) :
    IsPath (first ++ second) := by
  intro c hc
  rw [String.toList_append] at hc
  rcases List.mem_append.mp hc with hc | hc
  · exact hfirst c hc
  · exact hsecond c hc

/-- What a field is taken from is a path, unless it is the place. -/
theorem isPath_boundTo {f : Field} (hname : IsName f.name.toList) (hrole : f.role ≠ .location) :
    IsPath (boundTo f) := by
  unfold boundTo
  split
  · next hlocation => exact absurd hlocation hrole
  · decide
  · exact isPath_append (by decide) (isPath_of_isName hname)

/-- The names that the fields are taken from when a selector is bound. -/
theorem pathHead_boundTo (f : Field) :
    pathHead (boundTo f) =
      match f.role with
      | .location => "_eg_rt"
      | .source => "source"
      | _ => "self" := by
  have hself : ∀ name : String, pathHead ("self." ++ name) = "self" := by
    intro name
    have hsplit : "self." ++ name = "self" ++ ("." ++ name) := by rw [← String.append_assoc]; rfl
    rw [hsplit]
    have hchars : "self".toList.all isNameChar = true := by decide
    exact pathHead_append (List.all_eq_true.mp hchars) (by simp [isNameChar])
  unfold boundTo
  split
  · decide
  · decide
  · exact hself f.name

/-- **A selector that is bound** calls the class of its variant with an argument for every field,
each taken from the selector, from the support module or from a variable that was assigned before.
-/
theorem bindBody_calls {v : Variant} (hnames : ∀ f ∈ v.fields, IsName f.name.toList) :
    ∃ before lead call after, bindBody v = before ++ (lead ++ call) :: after ∧
      IsCall call v.className (v.fields.map fun f => (f.name, boundTo f)) ∧
      ∀ f ∈ v.fields, pathHead (boundTo f) ∈
        ["self", "_eg_rt"] ++ before.filterMap assignedIn? := by
  have hcall : ∀ valueOf : Field → String,
      (∀ f ∈ v.fields, f.role ≠ .location → valueOf f = boundTo f) →
        IsCall (assembly v valueOf) v.className (v.fields.map fun f => (f.name, boundTo f)) := by
    intro valueOf hvalue
    have hpath : ∀ f ∈ v.fields, f.role ≠ .location → IsPath (valueOf f) := by
      intro f hf hrole
      rw [hvalue f hf hrole]
      exact isPath_boundTo (hnames f hf) hrole
    have hcall := isCall_assembly hnames hpath
    have hsame : (v.fields.map fun f =>
        (f.name, if f.role = .location then captured else valueOf f)) =
          v.fields.map fun f => (f.name, boundTo f) := by
      apply List.map_congr_left
      intro f hf
      by_cases hrole : f.role = .location
      · simp [hrole, boundTo]
      · simp [hrole, hvalue f hf hrole]
    rwa [hsame] at hcall
  unfold bindBody
  split
  · refine ⟨["source = _eg_rt.extract_cause(self, residual)"], "return ", _, [], rfl,
      hcall _ ?_, ?_⟩
    · intro f _ hrole
      cases hcases : f.role <;> simp_all [boundTo]
    · have hsource :
          assignedIn? "source = _eg_rt.extract_cause(self, residual)" = some "source" := by
        decide
      intro f _
      rw [pathHead_boundTo]
      split <;> simp [hsource]
  · next hsource =>
    have hnone : ∀ f ∈ v.fields, f.role ≠ .source := by
      simpa [Variant.source?] using hsource
    refine ⟨["_eg_cause = _eg_rt.extract_cause(self, residual)"], "_eg_error = ", _, _, rfl,
      hcall _ ?_, ?_⟩
    · intro f hf hrole
      have hother := hnone f hf
      cases hcases : f.role <;> simp_all [boundTo]
    · intro f hf
      have hother := hnone f hf
      rw [pathHead_boundTo]
      split <;> simp_all

/-- **The function that makes errors** of a variant calls the class of the variant with an argument
for every field, each taken from the support module or from a parameter. -/
theorem constructor_calls {v : Variant} (hv : ∀ f ∈ v.fields, f.IsSound)
    (hsource : v.source? = none) (hnames : ∀ f ∈ v.fields, IsName f.name.toList) (name : String) :
    ∃ before call, constructor v name = before ++ ["    return " ++ call] ∧
      IsCall call v.className (v.fields.map fun f => (f.name, givenTo f)) ∧
      ∀ f ∈ v.fields, pathHead (givenTo f) ∈ "_eg_rt" :: v.selectorFields.map Field.name := by
  unfold constructor
  refine ⟨[_, _], assembly v Field.name, rfl, ?_, ?_⟩
  · exact isCall_assembly hnames fun f hf _ => isPath_of_isName (hnames f hf)
  · intro f hf
    unfold givenTo
    split
    · exact List.mem_cons.mpr (Or.inl (by decide))
    · next hrole =>
      have hhead : pathHead f.name = f.name := by
        have hchars : pathHead (f.name ++ "") = f.name :=
          pathHead_append (hnames f hf).isNameChar rfl
        rwa [String.append_empty] at hchars
      have hselector : f.role = .selector := by
        have hnone : f.role ≠ .source := by
          simpa using List.find?_eq_none.mp hsource f hf
        have hsound := hv f hf
        cases hcases : f.role with
        | other word => exact absurd hcases (hsound word)
        | _ => simp_all
      rw [hhead]
      refine List.mem_cons_of_mem _ (List.mem_map_of_mem (List.mem_filter.mpr ⟨hf, ?_⟩))
      simpa using hselector

/-- What is emitted for a variant fits together: its class, its selector and the function that makes
errors of it speak of the same names. -/
structure IsCalledByName (v : Variant) : Prop where
  /-- The parameters of the class are the fields. -/
  parameters : ∀ lines, initMethod v.fields = .ok lines → ∃ parameters,
    lines.head? = some ("def __init__(self, *, " ++ ", ".intercalate parameters ++ ") -> None:") ∧
      List.Forall₂ (fun f p => (f.name ++ ": ").toList <+: p.toList) v.fields parameters
  /-- A selector that is bound calls the class with the fields, from names that it knows. -/
  bound : ∃ before lead call after, bindBody v = before ++ (lead ++ call) :: after ∧
    IsCall call v.className (v.fields.map fun f => (f.name, boundTo f)) ∧
    ∀ f ∈ v.fields, pathHead (boundTo f) ∈ ["self", "_eg_rt"] ++ before.filterMap assignedIn?
  /-- So does the function, if there is one. -/
  given : v.source? = none → ∀ name, ∃ before call,
    constructor v name = before ++ ["    return " ++ call] ∧
    IsCall call v.className (v.fields.map fun f => (f.name, givenTo f)) ∧
    ∀ f ∈ v.fields, pathHead (givenTo f) ∈ "_eg_rt" :: v.selectorFields.map Field.name

/-- **The parts of a variant fit together** as they are written. -/
theorem isCalledByName {v : Variant} (hv : ∀ f ∈ v.fields, f.IsSound)
    (hnames : ∀ f ∈ v.fields, IsName f.name.toList) : IsCalledByName v where
  parameters _ h := parameters_of_initMethod h
  bound := bindBody_calls hnames
  given hsource name := constructor_calls hv hsource hnames name

end Errata.Emission
