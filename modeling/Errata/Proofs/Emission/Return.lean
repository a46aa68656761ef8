import Errata.Proofs.Descriptor.Wording
import Errata.Proofs.Emission.Defined
import Errata.Proofs.Text.Control

/-!
# Carriage returns in generated code

Quoted text holds no carriage return, since it is written as an escape there, and neither do names
and types. What is copied into a module as it is are the name of the declaration file, the module
that the support is imported from, and the expressions of messages. So a module holds a carriage
return exactly if one of these does.

* `HoldReturn`: lines with a carriage return in them.
* `Variant.HoldsReturn`, `HoldsReturn`: descriptors with one in the expression of a message.
* `holdReturn_variantClass` and so on: **which blocks hold one**.
* **`return_mem_generate`**: which modules do.
-/

namespace Errata

/-! ### Descriptors -/

namespace Descriptor

/-- Whether a carriage return stands in the expression of an argument. -/
def Message.HoldsReturn (m : Message) : Prop :=
  ∃ a ∈ m.arguments, '\r' ∈ a.expression.toList

instance (m : Message) : Decidable m.HoldsReturn :=
  inferInstanceAs (Decidable (∃ a ∈ m.arguments, _))

/-- Whether a carriage return stands in an expression of a message or of a help text. -/
def Variant.HoldsReturn (v : Variant) : Prop :=
  ∃ m ∈ v.messages ++ v.helps, m.HoldsReturn

instance (v : Variant) : Decidable v.HoldsReturn :=
  inferInstanceAs (Decidable (∃ m ∈ v.messages ++ v.helps, _))

/-- Whether no carriage return stands in a name or a type of a variant. -/
structure Variant.IsReturnless (v : Variant) : Prop where
  /-- There is none in the name of the enumeration. -/
  enumeration : '\r' ∉ v.enumeration.toList
  /-- There is none in its own name. -/
  name : '\r' ∉ v.name.toList
  /-- There is none in the name of the function that makes an error of it. -/
  constructor : ∀ name, v.constructor? = some name → '\r' ∉ name.toList
  /-- There is none in the name of a field. -/
  fieldName : ∀ f ∈ v.fields, '\r' ∉ f.name.toList
  /-- There is none in the type of a field. -/
  fieldType : ∀ f ∈ v.fields, '\r' ∉ f.type.toList

end Descriptor

/-- Whether a carriage return stands in an expression of a variant. -/
def Descriptor.HoldsReturn (d : Descriptor) : Prop :=
  ∃ e ∈ d.enumerations, ∃ v ∈ e.variants, v.HoldsReturn

instance (d : Descriptor) : Decidable d.HoldsReturn :=
  inferInstanceAs (Decidable (∃ e ∈ d.enumerations, ∃ v ∈ e.variants, _))

namespace Emission

open Descriptor (Variant)

/-! ### Texts -/

/-- A character stands in texts with another one between them if it stands in one of them. -/
@[simp] theorem mem_intercalate {c : Char} {separator : List Char} (h : c ∉ separator)
    (texts : List (List Char)) :
    c ∈ separator.intercalate texts ↔ ∃ text ∈ texts, c ∈ text := by
  induction texts with
  | nil => simp
  | cons first texts ih =>
    cases texts with
    | nil => simp
    | cons second texts =>
      rw [List.intercalate_cons_cons, List.mem_append, List.mem_append, ih,
        List.exists_mem_cons_iff]
      simp [h]

/-- A name consists of characters of names. -/
theorem IsPlainName.return_not_mem {name : String} (h : IsPlainName name) : '\r' ∉ name.toList :=
  fun hreturn => absurd (h _ hreturn) (by decide)

/-- Text is quoted without carriage returns. -/
@[simp] theorem return_not_mem_quoted (text : Text) : '\r' ∉ text.quoted.toList :=
  notMem_quoted (by decide) text

/-! ### Lines -/

/-- Whether a carriage return stands in one of several lines. -/
def HoldReturn (lines : Lines) : Prop :=
  ∃ line ∈ lines, '\r' ∈ line.toList

/-- No lines hold nothing. -/
@[simp] theorem holdReturn_nil : ¬HoldReturn [] := by
  simp [HoldReturn]

/-- One line more. -/
@[simp] theorem holdReturn_cons (line : String) (lines : Lines) :
    HoldReturn (line :: lines) ↔ '\r' ∈ line.toList ∨ HoldReturn lines :=
  List.exists_mem_cons_iff ..

/-- Lines behind lines. -/
@[simp] theorem holdReturn_append (lines lines' : Lines) :
    HoldReturn (lines ++ lines') ↔ HoldReturn lines ∨ HoldReturn lines' := by
  simp [HoldReturn, or_and_right, exists_or]

/-- One line for each element of a list. -/
theorem holdReturn_map {α : Type} (f : α → String) (as : List α) :
    HoldReturn (as.map f) ↔ ∃ a ∈ as, '\r' ∈ (f a).toList := by
  simp [HoldReturn]

/-- Several lines for each element of a list. -/
theorem holdReturn_flatMap {α : Type} (f : α → Lines) (as : List α) :
    HoldReturn (as.flatMap f) ↔ ∃ a ∈ as, HoldReturn (f a) := by
  simp only [HoldReturn, List.mem_flatMap]
  grind

/-- Lines that are indented. -/
@[simp] theorem holdReturn_indent (lines : Lines) :
    HoldReturn (indent lines) ↔ HoldReturn lines := by
  rw [indent, holdReturn_map]
  refine exists_congr fun line => and_congr_right fun _ => ?_
  split
  · next h => simp [h]
  · simp

/-- Blocks that are set apart. -/
theorem holdReturn_spaced (bs : List Lines) :
    HoldReturn (spaced bs) ↔ ∃ block ∈ bs, HoldReturn block := by
  fun_induction spaced bs with
  | case1 => simp
  | case2 block => simp
  | case3 block rest hrest ih => simp [ih]

/-! ### Blocks -/

/-- A message is emitted with the carriage returns of its expressions. -/
theorem return_mem_message (m : Descriptor.Message) :
    '\r' ∈ (message m).toList ↔ m.HoldsReturn := by
  unfold message
  split
  · next hplain =>
    have harguments : m.arguments = [] := List.isEmpty_iff.mp (Bool.and_eq_true_iff.mp hplain).1
    simp [Descriptor.Message.HoldsReturn, harguments]
  · simp [Descriptor.Message.HoldsReturn]

section

variable {v : Variant} (hv : v.IsReturnless)
include hv

/-- The class of a variant has a name without carriage returns. -/
theorem return_not_mem_className : '\r' ∉ v.className.toList := by
  simp [Variant.className, hv.enumeration, hv.name]

/-- Local names hold no carriage return. -/
theorem not_holdReturn_fieldBindings : ¬HoldReturn (fieldBindings v) := by
  rw [fieldBindings, Variant.fieldNames, List.map_map, holdReturn_map]
  rintro ⟨f, hf, hreturn⟩
  simp [hv.fieldName f hf] at hreturn

/-- The constructor of a variant holds no carriage return. -/
theorem not_holdReturn_initMethod {lines : Lines} (h : initMethod v.fields = .ok lines) :
    ¬HoldReturn lines := by
  obtain ⟨parameters, hparameters, h⟩ := Outcome.bind_eq_ok_iff.mp h
  cases h
  have hone : ∀ p ∈ parameters, '\r' ∉ p.1.toList ∧ ¬HoldReturn p.2 := by
    intro p hp
    obtain ⟨f, hf, hmade⟩ := Outcome.exists_of_mem_mapM hparameters hp
    have hname := hv.fieldName f hf
    have htype := hv.fieldType f hf
    unfold parameter at hmade
    split at hmade <;> cases hmade <;> simp [hname, htype]
  have hdeclared : ∀ p ∈ parameters, '\r' ∉ p.1.toList := fun p hp => (hone p hp).1
  have hset : ¬HoldReturn (parameters.flatMap Prod.snd) := by
    rw [holdReturn_flatMap]
    rintro ⟨p, hp, hreturn⟩
    exact (hone p hp).2 hreturn
  simpa [hset] using fun a b hp => hdeclared (a, b) hp

/-- A variant renders its messages with their carriage returns. -/
theorem holdReturn_renderMethod :
    HoldReturn (renderMethod v) ↔ ∃ m ∈ v.messages, m.HoldsReturn := by
  have hlocal := not_holdReturn_fieldBindings hv
  rw [renderMethod]
  split <;> simp [holdReturn_map, return_mem_message, hlocal]

/-- A variant shows its help with its carriage returns. -/
theorem holdReturn_helpMethod :
    HoldReturn (helpMethod v) ↔ ∃ m ∈ v.helps, m.HoldsReturn := by
  have hlocal := not_holdReturn_fieldBindings hv
  simp [helpMethod, holdReturn_flatMap, return_mem_message, hlocal]

/-- The methods that a variant has only for some purpose show its help. -/
theorem holdReturn_extraMethods :
    HoldReturn ((extraMethods v).flatMap fun lines => "" :: lines) ↔
      ∃ m ∈ v.helps, m.HoldsReturn := by
  have hcause : ¬HoldReturn causeMethod := by simp [causeMethod]
  have hprovide : ¬HoldReturn provideMethod := by simp [provideMethod]
  have hhelp := holdReturn_helpMethod hv
  rw [extraMethods]
  cases hhelps : v.helps with
  | nil => split <;> simp [hcause]
  | cons first rest =>
    rw [hhelps] at hhelp
    split <;> simp [hcause, hprovide, hhelp]

/-- **The class of a variant** holds the carriage returns of its messages and of its help. -/
theorem holdReturn_variantClass {lines : Lines} (h : variantClass v = .ok lines) :
    HoldReturn lines ↔ v.HoldsReturn := by
  obtain ⟨literal, init, hinit, rfl⟩ : ∃ (literal : Text) (init : Lines), ¬HoldReturn init ∧
      lines = ["class " ++ v.className ++ "(" ++ v.enumeration ++ "):", "    " ++ literal.quoted] ++
        indent (init ++ "" :: renderMethod v ++
          (extraMethods v).flatMap fun lines => "" :: lines) := by
    unfold variantClass at h
    split at h
    · dsimp only at h
      split at h
      · cases h
        exact ⟨_, [], holdReturn_nil, rfl⟩
      · obtain ⟨init, hinit, h⟩ := Outcome.bind_eq_ok_iff.mp h
        obtain ⟨made, hmade, rfl⟩ := Outcome.map_eq_ok_iff.mp hinit
        cases h
        exact ⟨_, _, by simpa using not_holdReturn_initMethod hv hmade, rfl⟩
    · cases h
  have hclass := return_not_mem_className hv
  have henumeration := hv.enumeration
  simp [hclass, henumeration, hinit, holdReturn_renderMethod hv, holdReturn_extraMethods hv,
    Variant.HoldsReturn, or_and_right, exists_or]

/-- The call that makes an error holds no carriage return if no value does. -/
theorem return_not_mem_assembly {valueOf : Descriptor.Field → String}
    (h : ∀ f ∈ v.fields, '\r' ∉ (valueOf f).toList) : '\r' ∉ (assembly v valueOf).toList := by
  have hclass := return_not_mem_className hv
  have harguments : ∀ f ∈ v.fields, '\r' ∉ (if f.role = .location then
      f.name ++ "=_eg_rt.capture_location(1)" else f.name ++ "=" ++ valueOf f).toList := by
    intro f hf
    split <;> simp [hv.fieldName f hf, h f hf]
  simpa [assembly, hclass] using harguments

/-- The fields that a selector holds are declared without carriage returns. -/
theorem return_not_mem_declared :
    ∀ f ∈ v.selectorFields, '\r' ∉ (f.name ++ ": " ++ f.type).toList := by
  intro f hf
  have hf : f ∈ v.fields := (List.mem_filter.mp hf).1
  simp [hv.fieldName f hf, hv.fieldType f hf]

/-- The type of a cause holds no carriage return. -/
theorem return_not_mem_causeType {f : Descriptor.Field} (hf : f ∈ v.fields) :
    '\r' ∉ (causeType f).toList := by
  have htype := hv.fieldType f hf
  unfold causeType
  split
  · next first rest hchars =>
    split
    · rw [String.toList_ofList]
      intro hreturn
      rw [hchars] at htype
      exact htype (List.mem_cons_of_mem _ (List.dropLast_subset _ hreturn))
    · exact htype
  · exact htype

/-- The statements that make an error hold no carriage return. -/
theorem not_holdReturn_bindBody : ¬HoldReturn (bindBody v) := by
  have hself : ∀ f ∈ v.fields, '\r' ∉ ("self." ++ f.name).toList := fun f hf => by
    simp [hv.fieldName f hf]
  have hsource : ∀ f ∈ v.fields,
      '\r' ∉ (if f.role = .source then "source" else "self." ++ f.name).toList := fun f hf => by
    split
    · simp
    · exact hself f hf
  unfold bindBody
  split
  · simp [return_not_mem_assembly hv hsource]
  · simp [return_not_mem_assembly hv hself]

/-- A selector holds no carriage return. -/
theorem not_holdReturn_selector {nameless : List Shape} {lines : Lines}
    (h : selector nameless v = .ok lines) : ¬HoldReturn lines := by
  obtain ⟨shapes, hshapes, h⟩ := Outcome.bind_eq_ok_iff.mp h
  cases h
  have hshapes : '\r' ∉ shapes.toList := by
    obtain ⟨names, hnames, hshapes⟩ := Outcome.bind_eq_ok_iff.mp hshapes
    cases hshapes
    have hname : ∀ name ∈ names, '\r' ∉ name.toList := by
      intro name hname
      obtain ⟨shape, -, hmade⟩ := Outcome.exists_of_mem_mapM hnames hname
      split at hmade
      · cases hmade
      · cases hmade
        cases shape <;> simp [Shape.name]
    split <;> simpa using hname
  have hcause : '\r' ∉ ((v.source?.map causeType).getD "None").toList := by
    cases hsource : v.source? with
    | none => simp
    | some f => exact return_not_mem_causeType hv (List.mem_of_find?_eq_some hsource)
  have hdeclared : ¬HoldReturn (v.selectorFields.map fun f => f.name ++ ": " ++ f.type) := by
    rw [holdReturn_map]
    rintro ⟨f, hf, hreturn⟩
    exact return_not_mem_declared hv f hf hreturn
  have hbody := not_holdReturn_bindBody hv
  have hname := hv.name
  have henumeration := hv.enumeration
  have hgap : ∀ empty : Bool, ¬HoldReturn (if empty then [] else [""]) := by
    intro empty
    cases empty <;> simp
  simp only [holdReturn_append, holdReturn_cons, holdReturn_indent, hdeclared, hbody, hgap]
  simp [hname, henumeration, hshapes, hcause]

/-- The function that makes an error holds no carriage return. -/
theorem not_holdReturn_constructor {name : String} (h : v.constructor? = some name) :
    ¬HoldReturn (constructor v name) := by
  have hname := hv.constructor name h
  have hcall := return_not_mem_assembly hv hv.fieldName
  have henumeration := hv.enumeration
  have hvariant := hv.name
  obtain ⟨signature, hsignature, hlines⟩ : ∃ signature : String, '\r' ∉ signature.toList ∧
      constructor v name =
        ["def " ++ name ++ "(" ++ signature ++ ") -> " ++ v.enumeration ++ ":",
          "    \"\"\"Build " ++ v.enumeration ++ "." ++ v.name ++ ".\"\"\"",
          "    return " ++ assembly v Descriptor.Field.name] := by
    refine ⟨_, ?_, rfl⟩
    split
    · simp
    · simpa using return_not_mem_declared hv
  simp [hlines, hname, hcall, henumeration, hvariant, hsignature]

end

/-! ### Modules -/

/-- The variants of a plainly named enumeration whose fields are worded well are without carriage
returns. -/
theorem IsPlainlyNamed.isReturnless {e : Descriptor.Enumeration} (he : IsPlainlyNamed e)
    {v : Variant} (hv : v ∈ e.variants) (hfields : ∀ f ∈ v.fields, f.IsWorded) :
    v.IsReturnless where
  enumeration := by
    rw [he.owner v hv]
    exact he.name.return_not_mem
  name := (he.variants v hv).return_not_mem
  constructor := by
    intro name hname
    unfold Variant.constructor? at hname
    split at hname
    · cases hname
    · cases hname
      exact IsPlainName.return_not_mem (isNameChar_snakeCase (he.variants v hv))
  fieldName := fun f hf =>
    IsPlainName.return_not_mem (hfields f hf).name.isNameChar
  fieldType := fun f hf hreturn =>
    absurd ((hfields f hf).type _ hreturn (by decide)) (by decide)

/-- The class of an enumeration holds no carriage return. -/
theorem not_holdReturn_enumerationClass {e : Descriptor.Enumeration} (he : IsPlainlyNamed e) :
    ¬HoldReturn (enumerationClass e) := by
  have hname := he.name.return_not_mem
  have hmethod : ¬HoldReturn (strMethod e.isTopLevel) := by
    unfold strMethod
    split <;> simp
  unfold enumerationClass
  split <;> simp [hname, hmethod]

/-- Making classes known to each other takes no carriage return. -/
theorem not_holdReturn_registration {e : Descriptor.Enumeration} (he : IsPlainlyNamed e) :
    ¬HoldReturn (registration e) := by
  have hname := he.name.return_not_mem
  have hclass : ∀ v ∈ e.variants, '\r' ∉ v.className.toList := fun v hv =>
    (he.className hv).return_not_mem
  have hvariant : ∀ v ∈ e.variants, '\r' ∉ v.name.toList := fun v hv =>
    (he.variants v hv).return_not_mem
  have hmembers : ¬HoldReturn (e.variants.flatMap fun v =>
      [v.className ++ ".__qualname__ = \"" ++ e.name ++ "." ++ v.name ++ "\"",
        e.name ++ "." ++ v.name ++ " = " ++ v.className]) := by
    rw [holdReturn_flatMap]
    rintro ⟨v, hv, hreturn⟩
    simp [hname, hclass v hv, hvariant v hv] at hreturn
  have hlisted : ∀ v ∈ e.variants,
      '\r' ∉ ("\"" ++ v.name ++ "\": " ++ v.className).toList := fun v hv => by
    simp [hclass v hv, hvariant v hv]
  rw [registration, holdReturn_append]
  simpa [hmembers, hname] using hlisted

section

variable {e : Descriptor.Enumeration} (he : IsPlainlyNamed e)
  (hfields : ∀ v ∈ e.variants, ∀ f ∈ v.fields, f.IsWorded)
include he hfields

/-- The classes of an enumeration hold the carriage returns of its variants. -/
theorem holdReturn_classBlocks {bs : List Lines} (h : classBlocks e = .ok bs) :
    (∃ block ∈ bs, HoldReturn block) ↔ ∃ v ∈ e.variants, v.HoldsReturn := by
  obtain ⟨classes, hclasses, h⟩ := Outcome.bind_eq_ok_iff.mp h
  cases h
  have hvariants := Outcome.exists_mem_iff_of_mapM hclasses fun v hv lines hlines =>
    holdReturn_variantClass (he.isReturnless hv (hfields v hv)) hlines
  rw [← hvariants, List.cons_append, List.exists_mem_cons_iff]
  simp [not_holdReturn_enumerationClass he, not_holdReturn_registration he, or_and_right,
    exists_or]

/-- Selectors, and the functions that make errors, hold no carriage return. -/
theorem not_holdReturn_bindingBlocks {v : Variant} (hv : v ∈ e.variants) {nameless : List Shape}
    {bs : List Lines} (h : bindingBlocks nameless v = .ok bs) :
    ∀ block ∈ bs, ¬HoldReturn block := by
  have hfree := he.isReturnless hv (hfields v hv)
  obtain ⟨lines, hlines, h⟩ := Outcome.bind_eq_ok_iff.mp h
  cases h
  rw [List.forall_mem_cons]
  refine ⟨not_holdReturn_selector hfree hlines, fun block hblock => ?_⟩
  obtain ⟨name, hname, rfl⟩ := Option.map_eq_some_iff.mp (Option.mem_toList.mp hblock)
  exact not_holdReturn_constructor hfree hname

end

/-- **The blocks of a module** hold the carriage returns of its messages and help texts. -/
theorem holdReturn_blocks {d : Descriptor} (hnamed : ∀ e ∈ d.enumerations, IsPlainlyNamed e)
    (hworded : d.IsWorded) {nameless : List Shape} {bs : List Lines}
    (h : blocks nameless d = .ok bs) : (∃ block ∈ bs, HoldReturn block) ↔ d.HoldsReturn := by
  obtain ⟨classes, hclasses, h⟩ := Outcome.bind_eq_ok_iff.mp h
  obtain ⟨bindings, hbindings, h⟩ := Outcome.bind_eq_ok_iff.mp h
  cases h
  have hclass : (∃ made ∈ classes, ∃ block ∈ made, HoldReturn block) ↔ d.HoldsReturn :=
    Outcome.exists_mem_iff_of_mapM hclasses fun e he bs hbs =>
      holdReturn_classBlocks (hnamed e he) (hworded.fields e he) hbs
  have hbinding : ¬∃ made ∈ bindings, ∃ block ∈ made, HoldReturn block := by
    rintro ⟨made, hmade, block, hblock, hreturn⟩
    obtain ⟨v, hv, hmade⟩ := Outcome.exists_of_mem_mapM hbindings hmade
    obtain ⟨e, he, hv⟩ := List.mem_flatMap.mp hv
    exact not_holdReturn_bindingBlocks (hnamed e he) (hworded.fields e he) hv hmade block hblock
      hreturn
  have hflatten : ∀ made : List (List Lines), (∃ block ∈ made.flatten, HoldReturn block) ↔
      ∃ bs ∈ made, ∃ block ∈ bs, HoldReturn block := by
    simp only [List.mem_flatten]
    grind
  simp only [List.mem_append, or_and_right, exists_or, hflatten, hclass, hbinding, or_false]

/-- The header of a module holds the carriage returns of the name of its support. -/
theorem holdReturn_header {d : Descriptor} (hworded : d.IsWorded) (runtimeModule : String) :
    HoldReturn (header runtimeModule d) ↔ '\r' ∈ runtimeModule.toList := by
  have himports : ¬HoldReturn (d.imports.map Descriptor.Import.text) := by
    rw [holdReturn_map]
    rintro ⟨i, hi, hreturn⟩
    exact absurd (hworded.imports i hi _ hreturn (by decide)) (by decide)
  have hexports : ∀ names, ¬HoldReturn (exportList names) := by
    intro names
    unfold exportList
    split <;> simp [holdReturn_map, quoted]
  simp only [header, holdReturn_append, holdReturn_cons, himports, hexports]
  simp

/-- **A module holds a carriage return** exactly if one stands in the name of the declaration file,
in that of its support, or in an expression of a message or help text. -/
theorem return_mem_generate {options : ModuleOptions} {d : Descriptor} {code : String}
    (hnamed : ∀ e ∈ d.enumerations, IsPlainlyNamed e) (hworded : d.IsWorded)
    (h : generate options d = .ok code) :
    '\r' ∈ code.toList ↔ '\r' ∈ options.sourceName.toList ∨
      '\r' ∈ options.runtimeModule.toList ∨ d.HoldsReturn := by
  obtain ⟨bs, hbs, h⟩ := Outcome.bind_eq_ok_iff.mp h
  cases h
  have htitle :
      '\r' ∈ (titleLine options.sourceName).toList ↔ '\r' ∈ options.sourceName.toList := by
    unfold titleLine
    split
    · next hempty => simp [version, hempty]
    · simp [version]
  have hlines : HoldReturn (titleLine options.sourceName ::
      spaced (header options.runtimeModule d :: bs)) ↔ '\r' ∈ options.sourceName.toList ∨
        '\r' ∈ options.runtimeModule.toList ∨ d.HoldsReturn := by
    rw [holdReturn_cons, htitle, holdReturn_spaced, List.exists_mem_cons_iff,
      holdReturn_header hworded, holdReturn_blocks hnamed hworded hbs]
  rw [← hlines, String.toList_append, List.mem_append, String.toList_intercalate,
    mem_intercalate (by simp)]
  simp [HoldReturn]

end Emission

end Errata
