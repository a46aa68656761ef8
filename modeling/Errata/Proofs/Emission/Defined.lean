import Errata.Emission.Module
import Errata.Proofs.Name.SnakeCase
import Errata.Proofs.Outcome

/-!
# Names that a module defines

A generated module defines names for itself where a class or a function is defined in a line that is
not indented. These are the names of the enumerations, of the classes and the selectors of their
variants, and of the functions that make errors of them.

* `definedIn?`, `definedNames`: the names that lines define.
* `definedNames_enumerationClass`, `definedNames_variantClass` and so on: **each block defines the
  one name it is for**.
* **`definedNames_blocks`**, `mem_definedNames_blocks_iff`: the names that the blocks of a module
  define, in order, and whether a name is one of them.
-/

namespace Errata.Emission

open Syntax (isNameChar)

/-! ### Lines -/

/-- The name that a line of generated code defines for its module, if it starts the definition of a
class or a function and is not indented. -/
def definedIn? (line : String) : Option String :=
  let word := line.toList.takeWhile isNameChar
  let after := line.toList.dropWhile isNameChar
  if (word = "class".toList ∨ word = "def".toList) ∧ after.head? = some ' ' then
    some (String.ofList (after.tail.takeWhile isNameChar))
  else none

/-- The names that lines of generated code define for their module. -/
def definedNames (lines : Lines) : List String :=
  lines.filterMap definedIn?

/-- Whether a text consists of characters of names. -/
def IsPlainName (name : String) : Prop :=
  ∀ c ∈ name.toList, isNameChar c = true

/-- A line that starts with a word and another character. -/
theorem takeWhile_of_startsWith {word chars : List Char} {c : Char}
    (hword : ∀ d ∈ word, isNameChar d = true) (hc : isNameChar c = false)
    (h : word ++ [c] <+: chars) :
    chars.takeWhile isNameChar = word ∧ ∃ rest, chars.dropWhile isNameChar = c :: rest := by
  obtain ⟨rest, rfl⟩ := h
  rw [List.append_assoc, List.singleton_append]
  constructor
  · rw [List.takeWhile_append_of_pos hword, List.takeWhile_cons_of_neg (by simp [hc]),
      List.append_nil]
  · refine ⟨rest, ?_⟩
    rw [List.dropWhile_append_of_pos hword, List.dropWhile_cons_of_neg (by simp [hc])]

/-- A line that starts with something else than a word and a blank defines no name. -/
theorem definedIn?_eq_none {line : String} (word : List Char) {c : Char}
    (hword : ∀ d ∈ word, isNameChar d = true) (hc : isNameChar c = false)
    (h : word ++ [c] <+: line.toList)
    (hother : c ≠ ' ' ∨ word ≠ "class".toList ∧ word ≠ "def".toList) : definedIn? line = none := by
  obtain ⟨htake, rest, hdrop⟩ := takeWhile_of_startsWith hword hc h
  unfold definedIn?
  rw [htake, hdrop]
  refine if_neg ?_
  rintro ⟨hdefines, hblank⟩
  obtain rfl : c = ' ' := by simpa using hblank
  rcases hother with hne | ⟨hclass, hdef⟩
  · exact hne rfl
  · exact hdefines.elim hclass hdef

/-- The line that starts the definition of a class or a function defines its name. -/
theorem definedIn?_of_startsWith {line name : String} {word : List Char} {c : Char}
    (hword : word = "class".toList ∨ word = "def".toList) (hname : IsPlainName name)
    (hc : isNameChar c = false) (h : word ++ ' ' :: name.toList ++ [c] <+: line.toList) :
    definedIn? line = some name := by
  have hplain : ∀ d ∈ word, isNameChar d = true := by
    rcases hword with rfl | rfl <;> exact List.all_eq_true.mp rfl
  obtain ⟨rest, hline⟩ := h
  have hblank : word ++ [' '] <+: line.toList := ⟨name.toList ++ c :: rest, by simp [← hline]⟩
  obtain ⟨htake, after, hdrop⟩ := takeWhile_of_startsWith hplain rfl hblank
  obtain rfl : after = name.toList ++ c :: rest := by
    have hwhole := List.takeWhile_append_dropWhile (p := isNameChar) (l := line.toList)
    rw [htake, hdrop, ← hline] at hwhole
    simpa using hwhole
  have hread : (name.toList ++ c :: rest).takeWhile isNameChar = name.toList :=
    (takeWhile_of_startsWith hname hc ⟨rest, by simp⟩).1
  unfold definedIn?
  rw [htake, hdrop]
  refine (if_pos ⟨hword, rfl⟩).trans (congrArg some ?_)
  rw [List.tail_cons, hread, String.ofList_toList]

/-- An indented line defines no name. -/
theorem definedIn?_of_blank {line : String} (h : [' '] <+: line.toList) : definedIn? line = none :=
  definedIn?_eq_none [] (by simp) rfl h (Or.inr (by decide))

/-- No lines define no names. -/
@[simp] theorem definedNames_nil : definedNames [] = [] := rfl

/-- The names that lines define, one line more. -/
@[simp] theorem definedNames_cons (line : String) (lines : Lines) :
    definedNames (line :: lines) = (definedIn? line).toList ++ definedNames lines := by
  rw [definedNames, List.filterMap_cons]
  cases definedIn? line <;> rfl

/-- The names that lines define, more lines being put at the end. -/
@[simp] theorem definedNames_append (lines lines' : Lines) :
    definedNames (lines ++ lines') = definedNames lines ++ definedNames lines' :=
  List.filterMap_append

/-- Indented lines define no names. -/
@[simp] theorem definedNames_indent (lines : Lines) : definedNames (indent lines) = [] := by
  rw [definedNames, List.filterMap_eq_nil_iff]
  intro line hline
  obtain ⟨inner, -, rfl⟩ := List.mem_map.mp hline
  split
  · rfl
  · exact definedIn?_of_blank (by simp)

/-! ### Blocks -/

section

variable {e : Descriptor.Enumeration} {v : Descriptor.Variant}

/-- The class of an enumeration defines its name. -/
theorem definedNames_enumerationClass (he : IsPlainName e.name) :
    definedNames (enumerationClass e) = [e.name] := by
  have hclass : definedIn? ("class " ++ e.name ++ "(_eg_rt.ErrorEnum):") = some e.name :=
    definedIn?_of_startsWith (c := '(') (Or.inl rfl) he rfl (by simp)
  have hdoc : definedIn? ("    \"\"\"Error enumeration " ++ e.name ++ ".\"\"\"") = none :=
    definedIn?_of_blank (by simp)
  have htop : definedIn? "    top_level = True" = none := definedIn?_of_blank (by simp)
  have hempty : definedIn? "" = none := rfl
  unfold enumerationClass
  split <;> simp [hclass, hdoc, htop, hempty]

/-- The class of a variant defines the name of the class. -/
theorem definedNames_variantClass (hv : IsPlainName v.className) {lines : Lines}
    (h : variantClass v = .ok lines) : definedNames lines = [v.className] := by
  have hclass : definedIn? ("class " ++ v.className ++ "(" ++ v.enumeration ++ "):") =
      some v.className := definedIn?_of_startsWith (c := '(') (Or.inl rfl) hv rfl (by simp)
  obtain ⟨literal, inside, rfl⟩ : ∃ (literal : Text) (inside : Lines), lines =
      ["class " ++ v.className ++ "(" ++ v.enumeration ++ "):", "    " ++ literal.quoted] ++
        indent inside := by
    unfold variantClass at h
    split at h
    · dsimp only at h
      split at h
      · cases h
        exact ⟨_, _, rfl⟩
      · obtain ⟨init, -, h⟩ := Outcome.bind_eq_ok_iff.mp h
        cases h
        exact ⟨_, _, rfl⟩
    · cases h
  have hdoc : definedIn? ("    " ++ literal.quoted) = none := definedIn?_of_blank (by simp)
  simp [hclass, hdoc]

/-- The selector of a variant defines the name of the variant. -/
theorem definedNames_selector (hv : IsPlainName v.name) {nameless : List Shape} {lines : Lines}
    (h : selector nameless v = .ok lines) : definedNames lines = [v.name] := by
  obtain ⟨shapes, -, h⟩ := Outcome.bind_eq_ok_iff.mp h
  cases h
  have hmark : definedIn? "@_eg_dataclasses.dataclass(frozen=True)" = none :=
    definedIn?_eq_none [] (c := '@') (by simp) rfl (by decide) (Or.inl (by decide))
  have hclass : definedIn? ("class " ++ v.name ++ ":") = some v.name :=
    definedIn?_of_startsWith (c := ':') (Or.inl rfl) hv rfl (by simp)
  simp [hmark, hclass]

/-- The function that makes an error of a variant defines its own name. -/
theorem definedNames_constructor {name : String} (hname : IsPlainName name) :
    definedNames (constructor v name) = [name] := by
  obtain ⟨signature, hlines⟩ : ∃ signature, constructor v name =
      ["def " ++ name ++ "(" ++ signature ++ ") -> " ++ v.enumeration ++ ":",
        "    \"\"\"Build " ++ v.enumeration ++ "." ++ v.name ++ ".\"\"\"",
        "    return " ++ assembly v Descriptor.Field.name] := ⟨_, rfl⟩
  have hdef : definedIn? ("def " ++ name ++ "(" ++ signature ++ ") -> " ++ v.enumeration ++ ":") =
      some name := definedIn?_of_startsWith (c := '(') (Or.inr rfl) hname rfl (by simp)
  have hdoc : definedIn? ("    \"\"\"Build " ++ v.enumeration ++ "." ++ v.name ++ ".\"\"\"") =
      none := definedIn?_of_blank (by simp)
  have hreturn : definedIn? ("    return " ++ assembly v Descriptor.Field.name) = none :=
    definedIn?_of_blank (by simp)
  simp [hlines, hdef, hdoc, hreturn]

/-- Making classes known to each other defines no name. -/
theorem definedNames_registration (he : IsPlainName e.name)
    (hvs : ∀ v ∈ e.variants, IsPlainName v.className) : definedNames (registration e) = [] := by
  have hmember : ∀ {name : String} {line : String}, IsPlainName name →
      name.toList ++ ['.'] <+: line.toList → definedIn? line = none := fun hname hline =>
    definedIn?_eq_none _ hname rfl hline (Or.inl (by decide))
  rw [definedNames, List.filterMap_eq_nil_iff]
  intro line hline
  rw [registration, List.mem_append, List.mem_singleton] at hline
  rcases hline with hline | rfl
  · obtain ⟨v, hv, hline⟩ := List.mem_flatMap.mp hline
    rw [List.mem_cons, List.mem_singleton] at hline
    rcases hline with rfl | rfl
    · exact hmember (hvs v hv) (by simp)
    · exact hmember he (by simp)
  · exact hmember he (by simp)

end

/-! ### Modules -/

/-- An enumeration is plainly named if its name and those of its variants consist of characters of
names, and its variants know its name. -/
structure IsPlainlyNamed (e : Descriptor.Enumeration) : Prop where
  /-- Its own name does. -/
  name : IsPlainName e.name
  /-- The names of its variants do. -/
  variants : ∀ v ∈ e.variants, IsPlainName v.name
  /-- Its variants know that they belong to it. -/
  owner : ∀ v ∈ e.variants, v.enumeration = e.name

/-- The class of a variant has a plain name. -/
theorem IsPlainlyNamed.className {e : Descriptor.Enumeration} (he : IsPlainlyNamed e)
    {v : Descriptor.Variant} (hv : v ∈ e.variants) : IsPlainName v.className := by
  intro c hc
  rw [Descriptor.Variant.className, String.toList_append, String.toList_append, List.mem_append,
    List.mem_append, he.owner v hv] at hc
  rcases hc with (hc | hc) | hc
  · exact he.name c hc
  · obtain rfl := List.mem_singleton.mp hc
    rfl
  · exact he.variants v hv c hc

/-- The classes of an enumeration define its name and those of the classes of its variants. -/
theorem definedNames_classBlocks {e : Descriptor.Enumeration} (he : IsPlainlyNamed e)
    {bs : List Lines} (h : classBlocks e = .ok bs) :
    bs.flatMap definedNames = e.name :: e.variants.map Descriptor.Variant.className := by
  obtain ⟨classes, hclasses, h⟩ := Outcome.bind_eq_ok_iff.mp h
  cases h
  have hvariants := Outcome.flatMap_of_mapM hclasses (g := definedNames)
    (k := fun v => [v.className]) fun v hv _ => definedNames_variantClass (he.className hv)
  simp [hvariants, definedNames_enumerationClass he.name,
    definedNames_registration he.name fun v => he.className, List.map_eq_flatMap]

/-- The selector of a variant and the function that makes an error of it define their names. -/
theorem definedNames_bindingBlocks {v : Descriptor.Variant} (hv : IsPlainName v.name)
    {nameless : List Shape} {bs : List Lines} (h : bindingBlocks nameless v = .ok bs) :
    bs.flatMap definedNames = v.name :: v.constructor?.toList := by
  obtain ⟨lines, hlines, h⟩ := Outcome.bind_eq_ok_iff.mp h
  cases h
  cases hname : v.constructor? with
  | none => simp [definedNames_selector hv hlines]
  | some name =>
    have hplain : IsPlainName name := by
      unfold Descriptor.Variant.constructor? at hname
      split at hname
      · cases hname
      · cases hname
        exact isNameChar_snakeCase hv
    simp [definedNames_selector hv hlines, definedNames_constructor hplain]

/-- **The blocks of a module define** the names of the enumerations and of the classes of their
variants, and then the names of the selectors and of the functions that make errors. -/
theorem definedNames_blocks {d : Descriptor} (hd : ∀ e ∈ d.enumerations, IsPlainlyNamed e)
    {nameless : List Shape} {bs : List Lines} (h : blocks nameless d = .ok bs) :
    bs.flatMap definedNames =
      (d.enumerations.flatMap fun e => e.name :: e.variants.map Descriptor.Variant.className) ++
        (d.enumerations.flatMap Descriptor.Enumeration.variants).flatMap fun v =>
          v.name :: v.constructor?.toList := by
  obtain ⟨classes, hclasses, h⟩ := Outcome.bind_eq_ok_iff.mp h
  obtain ⟨bindings, hbindings, h⟩ := Outcome.bind_eq_ok_iff.mp h
  cases h
  have hclassNames := Outcome.flatMap_of_mapM hclasses (g := fun bs => bs.flatMap definedNames)
    fun e he _ => definedNames_classBlocks (hd e he)
  have hbindingNames := Outcome.flatMap_of_mapM hbindings (g := fun bs => bs.flatMap definedNames)
    fun v hv _ => by
      obtain ⟨e, he, hv⟩ := List.mem_flatMap.mp hv
      exact definedNames_bindingBlocks ((hd e he).variants v hv)
  rw [List.flatMap_append, ← hclassNames, ← hbindingNames, List.flatten_eq_flatMap,
    List.flatten_eq_flatMap, List.flatMap_assoc, List.flatMap_assoc]
  rfl

/-- A name that the blocks of a module define is that of an enumeration, or one of those that a
variant takes. -/
theorem mem_definedNames_blocks_iff {d : Descriptor}
    (hd : ∀ e ∈ d.enumerations, IsPlainlyNamed e) {nameless : List Shape} {bs : List Lines}
    (h : blocks nameless d = .ok bs) {name : String} :
    name ∈ bs.flatMap definedNames ↔
      ∃ e ∈ d.enumerations, name = e.name ∨ ∃ v ∈ e.variants, name ∈ v.generatedNames := by
  simp only [definedNames_blocks hd h, Descriptor.Variant.generatedNames, List.mem_append,
    List.mem_flatMap, List.mem_cons, List.mem_map, List.not_mem_nil, or_false]
  constructor
  · rintro (⟨e, he, rfl | ⟨v, hv, rfl⟩⟩ | ⟨v, ⟨e, he, hv⟩, hname⟩)
    · exact ⟨e, he, Or.inl rfl⟩
    · exact ⟨e, he, Or.inr ⟨v, hv, Or.inl (Or.inr rfl)⟩⟩
    · exact ⟨e, he, Or.inr ⟨v, hv, hname.imp Or.inl id⟩⟩
  · rintro ⟨e, he, rfl | ⟨v, hv, (rfl | rfl) | hname⟩⟩
    · exact Or.inl ⟨e, he, Or.inl rfl⟩
    · exact Or.inr ⟨v, ⟨e, he, hv⟩, Or.inl rfl⟩
    · exact Or.inl ⟨e, he, Or.inr ⟨v, hv, rfl⟩⟩
    · exact Or.inr ⟨v, ⟨e, he, hv⟩, Or.inr hname⟩

end Errata.Emission
