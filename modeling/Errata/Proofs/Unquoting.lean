import Errata.Proofs.Emission.Naming
import Errata.Proofs.Retelling
import Errata.Proofs.Shadowing

/-!
# Types of causes

The selector of a variant that wraps an error says of which type that error is. The type of the
field is an annotation, and may be a string literal, which names a type that is not known yet. When
a selector is made the type is known, so the literal loses its quotation marks. Whether the type is
a string literal is decided on its first and on its last character. But a type may also start with
one literal and end with another.

* `Token.IsOfType.head?_eq_quote_iff`, `Token.IsOfType.getLast?_eq_quote_iff`: only string literals
  start or end with a quotation mark.
* `IsBetweenStrings`: tokens that start and end with a string literal.
* **`IsRow.quoted_iff`**: so does a type in one line that starts and ends with quotation marks.
* `declaredCause`: the type of a cause as it is declared.
* **`compile_cause_types`**: the types of causes in a module.
* `not_compile_cause_types`: a union that loses its outer quotation marks.
-/

namespace Errata

namespace Syntax

/-! ### Quotation marks in types -/

/-- A quotation mark starts no name. -/
theorem IsName.head?_ne_quote {name : List Char} (h : IsName name) : name.head? ≠ some '"' := by
  obtain ⟨c, rest, rfl, hc, -⟩ := h
  rintro ⟨⟩
  cases hc

/-- A quotation mark ends no name. -/
theorem IsName.getLast?_ne_quote {name : List Char} (h : IsName name) :
    name.getLast? ≠ some '"' := by
  intro hlast
  have hquote := h.isNameChar _ (List.mem_of_getLast? hlast)
  cases hquote

/-- No mark is a quotation mark at either end. -/
theorem not_quote_of_fixedText? {t : Terminal} (ht : t ∈ typeTerminals) {text : List Char}
    (h : t.fixedText? = some text) : text.head? ≠ some '"' ∧ text.getLast? ≠ some '"' := by
  have hall : ∀ t ∈ typeTerminals, ∀ text ∈ t.fixedText?,
      text.head? ≠ some '"' ∧ text.getLast? ≠ some '"' := by decide
  exact hall t ht text h

/-- A string literal is told by its terminal. -/
theorem Token.IsOfType.exists_of_string {t : Token} (h : t.IsOfType) (ht : t.terminal = .string) :
    ∃ inside, t.text = '"' :: (inside ++ ['"']) := by
  cases h with
  | name hname => cases ht.symm.trans hname
  | string _ htext hbody =>
    obtain ⟨inside, rfl⟩ := exists_append_of_stringBody hbody
    exact ⟨inside, htext⟩
  | mark _ hfixed =>
    rw [ht] at hfixed
    cases hfixed

/-- **Only a string literal starts with a quotation mark.** -/
theorem Token.IsOfType.head?_eq_quote_iff {t : Token} (h : t.IsOfType) :
    t.text.head? = some '"' ↔ t.terminal = .string := by
  constructor
  · intro hquote
    cases h with
    | name _ hname => exact absurd hquote hname.head?_ne_quote
    | string ht => exact ht
    | mark ht hfixed => exact absurd hquote (not_quote_of_fixedText? ht hfixed).1
  · intro ht
    obtain ⟨inside, htext⟩ := h.exists_of_string ht
    rw [htext]
    rfl

/-- **Only a string literal ends with a quotation mark.** -/
theorem Token.IsOfType.getLast?_eq_quote_iff {t : Token} (h : t.IsOfType) :
    t.text.getLast? = some '"' ↔ t.terminal = .string := by
  constructor
  · intro hquote
    cases h with
    | name _ hname => exact absurd hquote hname.getLast?_ne_quote
    | string ht => exact ht
    | mark ht hfixed => exact absurd hquote (not_quote_of_fixedText? ht hfixed).2
  · intro ht
    obtain ⟨inside, htext⟩ := h.exists_of_string ht
    rw [htext, ← List.cons_append, List.getLast?_concat]

/-- Whether tokens start and end with a string literal, which may be the same. -/
def IsBetweenStrings (ts : List Token) : Prop :=
  (∃ t ∈ ts.head?, t.terminal = .string) ∧ ∃ t ∈ ts.getLast?, t.terminal = .string

instance (ts : List Token) : Decidable (IsBetweenStrings ts) :=
  inferInstanceAs (Decidable (_ ∧ _))

section

variable {source text : List Char} {ts : List Token}

/-- A row starts with a quotation mark exactly if its first token is a string literal. -/
theorem IsRow.head?_eq_quote_iff (h : IsRow source text ts) :
    text.head? = some '"' ↔ ∃ t ∈ ts.head?, t.terminal = .string := by
  cases h with
  | last ht => simpa using ht.head?_eq_quote_iff
  | cons ht =>
    rw [List.head?_append_of_ne_nil _ ht.ends.1, ht.head?_eq_quote_iff]
    simp

/-- A row ends with a quotation mark exactly if its last token is a string literal. -/
theorem IsRow.getLast?_eq_quote_iff (h : IsRow source text ts) :
    text.getLast? = some '"' ↔ ∃ t ∈ ts.getLast?, t.terminal = .string := by
  induction h with
  | last ht => simpa using ht.getLast?_eq_quote_iff
  | cons _ _ _ hrow ih =>
    rw [← List.append_assoc, List.getLast?_append_of_ne_nil _ hrow.ends.1, ih,
      List.getLast?_cons_cons]

/-- A row that starts and ends with a string literal stands between two quotation marks. -/
theorem IsRow.exists_of_isBetweenStrings (h : IsRow source text ts) (hts : IsBetweenStrings ts) :
    ∃ inside, text = '"' :: (inside ++ ['"']) := by
  obtain ⟨⟨first, hfirst, hstring⟩, hlast⟩ := hts
  cases h with
  | last ht =>
    cases hfirst
    exact ht.exists_of_string hstring
  | @cons _ u ts rest ht _ _ hrow =>
    cases hfirst
    obtain ⟨inside, htext⟩ := ht.exists_of_string hstring
    rw [List.getLast?_cons_cons] at hlast
    obtain ⟨body, rfl⟩ := List.getLast?_eq_some_iff.mp (hrow.getLast?_eq_quote_iff.mpr hlast)
    exact ⟨inside ++ '"' :: (between source first u ++ body), by simp [htext]⟩

/-- A quotation mark is no white space. -/
theorem isBlank_quote : Unicode.isBlank '"' = false :=
  rfl

/-- **A type in one line** stands between quotation marks exactly if it starts and ends with a
string literal. -/
theorem IsRow.quoted_iff (h : IsRow source text ts) :
    (∃ inside, joined text = '"' :: (inside ++ ['"'])) ↔ IsBetweenStrings ts := by
  obtain ⟨hne, hhead, hlast⟩ := h.ends
  rw [joined_eq_collapse hhead hlast]
  constructor
  · rintro ⟨inside, hquoted⟩
    refine ⟨h.head?_eq_quote_iff.mp ?_, h.getLast?_eq_quote_iff.mp ?_⟩
    · have hfirst := head?_collapse text
      rw [hquoted] at hfirst
      obtain ⟨c, hc, hsame⟩ := Option.map_eq_some_iff.mp hfirst.symm
      rw [if_neg (by simp [hhead c hc])] at hsame
      exact hsame ▸ hc
    · obtain ⟨front, c, rfl⟩ := List.eq_nil_or_concat' text |>.resolve_left hne
      rw [List.getLast?_concat] at hlast ⊢
      have hc := hlast c rfl
      rw [collapse_append (by simp [hc]), collapse_cons hc, collapse_nil,
        ← List.cons_append] at hquoted
      rw [List.singleton_inj.mp (List.append_inj_right' hquoted rfl)]
  · intro hts
    obtain ⟨inside, rfl⟩ := h.exists_of_isBetweenStrings hts
    refine ⟨collapse inside, ?_⟩
    rw [collapse_cons isBlank_quote, collapse_append (by simp [isBlank_quote]),
      collapse_cons isBlank_quote, collapse_nil]

end

end Syntax

open Descriptor (Field)
open Syntax (IsBetweenStrings Token)

/-! ### Types of causes -/

/-- The fields of a file, in order. -/
def Descriptor.allFields (d : Descriptor) : List Field :=
  d.enumerations.flatMap fun e => e.variants.flatMap Descriptor.Variant.fields

/-- The types of a file are those of its fields. -/
theorem Descriptor.types_eq (d : Descriptor) : d.types = d.allFields.map Field.type := by
  rw [allFields, List.map_flatMap]
  exact congrArg (List.flatMap · d.enumerations) (funext fun e => List.map_flatMap.symm)

/-- The type of a cause as it is declared: a type that is a string literal and nothing else without
its quotation marks, and any other as it is written. -/
def declaredCause (ts : List Token) (type : String) : String :=
  match ts with
  | [t] => if t.terminal = .string then String.ofList (type.toList.drop 1).dropLast else type
  | _ => type

namespace Emission

/-- A type between quotation marks loses them. -/
theorem causeType_of_quoted {f : Field} {inside : List Char}
    (h : f.type.toList = '"' :: (inside ++ ['"'])) : causeType f = String.ofList inside := by
  obtain ⟨first, rest, hsplit⟩ : ∃ first rest, inside ++ ['"'] = first :: rest :=
    List.exists_cons_of_ne_nil (by simp)
  have hlast : (first :: rest).getLast? = some '"' := by
    rw [← hsplit, List.getLast?_concat]
  rw [causeType, h, hsplit]
  exact (if_pos hlast).trans (by rw [← hsplit, List.dropLast_concat])

/-- Any other type is kept. -/
theorem causeType_of_not_quoted {f : Field}
    (h : ¬∃ inside, f.type.toList = '"' :: (inside ++ ['"'])) : causeType f = f.type := by
  unfold causeType
  split
  · next first rest heq =>
    rw [if_neg]
    intro hlast
    obtain ⟨inside, hinside⟩ := List.getLast?_eq_some_iff.mp hlast
    exact h ⟨inside, by rw [heq, hinside]⟩
  · rfl

end Emission

/-- What is emitted for the type of a cause whose type has some tokens. -/
structure Descriptor.Field.IsUnquoted (ts : List Token) (f : Field) : Prop where
  /-- A type that starts and ends with a string literal loses its first and its last quotation
  mark. -/
  quoted : IsBetweenStrings ts → f.type = "\"" ++ Emission.causeType f ++ "\""
  /-- Any other type is kept. -/
  kept : ¬IsBetweenStrings ts → Emission.causeType f = f.type
  /-- So it is the type as it is declared, unless there is more than one token in a type that starts
  and ends with a string literal. -/
  declared_iff : Emission.causeType f = declaredCause ts f.type ↔
    ¬(2 ≤ ts.length ∧ IsBetweenStrings ts)

/-- **What is emitted for the type of a cause** whose type is a row. -/
theorem Descriptor.Field.isUnquoted_of_isRow {source text : List Char} {ts : List Token} {f : Field}
    (h : Syntax.IsRow source text ts) (htype : f.type.toList = joined text) :
    f.IsUnquoted ts := by
  have hiff := h.quoted_iff
  rw [← htype] at hiff
  have hquoted : IsBetweenStrings ts → f.type = "\"" ++ Emission.causeType f ++ "\"" := by
    intro hts
    obtain ⟨inside, hinside⟩ := hiff.mpr hts
    rw [Emission.causeType_of_quoted hinside, ← String.toList_inj, hinside]
    simp
  have hkept : ¬IsBetweenStrings ts → Emission.causeType f = f.type := fun hts =>
    Emission.causeType_of_not_quoted (mt hiff.mp hts)
  refine ⟨hquoted, hkept, ?_⟩
  cases ts with
  | nil => cases h
  | cons t ts =>
    cases ts with
    | nil =>
      -- a single token is the type as it is declared, whatever it is
      refine iff_of_true ?_ fun hlong => absurd hlong.1 (by simp)
      by_cases hstring : t.terminal = .string
      · have hts : IsBetweenStrings [t] := ⟨⟨t, rfl, hstring⟩, t, rfl, hstring⟩
        obtain ⟨inside, hinside⟩ := hiff.mpr hts
        rw [declaredCause, if_pos hstring, Emission.causeType_of_quoted hinside, hinside,
          List.drop_one, List.tail_cons, List.dropLast_concat]
      · rw [declaredCause, if_neg hstring]
        refine hkept fun hts => hstring ?_
        obtain ⟨⟨first, hfirst, hterminal⟩, -⟩ := hts
        cases hfirst
        exact hterminal
    | cons u ts =>
      have hlong : 2 ≤ (t :: u :: ts).length := by simp
      have hdeclared : declaredCause (t :: u :: ts) f.type = f.type := rfl
      rw [hdeclared, and_iff_right hlong]
      refine ⟨fun hsame hts => ?_, hkept⟩
      have hlength := congrArg String.length (hquoted hts)
      have hmark : "\"".length = 1 := rfl
      rw [hsame, String.length_append, String.length_append, hmark] at hlength
      omega

/-- The line of a selector that says of which type its cause is. -/
theorem Emission.causeType_mem_selector {v : Descriptor.Variant} {f : Field}
    (hf : v.source? = some f) :
    ∃ lines, selector [] v = .ok lines ∧ "    cause_type = " ++ causeType f ∈ lines := by
  unfold selector
  rw [shapeTuple_eq]
  refine ⟨_, rfl, List.mem_append_right _ ?_⟩
  refine List.mem_map.mpr ⟨"cause_type = " ++ causeType f, ?_, ?_⟩
  · simp [hf]
  · rw [if_neg (by simp [String.append_eq_empty_iff]), ← String.append_assoc]
    rfl

/-- **The types of causes in a module.** If a file is compiled without errors, the selector of each
variant that wraps an error has a line that says of which type the error is. What stands there is
the type of the field without its first and its last character if the type starts and ends with a
string literal, and the type as it is otherwise. So it is the type as it is declared, except for a
type of several tokens that starts and ends with a string literal. -/
theorem compile_cause_types [Expression.Capacity]
    {options : CompileOptions} {source filename : String}
    {c : Compilation} (h : compile options source filename = .ok c)
    (hclean : c.report.hasErrors = false) :
    ∃ items d blocks tree, c.IsModuleOf options source filename items d blocks ∧
      Syntax.parse source.toList = .ok tree ∧
      List.Forall₂ (fun f e => f.IsUnquoted (Syntax.Extent.tokens source.toList e)) d.allFields
        tree.typeExtents ∧
      ∀ e ∈ d.enumerations, ∀ v ∈ e.variants, ∀ f, v.source? = some f → f ∈ d.allFields ∧
        ∃ lines ∈ blocks, Emission.selector [] v = .ok lines ∧
          "    cause_type = " ++ Emission.causeType f ∈ lines := by
  obtain ⟨items, d, blocks, hmodule⟩ := exists_isModuleOf h hclean
  obtain ⟨tree, d', hparse, -, hd, htypes⟩ := types_of_compile h hclean
  obtain rfl : d = d' := Option.some.inj (hmodule.held.symm.trans hd)
  refine ⟨items, d, blocks, tree, hmodule, hparse, ?_, fun e he v hv f hf => ⟨?_, ?_⟩⟩
  · have hsame : List.Forall₂ (fun f e => f.type = Syntax.typeText source.toList e) d.allFields
        tree.typeExtents := by
      rw [Descriptor.types_eq, ← List.forall₂_eq_eq_eq, List.forall₂_map_left_iff,
        List.forall₂_map_right_iff] at htypes
      exact htypes
    have hmem : List.Forall₂ (fun e f => e ∈ tree.typeExtents ∧
        f.type = Syntax.typeText source.toList e) tree.typeExtents d.allFields :=
      (List.forall₂_and_left _ _).mpr ⟨fun _ he => he, hsame.flip⟩
    refine (hmem.imp fun e f ⟨he, htype⟩ => ?_).flip
    obtain ⟨-, text, hrow, htext⟩ := Syntax.exists_row_of_typeExtents hparse he
    exact Field.isUnquoted_of_isRow hrow (htype ▸ htext)
  · exact List.mem_flatMap.mpr ⟨e, he, List.mem_flatMap.mpr ⟨v, hv, List.mem_of_find?_eq_some hf⟩⟩
  · obtain ⟨lines, hlines, hline⟩ := Emission.causeType_mem_selector hf
    exact ⟨lines, (Emission.mem_blocks_iff hmodule.written).mpr
      ⟨e, he, Or.inr (Or.inr ⟨v, hv, Or.inr (Or.inl hlines)⟩)⟩, hlines, hline⟩

/-- A type that is not known yet is a string literal, and loses its quotation marks. -/
theorem compile_cause_types_later :
    ∃ c items d blocks lines,
      compile {} "enum E \x7b #[error = \"m\"] V \x7b #[source] source: \"Later\" \x7d \x7d"
          "<input>" = .ok c ∧
        c.IsModuleOf {} "enum E \x7b #[error = \"m\"] V \x7b #[source] source: \"Later\" \x7d \x7d"
          "<input>" items d blocks ∧ lines ∈ blocks ∧ "    cause_type = Later" ∈ lines := by
  have hrun : ((compile {}
      "enum E \x7b #[error = \"m\"] V \x7b #[source] source: \"Later\" \x7d \x7d"
      "<input>").toOption.any fun c => !c.report.hasErrors && c.descriptor.any fun d =>
        d.enumerations.any fun e => e.variants.any fun v => v.source?.any fun f =>
          decide (Emission.causeType f = "Later")) = true := by
    decide +kernel
  obtain ⟨c, d, hc, hclean, hd, hdescribed⟩ := exists_descriptor_of_any hrun
  obtain ⟨items, d', blocks, tree, hmodule, -, -, hlines⟩ := compile_cause_types hc hclean
  obtain rfl : d = d' := Option.some.inj (hd.symm.trans hmodule.held)
  obtain ⟨e, he, hdescribed⟩ := List.any_eq_true.mp hdescribed
  obtain ⟨v, hv, hdescribed⟩ := List.any_eq_true.mp hdescribed
  obtain ⟨f, hf, htype⟩ := (Option.any_eq_true _ _).mp hdescribed
  obtain ⟨-, lines, hmem, -, hline⟩ := hlines e he v hv f hf
  rw [of_decide_eq_true htype] at hline
  exact ⟨c, items, d, blocks, lines, hc, hmodule, hmem, hline⟩

/-- **A union may lose its outer quotation marks**: it starts and ends with a string literal. -/
theorem not_compile_cause_types :
    ¬∀ options source filename c items d blocks tree, compile options source filename = .ok c →
      c.report.hasErrors = false → c.IsModuleOf options source filename items d blocks →
        Syntax.parse source.toList = .ok tree →
          List.Forall₂ (fun f e => Emission.causeType f =
            declaredCause (Syntax.Extent.tokens source.toList e) f.type) d.allFields
              tree.typeExtents := by
  have hrun : ((compile {}
      "enum E \x7b #[error = \"m\"] V \x7b #[source] source: \"A\" | \"B\" \x7d \x7d"
      "<input>").toOption.any fun c => !c.report.hasErrors && (c.tree.any fun tree =>
        decide (tree.typeExtents = [⟨⟨46, 1, 47⟩, ⟨55, 1, 56⟩⟩])) && c.descriptor.any fun d =>
          decide (d.allFields.map (fun f => (f.type, Emission.causeType f)) =
            [("\"A\" | \"B\"", "A\" | \"B")])) = true := by
    decide +kernel
  obtain ⟨c, hc, hrun⟩ := (Option.any_eq_true _ _).mp hrun
  rw [Outcome.toOption_eq_some_iff] at hc
  simp only [Bool.and_eq_true] at hrun
  obtain ⟨⟨hclean, htree⟩, hd⟩ := hrun
  have hclean : c.report.hasErrors = false := by simpa using hclean
  obtain ⟨items, d, blocks, hmodule⟩ := exists_isModuleOf hc hclean
  obtain ⟨tree, -, hparse, hheld, -⟩ := types_of_compile hc hclean
  rw [hheld, Option.any_some] at htree
  rw [hmodule.held, Option.any_some] at hd
  intro hall
  have hlaw := hall _ _ _ c items d blocks tree hc hclean hmodule hparse
  have hfields := of_decide_eq_true hd
  rw [of_decide_eq_true htree] at hlaw
  obtain ⟨f, hf, hsame⟩ := List.map_eq_singleton_iff.mp hfields
  obtain ⟨htype, hcause⟩ := Prod.mk.inj hsame
  rw [hf, List.forall₂_cons, htype, hcause] at hlaw
  exact absurd hlaw.1 (by decide +kernel)

end Errata
