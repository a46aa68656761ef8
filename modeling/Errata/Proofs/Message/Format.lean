import Errata.Proofs.Message.Filling
import Errata.Proofs.Outcome

/-!
# Formats of placeholders

The format of a placeholder is what it hands on to the template: its conversion, and its
specification with the colon before it. It ends before the first closing brace, so it holds none; an
opening brace in it is read by the template in another way than by the literal, which does not nest.

* `IsFormat`: formats, and `isFormat_parts`: the format of a placeholder is one.
* `fieldOfFormat`: the field that a format makes; `items_field`: **a format without braces makes its
  field** wherever it stands between single braces.
* `items_shown`: a format whose opening braces are doubled is shown as text between doubled braces.
* `items_loneOpen`: **a format with a lone opening brace** between doubled braces makes one field
  more than none, and leaves a closing brace behind.
-/

namespace Errata.Template

/-! ### Specifications -/

/-- A specification is closed by the first brace that closes more than it opens: the braces in it
are balanced. -/
theorem count_fieldSpec {depth : Nat} {text spec rest : Text}
    (h : fieldSpec depth text = some (spec, rest)) :
    spec.count (.char '}') = depth + spec.count (.char '{') := by
  fun_induction fieldSpec depth text generalizing spec with
  | case1 => simp at h
  | case2 depth text ih =>
    obtain ⟨⟨inner, after⟩, hi, heq⟩ := Option.map_eq_some_iff.mp h
    obtain ⟨rfl, rfl⟩ := Prod.mk.inj heq
    have := ih hi
    simp
    omega
  | case3 text =>
    obtain ⟨rfl, rfl⟩ := Prod.mk.inj (Option.some.inj h)
    simp
  | case4 text depth _ ih =>
    obtain ⟨⟨inner, after⟩, hi, heq⟩ := Option.map_eq_some_iff.mp h
    obtain ⟨rfl, rfl⟩ := Prod.mk.inj heq
    have := ih hi
    simp
    omega
  | case5 depth c text ho hc ih =>
    obtain ⟨⟨inner, after⟩, hi, heq⟩ := Option.map_eq_some_iff.mp h
    obtain ⟨rfl, rfl⟩ := Prod.mk.inj heq
    have := ih hi
    rw [List.count_cons_of_ne (by simpa using hc), List.count_cons_of_ne (by simpa using ho)]
    exact this

/-- A specification without braces is closed by the first brace behind it. -/
theorem fieldSpec_append {spec : Text} (ho : .char '{' ∉ spec) (hc : .char '}' ∉ spec)
    (rest : Text) : fieldSpec 0 (spec ++ .char '}' :: rest) = some (spec, rest) := by
  induction spec with
  | nil => simp [fieldSpec]
  | cons c spec ih =>
    simp only [List.mem_cons, not_or] at ho hc
    rw [List.cons_append, fieldSpec, if_neg (Ne.symm ho.1), if_neg (Ne.symm hc.1), ih ho.2 hc.2]
    rfl

/-- A specification in which no field opens ends at the first closing brace. -/
theorem eq_append_of_fieldSpec {text spec rest : Text} (h : fieldSpec 0 text = some (spec, rest))
    (ho : .char '{' ∉ spec) : text = spec ++ .char '}' :: rest ∧ .char '}' ∉ spec := by
  have hb : .char '}' ∉ spec := by
    rw [← List.count_eq_zero, count_fieldSpec h, List.count_eq_zero.mpr ho]
  refine ⟨?_, hb⟩
  clear hb
  induction text generalizing spec with
  | nil => simp [fieldSpec] at h
  | cons c text ih =>
    rw [fieldSpec] at h
    split at h
    · -- an opening brace would be part of the specification
      obtain ⟨⟨inner, after⟩, -, heq⟩ := Option.map_eq_some_iff.mp h
      obtain ⟨rfl, rfl⟩ := Prod.mk.inj heq
      simp_all
    · split at h
      · next hc =>
        obtain ⟨rfl, rfl⟩ := Prod.mk.inj (Option.some.inj h)
        simp [hc]
      · obtain ⟨⟨inner, after⟩, hi, heq⟩ := Option.map_eq_some_iff.mp h
        obtain ⟨rfl, rfl⟩ := Prod.mk.inj heq
        rw [ih hi fun hm => ho (List.mem_cons_of_mem c hm), List.cons_append]

/-- What a completed field is. -/
theorem eq_of_withSpec {name text after : Text} {letter : Option CodePoint} {field : Field}
    (h : withSpec name letter text = .ok (field, after)) :
    fieldSpec 0 text = some (field.spec, after) ∧ field = ⟨name, letter, field.spec⟩ := by
  unfold withSpec at h
  split at h
  · next spec rest hs =>
    obtain ⟨rfl, rfl⟩ := Prod.mk.inj (Except.ok.inj h)
    exact ⟨hs, rfl⟩
  · cases h

/-- A field has the name that is read first, and its specification is empty or read behind it. -/
theorem eq_of_readField {text after : Text} {field : Field}
    (h : readField text = .ok (field, after)) :
    (∃ stop, fieldName false text = (field.name, stop) ∧ ∀ fault, stop ≠ .atFault fault) ∧
      (field.spec = [] ∨ ∃ mid, fieldSpec 0 mid = some (field.spec, after)) := by
  unfold readField at h
  split at h
  · cases h
  · next hn =>
    obtain ⟨rfl, -⟩ := Prod.mk.inj (Except.ok.inj h)
    exact ⟨⟨_, hn, by simp⟩, Or.inl rfl⟩
  · next hn =>
    obtain ⟨hs, heq⟩ := eq_of_withSpec h
    exact ⟨⟨_, by rw [hn, heq], by simp⟩, Or.inr ⟨_, hs⟩⟩
  · next hn =>
    split at h
    · cases h
    · cases h
    · split at h
      · obtain ⟨rfl, -⟩ := Prod.mk.inj (Except.ok.inj h)
        exact ⟨⟨_, hn, by simp⟩, Or.inl rfl⟩
      · split at h
        · obtain ⟨hs, heq⟩ := eq_of_withSpec h
          exact ⟨⟨_, by rw [hn, heq], by simp⟩, Or.inr ⟨_, hs⟩⟩
        · cases h

/-- The braces in the specification of a field are balanced. -/
theorem count_spec_of_readField {text after : Text} {field : Field}
    (h : readField text = .ok (field, after)) :
    field.spec.count (.char '}') = field.spec.count (.char '{') := by
  obtain hs | ⟨mid, hs⟩ := (eq_of_readField h).2
  · rw [hs, List.count_nil, List.count_nil]
  · simpa using count_fieldSpec hs

end Errata.Template

namespace Errata.Placeholder

open Outcome
open Template (Field Item fields items readField fieldName withSpec fieldSpec)

/-! ### Cutting at a brace -/

/-- A list is split at the first occurrence of an element. -/
theorem splitAtFirst_eq_some_iff {α : Type} [DecidableEq α] {x : α} {l before after : List α} :
    splitAtFirst x l = some (before, after) ↔ l = before ++ x :: after ∧ x ∉ before := by
  induction l generalizing before with
  | nil => simp [splitAtFirst]
  | cons y l ih =>
    rw [splitAtFirst]
    by_cases hy : y = x
    · rw [if_pos hy]
      constructor
      · rintro h
        obtain ⟨rfl, rfl⟩ := Prod.mk.inj (Option.some.inj h)
        simp [hy]
      · rintro ⟨heq, hx⟩
        cases before with
        | nil => simp_all
        | cons z before => simp_all
    · rw [if_neg hy, Option.map_eq_some_iff]
      constructor
      · rintro ⟨⟨first, rest⟩, hs, heq⟩
        obtain ⟨rfl, rfl⟩ := Prod.mk.inj heq
        obtain ⟨rfl, hx⟩ := ih.mp hs
        exact ⟨rfl, by simp [Ne.symm hy, hx]⟩
      · rintro ⟨heq, hx⟩
        cases before with
        | nil => simp_all
        | cons z before =>
          obtain ⟨rfl, rfl⟩ := List.cons.inj heq
          exact ⟨(before, after), ih.mpr ⟨rfl, by simp_all⟩, rfl⟩

/-! ### Formats -/

/-- The text of a format with the given conversion and specification. -/
def formatText (letter : Option CodePoint) (spec : Option Text) : Text :=
  (letter.elim [] fun c => [.char '!', c]) ++ spec.elim [] (.char ':' :: ·)

/-- The formats of placeholders: a conversion with a meaning and a specification, each of which may
be missing, and no closing brace. -/
def IsFormat (format : Text) : Prop :=
  ∃ letter spec, format = formatText letter spec ∧ (∀ c ∈ letter, isConversion c = true) ∧
    .char '}' ∉ format

/-- The field that a format makes. -/
def fieldOfFormat : Text → Field
  | .char '!' :: c :: spec => ⟨[], some c, spec.drop 1⟩
  | spec => ⟨[], none, spec.drop 1⟩

/-- The field of a format has the conversion and the specification of the format. -/
theorem fieldOfFormat_formatText (letter : Option CodePoint) (spec : Option Text) :
    fieldOfFormat (formatText letter spec) = ⟨[], letter, spec.getD []⟩ := by
  cases letter <;> cases spec <;> rfl

/-- The field of a format is plain if no brace opens in the format. -/
theorem isPlain_fieldOfFormat {format : Text} (h : IsFormat format) (ho : .char '{' ∉ format) :
    (fieldOfFormat format).IsPlain := by
  obtain ⟨letter, spec, rfl, hletter, -⟩ := h
  rw [fieldOfFormat_formatText]
  refine ⟨rfl, hletter, fun hm => ho ?_⟩
  cases spec with
  | none => simp at hm
  | some spec => simpa [formatText] using Or.inr hm

/-- No brace closes in the specification that a format makes. -/
theorem not_mem_spec_fieldOfFormat {format : Text} (h : IsFormat format) :
    .char '}' ∉ (fieldOfFormat format).spec := by
  obtain ⟨letter, spec, rfl, -, hc⟩ := h
  rw [fieldOfFormat_formatText]
  intro hm
  apply hc
  cases spec with
  | none => simp at hm
  | some spec => simpa [formatText] using Or.inr hm

/-- A brace opens in a format only in its specification. -/
theorem mem_spec_fieldOfFormat {format : Text} (h : IsFormat format) (ho : .char '{' ∈ format) :
    .char '{' ∈ (fieldOfFormat format).spec := by
  obtain ⟨letter, spec, rfl, hletter, -⟩ := h
  rw [fieldOfFormat_formatText]
  have hl : .char '{' ∉ letter.elim [] fun c => [.char '!', c] := by
    cases letter with
    | none => simp
    | some c =>
      have hc := hletter c rfl
      simp only [isConversion, Bool.or_eq_true, beq_iff_eq] at hc
      rcases hc with (rfl | rfl) | rfl <;> decide
  have hs := (List.mem_append.mp ho).resolve_left hl
  cases spec with
  | none => simp at hs
  | some spec => simpa using hs

/-! ### Reading a format in a template -/

/-- What a format makes when the template reads it behind an opening brace. -/
theorem readField_format {format : Text} (h : IsFormat format) (ho : .char '{' ∉ format)
    (rest : Text) :
    readField (format ++ .char '}' :: rest) = .ok (fieldOfFormat format, rest) := by
  obtain ⟨letter, spec, rfl, -, hc⟩ := h
  rw [fieldOfFormat_formatText]
  have hspec : ∀ s, spec = some s → fieldSpec 0 (s ++ .char '}' :: rest) = some (s, rest) := by
    rintro s rfl
    apply Template.fieldSpec_append
    · exact fun hm => ho (by simpa [formatText] using Or.inr hm)
    · exact fun hm => hc (by simpa [formatText] using Or.inr hm)
  cases letter with
  | none =>
    cases spec with
    | none => simp [formatText, readField, fieldName]
    | some s => simp [formatText, readField, fieldName, withSpec, hspec s rfl]
  | some c =>
    cases spec with
    | none => simp [formatText, readField, fieldName]
    | some s => simp [formatText, readField, fieldName, withSpec, hspec s rfl]

/-- No format starts with an opening brace. -/
theorem head?_format_append {format : Text} (h : IsFormat format) (rest : Text) :
    (format ++ .char '}' :: rest).head? ≠ some (.char '{') := by
  obtain ⟨letter, spec, rfl, -, -⟩ := h
  cases letter <;> cases spec <;> simp [formatText]

/-- **A format without braces makes its field** between single braces. -/
theorem items_field {format : Text} (h : IsFormat format) (ho : .char '{' ∉ format)
    (rest : Text) :
    items (.char '{' :: format ++ .char '}' :: rest) =
      (items rest).map (.field (fieldOfFormat format) :: ·) := by
  rw [List.cons_append, Template.items_cons_field (by simp) (head?_format_append h rest),
    readField_format h ho]
  rfl

/-! ### Formats shown as text -/

/-- Whether an opening brace in the text is not doubled. -/
def hasLoneOpen : Text → Bool
  | .char '{' :: .char '{' :: rest => hasLoneOpen rest
  | .char '{' :: _ => true
  | _ :: rest => hasLoneOpen rest
  | [] => false

/-- The text with each doubled opening brace made single. -/
def undoubled : Text → Text
  | .char '{' :: .char '{' :: rest => .char '{' :: undoubled rest
  | c :: rest => c :: undoubled rest
  | [] => []

/-- There is no lone opening brace where there is none at all. -/
theorem hasLoneOpen_of_not_mem {text : Text} (h : .char '{' ∉ text) : hasLoneOpen text = false := by
  fun_induction hasLoneOpen text <;> simp_all

/-- Text without opening braces has none that is doubled. -/
theorem undoubled_of_not_mem {text : Text} (h : .char '{' ∉ text) : undoubled text = text := by
  fun_induction undoubled text <;> simp_all

/-- Text in which every opening brace is doubled and no brace closes is read as text. -/
theorem items_undoubled {text : Text} (hc : .char '}' ∉ text) (ho : hasLoneOpen text = false)
    (rest : Text) :
    items (text ++ rest) = (items rest).map ((undoubled text).map .text ++ ·) := by
  fun_induction hasLoneOpen text with
  | case1 text ih =>
    simp only [List.mem_cons, not_or] at hc
    rw [List.cons_append, List.cons_append, Template.items_cons_open, ih hc.2.2 ho, undoubled]
    cases items rest <;> rfl
  | case2 => simp at ho
  | case3 c text h1 h2 ih =>
    simp only [List.mem_cons, not_or] at hc
    have hopen : c ≠ .char '{' := fun h => h2 h
    rw [List.cons_append, Template.items_cons_plain hopen (Ne.symm hc.1), ih hc.2 ho, undoubled]
    · cases items rest <;> rfl
    · exact fun _ h => absurd h hopen
  | case4 => cases h : items rest <;> simp [h, undoubled, Except.map]

/-- A format in which every opening brace is doubled is shown as text between doubled braces. -/
theorem items_shown {format : Text} (hc : .char '}' ∉ format) (ho : hasLoneOpen format = false)
    (rest : Text) :
    items ([.char '{', .char '{'] ++ format ++ [.char '}', .char '}'] ++ rest) =
      (items rest).map
        ((CodePoint.char '{' :: undoubled format ++ [CodePoint.char '}']).map .text ++ ·) := by
  have h := items_undoubled hc ho (.char '}' :: .char '}' :: rest)
  rw [Template.items_cons_close] at h
  simp only [List.cons_append, List.nil_append, List.append_assoc]
  rw [Template.items_cons_open, h]
  cases items rest <;> simp [Except.map]

/-! ### A lone opening brace in a format -/

/-- A field has a name if something else than the end of a name comes first. -/
theorem name_ne_nil_of_readField {c : CodePoint} {text after : Text} {field : Field}
    (hclose : c ≠ .char '}') (hcolon : c ≠ .char ':') (hbang : c ≠ .char '!')
    (h : readField (c :: text) = .ok (field, after)) : field.name ≠ [] := by
  obtain ⟨⟨stop, hn, hfault⟩, -⟩ := Template.eq_of_readField h
  simp only [fieldName, Bool.false_eq_true, if_false, if_neg hclose, if_neg hcolon,
    if_neg hbang] at hn
  split at hn
  · exact absurd (Prod.mk.inj hn).2.symm (hfault _)
  · simp [← (Prod.mk.inj hn).1]

/-- A plain field ends at the first closing brace behind the brace that opens it. -/
theorem readField_plain {text rest after : Text} {field : Field} (hc : .char '}' ∉ text)
    (hp : field.IsPlain) (h : readField (text ++ .char '}' :: rest) = .ok (field, after)) :
    after = rest := by
  -- a specification without fields is the text up to the closing brace
  have hspec : ∀ (name : Text) (letter : Option CodePoint) (s : Text), .char '}' ∉ s →
      Template.withSpec name letter (s ++ .char '}' :: rest) = .ok (field, after) →
      after = rest := by
    intro name letter s hs h
    unfold Template.withSpec at h
    split at h
    · next spec stop hf =>
      obtain ⟨rfl, rfl⟩ := Prod.mk.inj (Except.ok.inj h)
      obtain ⟨heq, hb⟩ := Template.eq_append_of_fieldSpec hf hp.spec
      have hsplit := splitAtFirst_eq_some_iff.mpr ⟨heq, hb⟩
      rw [splitAtFirst_eq_some_iff.mpr ⟨rfl, hs⟩] at hsplit
      simp_all
    · cases h
  cases text with
  | nil =>
    obtain ⟨-, rfl⟩ : _ ∧ rest = after := by simpa [readField, fieldName] using h
    rfl
  | cons c text =>
    simp only [List.mem_cons, not_or] at hc
    by_cases hcolon : c = .char ':'
    · subst hcolon
      exact hspec [] none text hc.2 (by simpa [readField, fieldName] using h)
    by_cases hbang : c = .char '!'
    · subst hbang
      cases text with
      | nil =>
        -- the closing brace would be the letter of the conversion
        have hletter : field.conversion = some (.char '}') := by
          cases rest with
          | nil => simp [readField, fieldName] at h
          | cons d rest =>
            simp only [readField, List.cons_append, List.nil_append, fieldName] at h
            by_cases hd : d = .char '}'
            · simp [hd] at h
              simp [← h.1]
            by_cases hs : d = .char ':'
            · simp [hs] at h
              rw [(Template.eq_of_withSpec h).2]
            · simp [hd, hs] at h
        exact absurd (hp.conversion _ hletter) (by decide)
      | cons letter text =>
        simp only [List.mem_cons, not_or] at hc
        cases text with
        | nil =>
          obtain ⟨-, rfl⟩ : _ ∧ rest = after := by simpa [readField, fieldName] using h
          rfl
        | cons d text =>
          simp only [List.mem_cons, not_or] at hc
          by_cases hd : d = .char ':'
          · subst hd
            exact hspec [] (some letter) text hc.2.2.2 (by simpa [readField, fieldName] using h)
          · simp [readField, fieldName, hd, Ne.symm hc.2.2.1] at h
    · exact absurd hp.name (name_ne_nil_of_readField (Ne.symm hc.1) hcolon hbang h)

/-- A format with a lone opening brace makes a field of its own, which takes the closing brace
behind the format. -/
theorem items_loneOpen {format rest : Text} {its : List Item} (hc : .char '}' ∉ format)
    (ho : hasLoneOpen format = true) (h : items (format ++ .char '}' :: rest) = .ok its)
    (hp : ∀ f ∈ fields its, f.IsPlain) :
    ∃ more field, items rest = .ok more ∧
      fields its = field :: fields more := by
  fun_induction hasLoneOpen format generalizing its with
  | case1 text ih =>
    simp only [List.mem_cons, not_or] at hc
    rw [List.cons_append, List.cons_append, Template.items_cons_open, map_eq_ok_iff] at h
    obtain ⟨its, h, rfl⟩ := h
    simpa using ih hc.2.2 ho h (by simpa using hp)
  | case2 text hdoubled =>
    simp only [List.mem_cons, not_or] at hc
    have hhead : (text ++ .char '}' :: rest).head? ≠ some (.char '{') := by
      cases text with
      | nil => simp
      | cons c text => simpa using fun hbrace => hdoubled text (by rw [hbrace])
    rw [List.cons_append, Template.items_cons_field (by simp) hhead, bind_eq_ok_iff] at h
    obtain ⟨⟨field, after⟩, hf, h⟩ := h
    obtain ⟨more, hm, rfl⟩ := map_eq_ok_iff.mp h
    have hplain : field.IsPlain := hp field (by simp)
    obtain rfl := readField_plain hc.2 hplain hf
    exact ⟨more, field, hm, by simp⟩
  | case3 c text h1 h2 ih =>
    simp only [List.mem_cons, not_or] at hc
    have hopen : c ≠ .char '{' := fun h => h2 h
    rw [List.cons_append, Template.items_cons_plain hopen (Ne.symm hc.1), map_eq_ok_iff] at h
    obtain ⟨its, h, rfl⟩ := h
    simpa using ih hc.2 ho h (by simpa using hp)
  | case4 => simp at ho

/-! ### The format of a placeholder -/

/-- The conversion cut off an argument is one, or nothing is cut off. -/
theorem splitConversion_snd (argument : Text) :
    ∃ letter : Option CodePoint, (splitConversion argument).2 = formatText letter none ∧
      ∀ c ∈ letter, isConversion c = true := by
  unfold splitConversion
  split
  · split
    · next c _ _ hc => exact ⟨some c, rfl, by simpa using hc⟩
    · exact ⟨none, rfl, by simp⟩
  · split
    · next c _ _ _ hc => exact ⟨some c, rfl, by simpa using hc⟩
    · exact ⟨none, rfl, by simp⟩
  · exact ⟨none, rfl, by simp⟩

/-- Conversions hold no closing brace. -/
theorem not_mem_formatText_none {letter : Option CodePoint}
    (h : ∀ c ∈ letter, isConversion c = true) : .char '}' ∉ formatText letter none := by
  cases letter with
  | none => simp [formatText]
  | some c =>
    have hc := h c rfl
    simp only [isConversion, Bool.or_eq_true, beq_iff_eq] at hc
    rcases hc with (rfl | rfl) | rfl <;> decide

/-- The format of a placeholder is one. -/
theorem isFormat_parts {inner : Text} (h : .char '}' ∉ inner) : IsFormat (parts inner).2 := by
  unfold parts
  cases hs : splitAtFirst (.char ':') inner with
  | none =>
    obtain ⟨letter, heq, hletter⟩ := splitConversion_snd inner
    refine ⟨letter, none, by simpa using heq, hletter, ?_⟩
    simpa [heq] using not_mem_formatText_none hletter
  | some cut =>
    obtain ⟨written, spec⟩ := cut
    obtain ⟨rfl, -⟩ := splitAtFirst_eq_some_iff.mp hs
    obtain ⟨letter, heq, hletter⟩ := splitConversion_snd written
    refine ⟨letter, some spec, by simp [heq, formatText], hletter, ?_⟩
    have hclose := not_mem_formatText_none hletter
    simp_all

end Errata.Placeholder
