import Errata.Descriptor.Literal
import Errata.Proofs.Message.Escape
import Errata.Proofs.Text.Hexadecimal
import Errata.Proofs.Text.Quoted

/-!
# How code points are written in a literal

A code point of a literal is written as itself or by an escape, which is a backslash and a letter,
or a backslash, a letter and the hexadecimal digits of its number. The digits are left to a reader
of numerals, and so a sign, white space, a radix mark, a low line and the digits of any script may
stand among them too, as long as there are as many characters as there should be digits.

* `Documented`: how a code point should be written. `Undocumented`: the escapes that are taken as
  well.
* **`spells_iff`**: what spells a code point is one or the other.
* **`decode_written`**: the literals that are decoded, and the diagnostic for all others.
* `not_decode_documented`: a sign among the digits.
-/

namespace Errata.Escape

open Hexadecimal (asciiDigit? number IsNumeral)

/-! ### Escapes -/

/-- The characters that make an escape with a backslash, and what the two stand for. -/
def letters : List (Char × Char) :=
  [('n', '\n'), ('t', '\t'), ('r', '\r'), ('\\', '\\'), ('"', '"'), ('\'', '\''), ('0', '\x00')]

/-- The letters of numeric escapes, and how many digits each of them has. -/
def numericLetters : List (Char × Nat) :=
  [('x', 2), ('u', 4)]

/-- How a code point should be written. -/
inductive Documented : List Char → CodePoint → Prop
  /-- As itself. -/
  | plain {c : Char} (h : c ≠ '\\') : Documented [c] (.char c)
  /-- By a backslash and a letter. -/
  | letter {kind c : Char} (hkind : (kind, c) ∈ letters) : Documented ['\\', kind] (.char c)
  /-- By a backslash, a letter and the digits of its number. -/
  | numeric {kind : Char} {count : Nat} {digits : List Char} {ds : List Nat} {value : CodePoint}
      (hkind : (kind, count) ∈ numericLetters) (hlength : digits.length = count)
      (hdigits : List.Forall₂ (fun c d => asciiDigit? c = some d) digits ds)
      (hvalue : value.toNat = number 0 ds) : Documented ('\\' :: kind :: digits) value

/-- The escapes that are taken as well. -/
inductive Undocumented : List Char → CodePoint → Prop
  /-- A numeral for the number of the code point that does not consist of digits alone. -/
  | numeral {kind : Char} {count : Nat} {digits : List Char} {value : CodePoint}
      (hkind : (kind, count) ∈ numericLetters) (hlength : digits.length = count)
      (hdigits : ∃ c ∈ digits, asciiDigit? c = none) (hvalue : IsNumeral digits value.toNat) :
      Undocumented ('\\' :: kind :: digits) value

/-- How a code point may be written. -/
inductive Written : List Char → CodePoint → Prop
  /-- As it should be. -/
  | documented {w : List Char} {c : CodePoint} (h : Documented w c) : Written w c
  /-- By an escape that is taken as well. -/
  | undocumented {w : List Char} {c : CodePoint} (h : Undocumented w c) : Written w c

/-! ### What is read as an escape -/

/-- The letters of escapes. -/
theorem simple?_eq_some_iff {kind c : Char} : simple? kind = some c ↔ (kind, c) ∈ letters := by
  constructor
  · intro h
    unfold simple? at h
    split at h <;> cases h <;> simp [letters]
  · intro h
    simp only [letters, List.mem_cons, Prod.mk.injEq, List.not_mem_nil, or_false] at h
    rcases h with ⟨rfl, rfl⟩ | ⟨rfl, rfl⟩ | ⟨rfl, rfl⟩ | ⟨rfl, rfl⟩ | ⟨rfl, rfl⟩ | ⟨rfl, rfl⟩ |
      ⟨rfl, rfl⟩ <;> rfl

/-- The letters of numeric escapes, none of which makes an escape by itself. -/
theorem digitCount?_eq_some_iff {kind : Char} {count : Nat} :
    simple? kind = none ∧ digitCount? kind = some count ↔ (kind, count) ∈ numericLetters := by
  constructor
  · rintro ⟨-, h⟩
    unfold digitCount? at h
    split at h <;> cases h <;> simp [numericLetters]
  · intro h
    simp only [numericLetters, List.mem_cons, Prod.mk.injEq, List.not_mem_nil, or_false] at h
    rcases h with ⟨rfl, rfl⟩ | ⟨rfl, rfl⟩ <;> exact ⟨rfl, rfl⟩

/-- Code points are found by their numbers. -/
theorem ofNat?_eq_some_iff {n : Nat} {c : CodePoint} :
    CodePoint.ofNat? n = some c ↔ c.toNat = n := by
  constructor
  · intro h
    unfold CodePoint.ofNat? at h
    split_ifs at h with hsurrogate hlt
    · cases h
      exact Nat.add_sub_cancel' hsurrogate.1
    · cases h
      have hvalid : n.isValidChar := by
        unfold Nat.isValidChar
        omega
      rw [CodePoint.toNat, Char.ofNat, dif_pos hvalid]
      rfl
  · rintro rfl
    exact (Quoted.ofNat?_toNat c).2

/-- What is read as the number of a code point. -/
theorem numeric?_eq_some_iff {count : Nat} {digits : List Char} {value : CodePoint} :
    numeric? count digits = some value ↔
      digits.length = count ∧ IsNumeral digits value.toNat := by
  rw [← Hexadecimal.numeral?_eq_some_iff, numeric?]
  constructor
  · intro h
    split_ifs at h with hlength
    refine ⟨not_not.mp hlength, ?_⟩
    split at h
    · next n hn =>
      rw [hn, ofNat?_eq_some_iff.mp h]
      rfl
    · cases h
  · rintro ⟨hlength, hvalue⟩
    rw [if_neg (not_not.mpr hlength), hvalue]
    exact ofNat?_eq_some_iff.mpr rfl

/-- Characters are digits, all of them, or one of them is none. -/
theorem ascii_or_exists (digits : List Char) :
    (∃ ds, List.Forall₂ (fun c d => asciiDigit? c = some d) digits ds) ∨
      ∃ c ∈ digits, asciiDigit? c = none := by
  induction digits with
  | nil => exact Or.inl ⟨[], .nil⟩
  | cons c digits ih =>
    cases hc : asciiDigit? c with
    | none => exact Or.inr ⟨c, List.mem_cons_self, hc⟩
    | some d =>
      rcases ih with ⟨ds, hds⟩ | ⟨c', hmem, hc'⟩
      · exact Or.inl ⟨d :: ds, .cons hc hds⟩
      · exact Or.inr ⟨c', List.mem_cons_of_mem _ hmem, hc'⟩

/-- Documented digits are read as the number that they are the digits of. -/
theorem numeral?_of_documented {kind : Char} {count : Nat} {digits : List Char} {ds : List Nat}
    (hkind : (kind, count) ∈ numericLetters) (hlength : digits.length = count)
    (hdigits : List.Forall₂ (fun c d => asciiDigit? c = some d) digits ds) :
    Hexadecimal.numeral? digits = some (number 0 ds : Int) := by
  refine Hexadecimal.numeral?_of_ascii ?_ hdigits
  rintro rfl
  rw [List.length_nil] at hlength
  subst hlength
  simp [numericLetters] at hkind

/-- A numeral of the right length spells a code point. -/
theorem spells_of_isNumeral {kind : Char} {count : Nat} {digits : List Char} {value : CodePoint}
    (hkind : (kind, count) ∈ numericLetters) (hlength : digits.length = count)
    (hvalue : IsNumeral digits value.toNat) :
    Spells ('\\' :: kind :: digits) ⟨('\\' :: kind :: digits).length, value⟩ := by
  obtain ⟨hs, hd⟩ := digitCount?_eq_some_iff.mpr hkind
  have hwidth : ('\\' :: kind :: digits).length = 2 + count := by
    rw [List.length_cons, List.length_cons, hlength]
    omega
  rw [hwidth]
  exact .numeric hs hd (numeric?_eq_some_iff.mpr ⟨hlength, hvalue⟩)

/-- **A code point is spelled** by what may be written for it. -/
theorem spells_iff {w : List Char} {p : Piece} :
    Spells w p ↔ Written w p.value ∧ p.width = w.length := by
  constructor
  · intro h
    refine ⟨?_, h.length_eq.symm⟩
    cases h with
    | plain hc => exact .documented (.plain hc)
    | simple hk => exact .documented (.letter (simple?_eq_some_iff.mp hk))
    | @numeric kind count digits value hs hd hn =>
      have hkind := digitCount?_eq_some_iff.mp ⟨hs, hd⟩
      obtain ⟨hlength, hvalue⟩ := numeric?_eq_some_iff.mp hn
      rcases ascii_or_exists digits with ⟨ds, hds⟩ | hother
      · have hnumber := numeral?_of_documented hkind hlength hds
        rw [Hexadecimal.numeral?_eq_some_iff.mpr hvalue, Option.some.injEq] at hnumber
        exact .documented (.numeric hkind hlength hds (Int.ofNat.inj hnumber))
      · exact .undocumented (.numeral hkind hlength hother hvalue)
  · rintro ⟨hwritten, hwidth⟩
    obtain ⟨width, value⟩ := p
    dsimp only at hwritten hwidth
    subst hwidth
    cases hwritten with
    | documented h =>
      cases h with
      | plain hc => exact .plain hc
      | letter hkind => exact .simple (simple?_eq_some_iff.mpr hkind)
      | numeric hkind hlength hdigits hvalue =>
        have hnumber := numeral?_of_documented hkind hlength hdigits
        rw [← hvalue] at hnumber
        exact spells_of_isNumeral hkind hlength (Hexadecimal.numeral?_eq_some_iff.mp hnumber)
    | undocumented h =>
      obtain ⟨hkind, hlength, -, hvalue⟩ := h
      exact spells_of_isNumeral hkind hlength hvalue

/-! ### Whole literals -/

/-- Whether the text of a decoded literal is written as the literal, code point by code point, and
its index tells where each of them starts. -/
def Decoded.IsWrittenAs (d : Decoded) (raw : List Char) : Prop :=
  ∃ ws, List.Forall₂ Written ws d.text ∧ ws.flatten = raw ∧
    d.index = boundaries 0 (ws.map List.length)

/-- What is written code point by code point is spelled piece by piece. -/
theorem exists_spells_iff {ws : List (List Char)} {text : Text} :
    List.Forall₂ Written ws text ↔
      ∃ ps, List.Forall₂ Spells ws ps ∧ ps.map Piece.value = text ∧
        ps.map Piece.width = ws.map List.length := by
  constructor
  · intro h
    induction h with
    | nil => exact ⟨[], .nil, rfl, rfl⟩
    | @cons w c ws text hw _ ih =>
      obtain ⟨ps, hps, hvalues, hwidths⟩ := ih
      exact ⟨⟨w.length, c⟩ :: ps, .cons (spells_iff.mpr ⟨hw, rfl⟩) hps, by simp [hvalues],
        by simp [hwidths]⟩
  · rintro ⟨ps, hps, rfl, -⟩
    exact List.forall₂_map_right_iff.mpr (hps.imp fun _ _ h => (spells_iff.mp h).1)

/-- **A literal is decoded** if it is written code point by code point. -/
theorem decode_eq_ok_iff_isWrittenAs {raw : List Char} {d : Decoded} :
    decode raw = .ok d ↔ d.IsWrittenAs raw := by
  rw [decode_eq_ok_iff]
  constructor
  · rintro ⟨ws, ps, hws, hraw, rfl⟩
    have hwidths : ps.map Piece.width = ws.map List.length := by
      rw [← List.forall₂_eq_eq_eq, List.forall₂_map_left_iff, List.forall₂_map_right_iff]
      exact hws.flip.imp fun _ _ h => h.length_eq.symm
    refine ⟨ws, exists_spells_iff.mpr ⟨ps, hws, rfl, hwidths⟩, hraw, ?_⟩
    rw [← hwidths]
    rfl
  · rintro ⟨ws, hws, hraw, hindex⟩
    obtain ⟨ps, hps, hvalues, hwidths⟩ := exists_spells_iff.mp hws
    refine ⟨ws, ps, hps, hraw, ?_⟩
    rw [Decoded.ofPieces, hvalues, hwidths, ← hindex]

/-- A literal that is not decoded is an error with a label of its own. -/
theorem compileLiteral_of_decode_error [Expression.Capacity]
    {strict : Bool} {token : Syntax.Token} {e : Invalid}
    (h : decode (token.text.drop 1).dropLast = .error e) :
    ∃ f, Descriptor.compileLiteral strict token = .error (.violation f) ∧
      f.problem = .invalidEscape (String.ofList e.escape) ∧
      f.problem.code.entry.label = "CE0101" ∧ f.problem.severity = .error := by
  unfold Descriptor.compileLiteral
  rw [h]
  exact ⟨_, rfl, rfl, rfl, rfl⟩

/-- **The literals that are decoded** are those that are written code point by code point, by the
documented escapes or by numerals in the place of their digits. All others are refused, with the
first escape that is neither. -/
theorem decode_written [Expression.Capacity] (raw : List Char) :
    (∀ d, decode raw = .ok d ↔ d.IsWrittenAs raw) ∧
      ((¬∃ d : Decoded, d.IsWrittenAs raw) → ∃ e, decode raw = .error e ∧
        ∀ strict (token : Syntax.Token), (token.text.drop 1).dropLast = raw →
          ∃ f, Descriptor.compileLiteral strict token = .error (.violation f) ∧
            f.problem = .invalidEscape (String.ofList e.escape) ∧
            f.problem.code.entry.label = "CE0101" ∧ f.problem.severity = .error) := by
  refine ⟨fun d => decode_eq_ok_iff_isWrittenAs, fun hnone => ?_⟩
  cases h : decode raw with
  | ok d => exact absurd ⟨d, decode_eq_ok_iff_isWrittenAs.mp h⟩ hnone
  | error e =>
    refine ⟨e, rfl, fun strict token htoken => ?_⟩
    rw [← htoken] at h
    exact compileLiteral_of_decode_error h

/-- A sign in the place of a digit. -/
theorem not_decode_documented :
    ¬∀ raw d, decode raw = .ok d →
      ∃ ws, List.Forall₂ Documented ws d.text ∧ ws.flatten = raw := by
  intro hall
  have hdecode : (decode ['\\', 'x', '+', '4']).toOption =
      some ⟨[.char (Char.ofNat 4)], [0, 4]⟩ := by decide +kernel
  obtain ⟨ws, htext, hraw⟩ := hall _ _ (Outcome.toOption_eq_some_iff.mp hdecode)
  obtain ⟨w, rest, hw, hrest, rfl⟩ := List.forall₂_cons_right_iff.mp htext
  obtain rfl := List.forall₂_nil_right_iff.mp hrest
  rw [List.flatten_singleton] at hraw
  subst hraw
  have hsign : asciiDigit? '+' = none := by decide
  cases hw with
  | numeric hkind hlength hdigits hvalue =>
    obtain ⟨d, ds, hd, -, -⟩ := List.forall₂_cons_left_iff.mp hdigits
    rw [hsign] at hd
    cases hd

end Errata.Escape
