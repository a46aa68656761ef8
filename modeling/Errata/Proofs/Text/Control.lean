import Errata.Proofs.Text.Quoted
import Mathlib.Data.List.Basic

/-!
# Control characters

Numbers are written without control characters, and so are texts in quotation marks: whatever stands
in such a text, it is written by letters. The line feed is the control character that matters most,
since a text without one stands in one line.

* `IsControl`: the control characters.
* `notMem_repr`, `notMem_toString_int`, **`notMem_quoted`**: texts without them.
* `IsUnbroken`: texts without line feeds, and how they are put together.
-/

namespace Errata

/-- Whether a character is a control character: one before the blank. -/
def IsControl (x : Char) : Prop :=
  x.toNat < 32

instance (x : Char) : Decidable (IsControl x) :=
  Nat.decLt _ _

section

variable {x : Char} (hx : IsControl x)

include hx

/-- Wording without control characters. -/
theorem notMem_of_all {text : List Char} (h : text.all (32 ≤ ·.toNat) = true) :
    x ∉ (String.ofList text).toList := by
  intro hmem
  rw [String.toList_ofList] at hmem
  have hle : 32 ≤ x.toNat := by simpa using List.all_eq_true.mp h x hmem
  exact absurd hx (Nat.not_lt.mpr hle)

/-! ### Numbers -/

/-- Natural numbers are written without control characters. -/
theorem notMem_repr (n : Nat) : x ∉ n.repr.toList := by
  intro hmem
  rw [Nat.toList_repr] at hmem
  have hdigit := Nat.isDigit_of_mem_toDigits (by decide) (by decide) hmem
  simp only [Char.isDigit, ge_iff_le, Bool.and_eq_true, decide_eq_true_eq] at hdigit
  have hle : 48 ≤ x.toNat := hdigit.1
  exact absurd hx (Nat.not_lt.mpr (by omega))

/-- Numbers are written without control characters. -/
theorem notMem_toString_int (n : Int) : x ∉ (toString n).toList := by
  cases n with
  | ofNat m => exact notMem_repr hx m
  | negSucc m =>
    have hwritten : toString (Int.negSucc m) = "-" ++ m.succ.repr := rfl
    rw [hwritten, String.toList_append, List.mem_append]
    exact not_or.mpr ⟨notMem_of_all hx (by decide), notMem_repr hx m.succ⟩

/-! ### Texts in quotation marks -/

/-- A control character is not printable. -/
theorem isPrintable_of_isControl : Unicode.isPrintable x = false := by
  have hcontained : Unicode.unprintableRanges.contains x.toNat = true := by
    have hle : x.toNat ≤ 0x1F := Nat.le_of_lt_succ hx
    rw [Unicode.unprintableRanges, Unicode.Ranges.contains, if_pos hle]
    exact decide_eq_true (Nat.zero_le _)
  rw [Unicode.isPrintable, hcontained, Bool.not_true]

/-- A code point is written without control characters. -/
theorem notMem_encodeOne {delimiter : Char} (h : x ≠ delimiter) (c : CodePoint) :
    x ∉ Quoted.encodeOne delimiter c := by
  have hne : ∀ {d : Char}, 32 ≤ d.toNat → x ≠ d := by
    rintro d hd rfl
    exact absurd hx (Nat.not_lt.mpr hd)
  have hbackslash : x ≠ '\\' := hne (by decide)
  have hnumeric : ∀ n, x ∉ Quoted.numeric n := by
    have hdigits : ∀ count n, x ∉ Quoted.hexadecimal count n := by
      intro count n hmem
      have hdigit := List.all_eq_true.mp (Quoted.isHexDigit_hexadecimal count n) x hmem
      simp only [Expression.Literal.isHexDigit, Char.isDigit, Bool.or_eq_true, Bool.and_eq_true,
        decide_eq_true_eq] at hdigit
      have hle : 48 ≤ x.toNat := by
        rcases hdigit with (⟨hle, -⟩ | ⟨hle, -⟩) | ⟨hle, -⟩
        · exact hle
        · exact le_trans (by decide) hle
        · exact le_trans (by decide) hle
      exact absurd hx (Nat.not_lt.mpr (by omega))
    intro n
    unfold Quoted.numeric
    split_ifs
    · simp [hbackslash, hne (d := 'x') (by decide), hdigits]
    · simp [hbackslash, hne (d := 'u') (by decide), hdigits]
    · simp [hbackslash, hne (d := 'U') (by decide), hdigits]
  cases c with
  | surrogate offset => exact hnumeric _
  | char c =>
    simp only [Quoted.encodeOne]
    split_ifs with hspecial hn hr ht hprintable
    · have hc : x ≠ c := by
        rcases hspecial with rfl | rfl
        · exact h
        · exact hbackslash
      simp [hbackslash, hc]
    · simp [hbackslash, hne (d := 'n') (by decide)]
    · simp [hbackslash, hne (d := 'r') (by decide)]
    · simp [hbackslash, hne (d := 't') (by decide)]
    · rintro (_ | ⟨_, ⟨⟩⟩)
      exact absurd hprintable (by simp [isPrintable_of_isControl hx])
    · exact hnumeric _

/-- **A text in quotation marks** is written without control characters. -/
theorem notMem_quoted (text : Text) : x ∉ text.quoted.toList := by
  have hdelimiter : x ≠ Quoted.delimiter text := by
    rintro rfl
    rcases Quoted.delimiter_eq text with h | h
    · exact absurd (h ▸ hx) (by decide)
    · exact absurd (h ▸ hx) (by decide)
  rw [Text.quoted, String.toList_ofList, Quoted.encode]
  simp [hdelimiter, notMem_encodeOne hx hdelimiter]

end

/-! ### Texts in one line -/

/-- Whether a text stands in one line: there is no line feed in it. -/
def IsUnbroken (text : String) : Prop :=
  '\n' ∉ text.toList

instance (text : String) : Decidable (IsUnbroken text) :=
  inferInstanceAs (Decidable ('\n' ∉ text.toList))

/-- A text that is spelled by characters other than line feeds stands in one line. -/
theorem isUnbroken_ofList {text : List Char} (h : '\n' ∉ text) :
    IsUnbroken (String.ofList text) := by
  rwa [IsUnbroken, String.toList_ofList]

/-- Wording without control characters stands in one line. -/
theorem isUnbroken_of_all {text : List Char} (h : text.all (32 ≤ ·.toNat) = true) :
    IsUnbroken (String.ofList text) :=
  notMem_of_all (by decide) h

/-- Two texts, one after the other. -/
theorem isUnbroken_append_iff {a b : String} :
    IsUnbroken (a ++ b) ↔ IsUnbroken a ∧ IsUnbroken b := by
  rw [IsUnbroken, String.toList_append, List.mem_append, not_or]
  rfl

/-- Two texts in one line, one after the other. -/
theorem IsUnbroken.append {a b : String} (ha : IsUnbroken a) (hb : IsUnbroken b) :
    IsUnbroken (a ++ b) :=
  isUnbroken_append_iff.mpr ⟨ha, hb⟩

/-- A character other than the line feed. -/
theorem isUnbroken_singleton {c : Char} (h : c ≠ '\n') : IsUnbroken (String.singleton c) := by
  rw [String.singleton_eq_ofList]
  exact isUnbroken_ofList (by simpa using h.symm)

/-- A natural number stands in one line. -/
theorem isUnbroken_toString_nat (n : Nat) : IsUnbroken (toString n) :=
  notMem_repr (by decide) n

/-- A text in quotation marks stands in one line. -/
theorem isUnbroken_quoted (s : String) : IsUnbroken (quoted s) :=
  notMem_quoted (by decide) _

end Errata
