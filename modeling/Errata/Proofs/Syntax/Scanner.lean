import Errata.Syntax.Scanner

/-!
# What the scanner takes

A lexeme is taken off the front of the text and is never empty, and so are blanks and comments. Each
token therefore leaves less text than there was.

* `lexeme?_eq_some`: **a lexeme and the rest make up the text**, and the lexeme is not empty.
* `skipTrivia_suffix`: what is left after blanks and comments is the end of the text.
* `length_scan_lt`: **a token leaves less text** than there was before it.
-/

namespace Errata.Syntax

/-! ### Lexemes -/

/-- A run of characters and the rest make up the text. -/
theorem splitWhile_append (p : Char → Bool) (chars : List Char) :
    (splitWhile p chars).1 ++ (splitWhile p chars).2 = chars :=
  List.takeWhile_append_dropWhile

/-- A run that is not empty. -/
theorem spanNonempty_eq_some {p : Char → Bool} {chars taken rest : List Char}
    (h : spanNonempty p chars = some (taken, rest)) : chars = taken ++ rest ∧ taken ≠ [] := by
  unfold spanNonempty at h
  split at h
  · cases h
  · next hne =>
    cases h
    exact ⟨(splitWhile_append p chars).symm, hne⟩

/-- A fixed text and the rest make up the text. -/
theorem splitPrefix?_eq_some {fixed chars taken rest : List Char}
    (h : splitPrefix? fixed chars = some (taken, rest)) :
    chars = taken ++ rest ∧ taken = fixed := by
  induction fixed generalizing chars taken with
  | nil =>
    cases h
    exact ⟨rfl, rfl⟩
  | cons c fixed ih =>
    cases chars with
    | nil => cases h
    | cons d chars =>
      rw [splitPrefix?] at h
      split at h
      · next hc =>
        obtain ⟨⟨more, after⟩, hm, heq⟩ := Option.map_eq_some_iff.mp h
        cases heq
        obtain ⟨rfl, rfl⟩ := ih hm
        exact ⟨by rw [hc]; rfl, rfl⟩
      · cases h

/-- The body of a string literal and the rest make up the text. -/
theorem stringBody_eq_some {chars body rest : List Char}
    (h : stringBody chars = some (body, rest)) : chars = body ++ rest := by
  fun_induction stringBody chars generalizing body with
  | case1 => cases h
  | case2 =>
    cases h
    rfl
  | case3 => cases h
  | case4 c rest' _ ih =>
    obtain ⟨⟨more, after⟩, hm, heq⟩ := Option.map_eq_some_iff.mp h
    cases heq
    rw [ih hm]
    rfl
  | case5 => cases h
  | case6 c rest' _ _ _ ih =>
    obtain ⟨⟨more, after⟩, hm, heq⟩ := Option.map_eq_some_iff.mp h
    cases heq
    rw [ih hm]
    rfl

/-- No fixed text is empty. -/
theorem fixedText?_ne_nil {t : Terminal} {fixed : List Char} (h : t.fixedText? = some fixed) :
    fixed ≠ [] := by
  cases t <;> simp [Terminal.fixedText?] at h <;> simp [← h]

/-- The lexeme of a terminal with a single text is that text. -/
theorem lexeme?_of_fixedText? {t : Terminal} {fixed : List Char} (h : t.fixedText? = some fixed)
    (chars : List Char) : t.lexeme? chars = splitPrefix? fixed chars := by
  cases t <;> simp_all [Terminal.lexeme?, Terminal.fixedText?]

/-- What starts a name may stand in it. -/
theorem isNameChar_of_isNameStart {c : Char} (h : isNameStart c = true) : isNameChar c = true := by
  simp only [isNameStart, isNameChar, Char.isAlphanum, Bool.or_eq_true] at h ⊢
  exact h.imp_left Or.inl

/-- **A lexeme and the rest make up the text**, and the lexeme is not empty. -/
theorem lexeme?_eq_some {t : Terminal} {chars lexeme rest : List Char}
    (h : t.lexeme? chars = some (lexeme, rest)) : chars = lexeme ++ rest ∧ lexeme ≠ [] := by
  have hfixed : ∀ {t : Terminal} {fixed : List Char}, t.fixedText? = some fixed →
      t.lexeme? chars = some (lexeme, rest) → chars = lexeme ++ rest ∧ lexeme ≠ [] := by
    intro t fixed hf h
    rw [lexeme?_of_fixedText? hf] at h
    obtain ⟨heq, rfl⟩ := splitPrefix?_eq_some h
    exact ⟨heq, fixedText?_ne_nil hf⟩
  cases t with
  | name =>
    cases chars with
    | nil => cases h
    | cons c chars =>
      simp only [Terminal.lexeme?] at h
      split at h
      · next hc =>
        cases h
        refine ⟨(splitWhile_append isNameChar (c :: chars)).symm, ?_⟩
        simp [isNameChar_of_isNameStart hc]
      · cases h
  | string =>
    simp only [Terminal.lexeme?] at h
    split at h
    · obtain ⟨⟨body, after⟩, hb, heq⟩ := Option.map_eq_some_iff.mp h
      cases heq
      rw [stringBody_eq_some hb]
      exact ⟨rfl, List.cons_ne_nil _ _⟩
    · cases h
  | number => exact spanNonempty_eq_some h
  | relative => exact spanNonempty_eq_some h
  | _ => exact hfixed rfl h

/-! ### Blanks and comments -/

/-- What is left after blanks and comments is the end of the text. -/
theorem skipFrom_suffix (pending : Nat) (position : Position) (chars : List Char) :
    (skipFrom pending position chars).2 <:+ chars := by
  induction chars generalizing pending position with
  | nil => exact List.suffix_refl []
  | cons c chars ih =>
    have htail : chars <:+ c :: chars := List.suffix_cons c chars
    cases pending with
    | succ pending => exact (ih pending _).trans htail
    | zero =>
      rw [skipFrom]
      split
      · exact (ih _ _).trans htail
      · exact List.suffix_refl _

/-- What is left after blanks and comments is the end of the text. -/
theorem skipTrivia_suffix (position : Position) (chars : List Char) :
    (skipTrivia position chars).2 <:+ chars :=
  skipFrom_suffix 0 position chars

/-! ### Tokens -/

/-- The text of a token and the rest make up the text, and the token is not empty. -/
theorem firstToken_eq_some {accepted : List Terminal} {position : Position}
    {chars rest : List Char} {t : Token}
    (h : firstToken accepted position chars = some (t, rest)) :
    chars = t.text ++ rest ∧ t.text ≠ [] := by
  obtain ⟨before, terminal, after, -, hfound, -⟩ := List.findSome?_eq_some_iff.mp h
  obtain ⟨⟨lexeme, rest'⟩, hl, heq⟩ := Option.map_eq_some_iff.mp hfound
  cases heq
  exact lexeme?_eq_some hl

/-- **A token leaves less text** than there was before it. -/
theorem length_scan_lt {accepted : List Terminal} {position : Position} {chars rest : List Char}
    {t : Token} (h : scan accepted position chars = .token t rest) :
    rest.length < chars.length := by
  unfold scan at h
  split at h
  · cases h
  · next position' c after hskip =>
    have hsuffix := (skipTrivia_suffix position chars).length_le
    rw [hskip] at hsuffix
    simp only at hsuffix
    split at h
    · next t' rest' hfirst =>
      cases h
      obtain ⟨heq, hne⟩ := firstToken_eq_some hfirst
      have hlen := congrArg List.length heq
      have hpos := List.length_pos_iff.mpr hne
      rw [List.length_append] at hlen
      omega
    · split at h <;> cases h

end Errata.Syntax
