import Errata.Proofs.Expression.Newline
import Errata.Proofs.Syntax.Spelling

/-!
# Lines of words

A line in which there are only words, dots, commas and blanks is cut at these: a word is one token,
be it a name or a keyword, a comma is one, and so are three dots or else a single one.

* `Lexes`: what such a line is cut into.
* `wordLexeme_of_isName`: what a word is.
* `tokensFrom_blank`, `tokensFrom_word`, `tokensFrom_operator`: the first step of cutting.
* **`lexemes_of_lexes`**: the tokens of such a line.
-/

namespace Errata.Expression

open Syntax (IsName isNameChar isNameStart isNameChar_of_isNameStart)

/-- What a line of words, dots, commas and blanks is cut into. -/
inductive Lexes : List Char → List Lexeme → Prop where
  /-- A line has an end. -/
  | nil : Lexes [] [.atEnd]
  /-- A blank makes no token. -/
  | blank {text : List Char} {lexemes : List Lexeme} (h : Lexes text lexemes) :
    Lexes (' ' :: text) lexemes
  /-- A word makes a token if it does not go on behind it. -/
  | word {word text : List Char} {lexemes : List Lexeme} (hword : IsName word)
      (hnext : ∀ c ∈ text.head?, Number.isWordChar c = false ∧ isQuote c = false)
      (h : Lexes text lexemes) : Lexes (word ++ text) (wordLexeme word :: lexemes)
  /-- A comma makes a token. -/
  | comma {text : List Char} {lexemes : List Lexeme} (h : Lexes text lexemes) :
    Lexes (',' :: text) (.op "," :: lexemes)
  /-- A dot makes a token if it is no part of a number or of three dots. -/
  | point {text : List Char} {lexemes : List Lexeme}
      (hnext : text.head?.any Number.isDigit = false)
      (hpoints : ['.', '.'].isPrefixOf text = false) (h : Lexes text lexemes) :
    Lexes ('.' :: text) (.op "." :: lexemes)
  /-- Three dots make a token. -/
  | points {text : List Char} {lexemes : List Lexeme} (h : Lexes text lexemes) :
    Lexes ('.' :: '.' :: '.' :: text) (.op "..." :: lexemes)

/-! ### Words -/

/-- What may stand in a name may stand in a word. -/
theorem isWordChar_of_isNameChar {c : Char} (h : isNameChar c = true) :
    Number.isWordChar c = true :=
  Syntax.forall_isNameChar (P := fun c => Number.isWordChar c = true) (by decide) h

/-- A name starts neither a number nor a string. -/
theorem isDigit_of_isNameStart {c : Char} (h : isNameStart c = true) :
    Number.isDigit c = false ∧ c ≠ '.' :=
  Syntax.forall_isNameChar
    (P := fun c => isNameStart c = true → Number.isDigit c = false ∧ c ≠ '.') (by decide)
    (isNameChar_of_isNameStart h) h

/-- **What is spelled like a name is an identifier.** -/
theorem isIdentifier_of_isName {word : List Char} (hword : IsName word) :
    Unicode.isIdentifier word = true := by
  obtain ⟨first, rest, rfl, hfirst, hrest⟩ := hword
  rw [Unicode.isIdentifier, Bool.and_eq_true, List.all_eq_true]
  exact ⟨Syntax.forall_isNameChar
      (P := fun c => isNameStart c = true → Unicode.isIdentifierStart c = true) (by decide)
      (isNameChar_of_isNameStart hfirst) hfirst,
    fun c hc => Syntax.forall_isNameChar (P := fun c => Unicode.isIdentifierContinue c = true)
      (by decide) (hrest c hc)⟩

/-- **What a word is**: a keyword or a name. -/
theorem wordLexeme_of_isName {word : List Char} (hword : IsName word) :
    wordLexeme word =
      if isKeyword (String.ofList word) then .keyword (String.ofList word)
      else .name (String.ofList word) := by
  have hidentifier := isIdentifier_of_isName hword
  obtain ⟨first, rest, rfl, -, -⟩ := hword
  rw [Unicode.isIdentifier, Bool.and_eq_true, List.all_eq_true] at hidentifier
  obtain ⟨hstart, hcontinue⟩ := hidentifier
  have hnone : (rest.find? fun d => !Unicode.isIdentifierContinue d) = none := by
    apply List.find?_eq_none.mpr
    intro c hc
    simpa using hcontinue c hc
  rw [wordLexeme]
  simp only [hstart, if_true, hnone]

/-! ### Blanks -/

/-- Whether a character is no blank and starts neither a comment nor another line. -/
def OpensToken (c : Char) : Prop :=
  c ∉ [' ', '\t', '\x0c', '\\', '#', '\n']

instance (c : Char) : Decidable (OpensToken c) :=
  inferInstanceAs (Decidable (c ∉ _))

/-- There is no blank in front of a token, be it the first of its line or not. -/
theorem gap_eq {c : Char} (hc : OpensToken c) (after : List Char) (atLineStart : Bool) :
    (if atLineStart then indentation 0 0 (c :: after) else (0, skipBlanks (c :: after))) =
      (0, c :: after) := by
  simp only [OpensToken, List.mem_cons, List.not_mem_nil, or_false, not_or] at hc
  have hskip : skipBlanks (c :: after) = c :: after := by
    rw [skipBlanks, if_neg (by simp [hc])]
  have hindentation : indentation 0 0 (c :: after) = (0, c :: after) := by
    unfold indentation
    split <;> simp_all
  rw [hskip, hindentation, ite_self]

/-- A cursor that does not move. -/
theorem Cursor.after_nil (s : Cursor) : s.after [] = s := by
  simp [Cursor.after, lineEnds]

/-- A cursor that moves behind a part of its line. -/
theorem Cursor.after_append {taken text : List Char} (h : '\n' ∉ taken) (line : Nat) :
    (⟨taken ++ text, line, [], []⟩ : Cursor).after taken = ⟨text, line, [], []⟩ := by
  simp [Cursor.after, lineEnds, List.count_eq_zero.mpr h]

/-- A line that is not indented starts with no token for that. -/
theorem indentTokens_zero (rest : List Char) (line : Nat) :
    indentTokens 0 ⟨rest, line, [], []⟩ = ([], []) :=
  rfl

/-! ### Steps -/

section

variable {fuel line : Nat} {atLineStart : Bool} {text : List Char}

/-- A blank between tokens is passed over. -/
theorem tokensFrom_blank :
    tokensFrom (fuel + 1) false ⟨' ' :: text, line, [], []⟩ =
      tokensFrom (fuel + 1) false ⟨text, line, [], []⟩ := by
  have hskip : skipBlanks (' ' :: text) = skipBlanks text := by rw [skipBlanks, if_pos (by simp)]
  obtain ⟨passed, hpassed, -⟩ := passes_skipBlanks text
  have hcursor : (⟨' ' :: text, line, [], []⟩ : Cursor).after
      ((' ' :: text).take ((' ' :: text).length - (skipBlanks text).length)) =
        (⟨text, line, [], []⟩ : Cursor).after
          (text.take (text.length - (skipBlanks text).length)) := by
    have hlength := congrArg List.length hpassed
    rw [List.length_append] at hlength
    rw [List.length_cons, Nat.succ_sub (by omega), List.take_succ_cons]
    simp [Cursor.after, lineEnds]
  rw [tokensFrom, tokensFrom]
  simp only [Bool.false_eq_true, if_false, hskip, hcursor]

/-- The end is a token. -/
theorem tokensFrom_nil :
    tokensFrom (fuel + 1) false ⟨[], line, [], []⟩ = [⟨.atEnd, line, 0⟩] := by
  rw [tokensFrom]
  rfl

/-- **A word** that does not go on is the first token. -/
theorem tokensFrom_word {word : List Char} (hword : IsName word)
    (hnext : ∀ c ∈ text.head?, Number.isWordChar c = false ∧ isQuote c = false) :
    tokensFrom (fuel + 1) atLineStart ⟨word ++ text, line, [], []⟩ =
      ⟨wordLexeme word, line, 0⟩ :: tokensFrom fuel false ⟨text, line, [], []⟩ := by
  have htake : (word ++ text).takeWhile Number.isWordChar = word := by
    rw [List.takeWhile_append_of_pos fun c hc => isWordChar_of_isNameChar (hword.isNameChar c hc)]
    cases text with
    | nil => simp
    | cons c text =>
      rw [List.takeWhile_cons_of_neg (by simp [(hnext c rfl).1]), List.append_nil]
  have hafter : (⟨word ++ text, line, [], []⟩ : Cursor).after word = ⟨text, line, [], []⟩ :=
    Cursor.after_append (fun hm => absurd (hword.isNameChar _ hm) (by decide)) line
  have hfault : ∀ reason, wordLexeme word ≠ .fault reason := by
    intro reason
    rw [wordLexeme_of_isName hword]
    split <;> nofun
  obtain ⟨first, rest, rfl, hfirst, hrest⟩ := hword
  have hchar := isNameChar_of_isNameStart hfirst
  have hopens : OpensToken first :=
    Syntax.forall_isNameChar (P := OpensToken) (by decide) hchar
  have hstart : ¬(Number.isDigit first || (first == '.' &&
      (rest ++ text).head?.any Number.isDigit)) = true := by
    simp [isDigit_of_isNameStart hfirst]
  rw [List.cons_append] at htake hafter ⊢
  rw [tokensFrom]
  simp only [gap_eq hopens, Nat.sub_self, List.take_zero, Cursor.after_nil, indentTokens_zero,
    ite_self, List.nil_append]
  split
  · next heq => cases heq
  · next heq => exact absurd (List.cons.inj heq).1 fun h => absurd (h ▸ hopens) (by decide)
  · next heq => exact absurd (List.cons.inj heq).1 fun h => absurd (h ▸ hopens) (by decide)
  · next heq => exact absurd (List.cons.inj heq).1 fun h => absurd (h ▸ hopens) (by decide)
  · next heq => exact absurd (List.cons.inj heq).1 fun h => absurd (h ▸ hopens) (by decide)
  · next heq =>
    cases heq
    split
    · -- a quote behind the word would start a string
      next quote more hquote =>
      obtain ⟨hisquote, hsplit⟩ := eq_of_quoteAfter hquote
      rw [htake, List.cons_append, List.cons.injEq, List.append_cancel_left_eq] at hsplit
      rw [hsplit.2] at hnext
      exact absurd hisquote (by simp [(hnext quote rfl).2])
    · rw [if_neg hstart, if_pos (isWordChar_of_isNameChar hchar), htake]
      split
      · next reason hreason => exact absurd hreason (hfault reason)
      · rw [hafter]
        rfl

/-- No operator of several characters starts with a comma. -/
theorem find?_longOperators_comma (text : List Char) :
    (longOperators.find? fun operator => operator.toList.isPrefixOf (',' :: text)) = none :=
  rfl

/-- The only operator of several characters that starts with a dot has three of them. -/
theorem find?_longOperators_point (text : List Char) :
    (longOperators.find? fun operator => operator.toList.isPrefixOf ('.' :: text)) =
      if ['.', '.'].isPrefixOf text then some "..." else none := by
  cases h : ['.', '.'].isPrefixOf text <;> simp [longOperators, List.isPrefixOf, h]

/-- **An operator** is the first token if no word, string or number starts there: one of several
characters if there is one, or else a character that is one by itself. -/
theorem tokensFrom_operator {operator : String} {c : Char} {after : List Char}
    (hsplit : c :: after = operator.toList ++ text) (hopens : OpensToken c)
    (hword : Number.isWordChar c = false) (hquote : isQuote c = false)
    (hnumber : ¬(Number.isDigit c || (c == '.' && after.head?.any Number.isDigit)) = true)
    (hends : '\n' ∉ operator.toList)
    (hoperator : (longOperators.find? fun o => o.toList.isPrefixOf (c :: after)) = some operator ∨
      ((longOperators.find? fun o => o.toList.isPrefixOf (c :: after)) = none ∧
        single ⟨c :: after, line, [], []⟩ c = (.op operator, []) ∧ operator.toList = [c])) :
    tokensFrom (fuel + 1) atLineStart ⟨c :: after, line, [], []⟩ =
      ⟨.op operator, line, 0⟩ :: tokensFrom fuel false ⟨text, line, [], []⟩ := by
  have hafter : (⟨c :: after, line, [], []⟩ : Cursor).after operator.toList =
      ⟨text, line, [], []⟩ := by
    rw [hsplit]
    exact Cursor.after_append hends line
  rw [tokensFrom]
  simp only [gap_eq hopens, Nat.sub_self, List.take_zero, Cursor.after_nil, indentTokens_zero,
    ite_self, List.nil_append]
  split
  · next heq => cases heq
  · next heq => exact absurd (List.cons.inj heq).1 fun h => absurd (h ▸ hopens) (by decide)
  · next heq => exact absurd (List.cons.inj heq).1 fun h => absurd (h ▸ hopens) (by decide)
  · next heq => exact absurd (List.cons.inj heq).1 fun h => absurd (h ▸ hopens) (by decide)
  · next heq => exact absurd (List.cons.inj heq).1 fun h => absurd (h ▸ hopens) (by decide)
  · next heq =>
    cases heq
    split
    · next quote more hquoted =>
      obtain ⟨hisquote, hsplit⟩ := eq_of_quoteAfter hquoted
      rw [List.takeWhile_cons_of_neg (by simp [hword]), List.nil_append, List.cons.injEq] at hsplit
      rw [← hsplit.1, hquote] at hisquote
      cases hisquote
    · rw [if_neg hnumber, if_neg (by simp [hword])]
      rcases hoperator with hfound | ⟨hnone, hsingle, hchars⟩
      · rw [hfound]
        dsimp only
        rw [hafter]
        rfl
      · rw [hchars] at hafter
        rw [hnone]
        dsimp only
        rw [hsingle]
        dsimp only
        rw [hafter]
        rfl

/-- **A comma** is the first token. -/
theorem tokensFrom_comma :
    tokensFrom (fuel + 1) false ⟨',' :: text, line, [], []⟩ =
      ⟨.op ",", line, 0⟩ :: tokensFrom fuel false ⟨text, line, [], []⟩ :=
  tokensFrom_operator rfl (by decide) (by decide) (by decide) (by simp +decide) (by decide)
    (Or.inr ⟨find?_longOperators_comma text, rfl, rfl⟩)

/-- **A dot** is the first token if it is no part of a number or of three dots. -/
theorem tokensFrom_point (hnext : text.head?.any Number.isDigit = false)
    (hpoints : ['.', '.'].isPrefixOf text = false) :
    tokensFrom (fuel + 1) false ⟨'.' :: text, line, [], []⟩ =
      ⟨.op ".", line, 0⟩ :: tokensFrom fuel false ⟨text, line, [], []⟩ := by
  have hfind := find?_longOperators_point text
  rw [hpoints, if_neg Bool.false_ne_true] at hfind
  exact tokensFrom_operator rfl (by decide) (by decide) (by decide) (by simp +decide [hnext])
    (by decide) (Or.inr ⟨hfind, rfl, rfl⟩)

/-- **Three dots** are the first token. -/
theorem tokensFrom_points :
    tokensFrom (fuel + 1) false ⟨'.' :: '.' :: '.' :: text, line, [], []⟩ =
      ⟨.op "...", line, 0⟩ :: tokensFrom fuel false ⟨text, line, [], []⟩ := by
  have hfind := find?_longOperators_point ('.' :: '.' :: text)
  rw [if_pos (by simp)] at hfind
  exact tokensFrom_operator rfl (by decide) (by decide) (by decide) (by simp +decide) (by decide)
    (Or.inl hfind)

/-- A line of words has the tokens that it is cut into, from any place between tokens on. -/
theorem Lexes.lexemes_tokensFrom {lexemes : List Lexeme} (h : Lexes text lexemes)
    (hfuel : text.length < fuel) :
    (tokensFrom fuel false ⟨text, line, [], []⟩).map Token.lexeme = lexemes := by
  induction h generalizing fuel with
  | nil =>
    obtain ⟨fuel, rfl⟩ := Nat.exists_eq_succ_of_ne_zero (Nat.ne_zero_of_lt hfuel)
    rw [tokensFrom_nil]
    rfl
  | blank h ih =>
    obtain ⟨fuel, rfl⟩ := Nat.exists_eq_succ_of_ne_zero (Nat.ne_zero_of_lt hfuel)
    rw [tokensFrom_blank]
    exact ih (Nat.lt_of_succ_lt hfuel)
  | word hword hnext h ih =>
    obtain ⟨fuel, rfl⟩ := Nat.exists_eq_succ_of_ne_zero (Nat.ne_zero_of_lt hfuel)
    have hlength : 0 < _ := List.length_pos_of_ne_nil hword.ne_nil
    rw [List.length_append] at hfuel
    rw [tokensFrom_word hword hnext, List.map_cons, ih (by omega)]
  | comma h ih =>
    obtain ⟨fuel, rfl⟩ := Nat.exists_eq_succ_of_ne_zero (Nat.ne_zero_of_lt hfuel)
    rw [tokensFrom_comma, List.map_cons, ih (Nat.lt_of_succ_lt_succ hfuel)]
  | point hnext hpoints h ih =>
    obtain ⟨fuel, rfl⟩ := Nat.exists_eq_succ_of_ne_zero (Nat.ne_zero_of_lt hfuel)
    rw [tokensFrom_point hnext hpoints, List.map_cons, ih (Nat.lt_of_succ_lt_succ hfuel)]
  | points h ih =>
    obtain ⟨fuel, rfl⟩ := Nat.exists_eq_succ_of_ne_zero (Nat.ne_zero_of_lt hfuel)
    rw [tokensFrom_points, List.map_cons,
      ih (by simp only [List.length_cons] at hfuel; omega)]

/-- A line of words holds no carriage return. -/
theorem Lexes.return_notMem {lexemes : List Lexeme} (h : Lexes text lexemes) : '\r' ∉ text := by
  induction h with
  | word hword hnext h ih =>
    rw [List.mem_append, not_or]
    exact ⟨fun hm => absurd (hword.isNameChar _ hm) (by decide), ih⟩
  | _ => simp_all

/-- **A line that starts with a word** has the tokens that it is cut into. -/
theorem lexemes_of_lexes {word : List Char} {lexemes : List Lexeme} (hword : IsName word)
    (hnext : ∀ c ∈ text.head?, Number.isWordChar c = false ∧ isQuote c = false)
    (h : Lexes text lexemes) :
    (tokens (word ++ text)).map Token.lexeme = wordLexeme word :: lexemes := by
  have hnewlines := universalNewlines_eq_self_iff.mpr (h.word hword hnext).return_notMem
  have hlength := List.length_pos_of_ne_nil hword.ne_nil
  rw [tokens, hnewlines, tokensFrom_word hword hnext, List.map_cons, h.lexemes_tokensFrom]
  rw [List.length_append]
  omega

end

end Errata.Expression
