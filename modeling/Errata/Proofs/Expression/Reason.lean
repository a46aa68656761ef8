import Errata.Proofs.Expression.Recogniser
import Errata.Proofs.Text.Control

/-!
# Reasons in one line

The reason for which an expression is turned down stands in one line, even where the expression does
not.

* `FailsInLine`: steps that say in one line why they fail.
* `Number.failsInLine_scan`, `failsInLine_scanString`: numbers and strings.
* `Lexeme.SaysInLine`, **`saysInLine_tokens`**: what is said of a text that is no token.
* `Literal.isUnbroken_of_faultOfAll?`: what is said of string literals.
* `Pattern.isInLine`, **`Rule.isInLine_pattern`**: what the grammar complains of.
* `HaltsInLine`, **`attempt_haltsInLine`**: attempts that end early for a reason in one line.
* **`isUnbroken_of_check`**: the reason for which an expression is turned down.
-/

/-! ## What is said of texts that are no tokens

Where an expression holds a text that is no token, the reason is found while its tokens are. What
such a reason quotes of the expression is a character that is printed or a bracket, and it tells all
other characters by their numbers.
-/

namespace Errata.Expression

/-! ### Steps that may fail -/

/-- Whether a step says in one line why it fails, if it does. -/
def FailsInLine {α : Type} (x : Except String α) : Prop :=
  ∀ reason, x = .error reason → IsUnbroken reason

namespace FailsInLine

variable {α β : Type}

/-- A step that does not fail. -/
theorem ok (a : α) : FailsInLine (.ok a) := nofun

/-- A step that fails. -/
theorem error {reason : String} (h : IsUnbroken reason) :
    FailsInLine (.error reason : Except String α) := by
  rintro _ ⟨⟩
  exact h

/-- Two steps, one after the other. -/
theorem bind {x : Except String α} {f : α → Except String β} (hx : FailsInLine x)
    (hf : ∀ a, FailsInLine (f a)) : FailsInLine (x >>= f) := by
  cases x with
  | error reason => exact error (hx reason rfl)
  | ok a => exact hf a

end FailsInLine

/-! ### Numbers -/

namespace Number

/-- The fault of a number. -/
theorem isUnbroken_invalid {kind : String} (h : IsUnbroken kind) : IsUnbroken (invalid kind) :=
  (IsUnbroken.append (by decide) h).append (by decide)

/-- The fault of a decimal number. -/
theorem failsInLine_decimal {α : Type} :
    FailsInLine (.error (invalid "decimal") : Except String α) :=
  .error (isUnbroken_invalid (by decide))

/-- The end of a number. -/
theorem failsInLine_close {kind : String} (h : IsUnbroken kind) (text : List Char) :
    FailsInLine (close kind text) := by
  unfold close
  split
  · exact .ok _
  · split
    · exact .error (isUnbroken_invalid h)
    · exact .ok _

/-- The digits of a decimal number. -/
theorem failsInLine_decimalTail (text : List Char) : FailsInLine (decimalTail text) := by
  fun_induction decimalTail text with
  | case1 c rest hdigit ih => exact ih
  | case4 c rest hmark hlast hdigit ih => exact ih
  | case2 | case3 => exact failsInLine_decimal
  | case5 | case6 => exact .ok _

/-- The end of a number that may be imaginary. -/
theorem failsInLine_imaginary (text : List Char) : FailsInLine (imaginary text) := by
  unfold imaginary
  split
  · split
    · exact failsInLine_close (by decide) _
    · exact failsInLine_close (by decide) _
  · exact .ok _

/-- The digits of an exponent. -/
theorem failsInLine_exponentDigits (e : Char) (text : List Char) :
    FailsInLine (exponentDigits e text) := by
  have hdigits : ∀ rest, FailsInLine (decimalTail rest >>= imaginary) := fun rest =>
    (failsInLine_decimalTail rest).bind failsInLine_imaginary
  unfold exponentDigits
  split
  · split
    · split
      · split
        · exact hdigits _
        · exact failsInLine_decimal
      · exact failsInLine_decimal
    · split
      · exact hdigits _
      · exact failsInLine_close (by decide) _
  · exact failsInLine_close (by decide) _

/-- An exponent, if there is one. -/
theorem failsInLine_exponent (text : List Char) : FailsInLine (exponent text) := by
  unfold exponent
  split
  · split
    · exact failsInLine_exponentDigits _ _
    · exact failsInLine_imaginary _
  · exact .ok _

/-- A fraction. -/
theorem failsInLine_fraction (text : List Char) : FailsInLine (fraction text) := by
  unfold fraction
  split
  · split
    · exact (failsInLine_decimalTail _).bind failsInLine_exponent
    · exact failsInLine_exponent _
  · exact .ok _

/-- What follows a whole number. -/
theorem failsInLine_point (text : List Char) : FailsInLine (point text) := by
  unfold point
  split
  · exact failsInLine_fraction _
  · exact failsInLine_exponent _

/-- Zeros. -/
theorem failsInLine_zeros (text : List Char) : FailsInLine (zeros text) := by
  fun_induction zeros text with
  | case1 _ ih => exact ih
  | case5 _ ih => exact ih
  | case3 | case4 => exact failsInLine_decimal
  | case2 | case6 => exact .ok _

/-- What follows zeros. -/
theorem failsInLine_afterZeros (text : List Char) : FailsInLine (afterZeros text) := by
  unfold afterZeros
  split
  · split
    · refine (failsInLine_decimalTail _).bind fun rest => ?_
      split
      · exact failsInLine_point rest
      · exact .error (by decide)
    · exact failsInLine_point _
  · exact .ok _

/-- The digits of a number with a radix mark. -/
theorem failsInLine_radixTail {kind : String} (h : IsUnbroken kind) (isRadixDigit : Char → Bool)
    (expect : Expect) (text : List Char) :
    FailsInLine (radixTail kind isRadixDigit expect text) := by
  have hinvalid := isUnbroken_invalid h
  fun_induction radixTail kind isRadixDigit expect text with
  | case1 _ _ _ _ ih => exact ih
  | case2 _ _ _ _ _ ih => exact ih
  | case3 expect c rest _ _ hdigit =>
    have hc : c ≠ '\n' := by
      rintro rfl
      exact absurd hdigit (by decide)
    exact .error ((((IsUnbroken.append (by decide) (isUnbroken_singleton hc)).append
      (by decide)).append h).append (by decide))
  | case4 => exact failsInLine_close h _
  | case5 => exact .error hinvalid
  | case6 => exact .ok _
  | case7 => exact .error hinvalid

/-- A number. -/
theorem failsInLine_scan (c : Char) (rest : List Char) : FailsInLine (scan c rest) := by
  unfold scan
  split
  · split
    · split
      · exact failsInLine_radixTail (by decide) _ _ _
      · split
        · exact failsInLine_radixTail (by decide) _ _ _
        · split
          · exact failsInLine_radixTail (by decide) _ _ _
          · exact (failsInLine_zeros _).bind failsInLine_afterZeros
    · exact .ok _
  · exact (failsInLine_decimalTail _).bind failsInLine_point

end Number

/-! ### Words and strings -/

/-- The digits of a number to a base are among those of the base. -/
theorem forall_mem_toDigits {p : Char → Prop} {base : Nat} (hbase : 1 < base)
    (h : ∀ n < base, p (Nat.digitChar n)) (n : Nat) : ∀ c ∈ Nat.toDigits base n, p c := by
  induction n using Nat.strongRecOn with
  | ind n ih =>
    rcases Nat.lt_or_ge n base with hlt | hge
    · rw [Nat.toDigits_of_lt_base hlt, List.forall_mem_singleton]
      exact h n hlt
    · rw [Nat.toDigits_of_base_le hbase hge, List.forall_mem_append, List.forall_mem_singleton]
      exact ⟨ih _ (Nat.div_lt_self (by omega) hbase), h _ (Nat.mod_lt _ (by omega))⟩

/-- The name of a code point. -/
theorem isUnbroken_codePointName (c : Char) : IsUnbroken (codePointName c) := by
  have hdigits : ∀ d ∈ Nat.toDigits 16 c.toNat, d.toUpper ≠ '\n' :=
    forall_mem_toDigits (by decide) (by decide) _
  refine IsUnbroken.append (by decide) (isUnbroken_ofList ?_)
  rw [List.mem_append, not_or]
  refine ⟨fun hzero => absurd (List.eq_of_mem_replicate hzero) (by decide), fun hdigit => ?_⟩
  obtain ⟨d, hd, heq⟩ := List.mem_map.mp hdigit
  exact hdigits d hd heq

/-- A character that is printed does not end a line. -/
theorem ne_of_isPrintable {c : Char} (h : Unicode.isPrintable c = true) : c ≠ '\n' := by
  rintro rfl
  rw [isPrintable_of_isControl (by decide)] at h
  cases h

/-- What is said of a character that no name may hold. -/
theorem isUnbroken_strayCharacter (c : Char) : IsUnbroken (strayCharacter c) := by
  have hname := isUnbroken_codePointName c
  unfold strayCharacter
  split
  · next hprintable =>
    have hc := isUnbroken_singleton (ne_of_isPrintable hprintable)
    exact (((IsUnbroken.append (by decide) hc).append (by decide)).append hname).append (by decide)
  · exact IsUnbroken.append (by decide) hname

/-- A string that does not end. -/
theorem failsInLine_scanString (line : Nat) (quote : Char) (rest : List Char) :
    FailsInLine (scanString line quote rest) := by
  unfold scanString
  split
  · split
    · exact .ok _
    · exact .error ((IsUnbroken.append (by decide) (isUnbroken_toString_nat _)).append (by decide))
  · split
    · exact .ok _
    · exact .error ((IsUnbroken.append (by decide) (isUnbroken_toString_nat _)).append (by decide))

/-! ### Tokens -/

/-- Whether what is said of a text that is no token stands in one line. -/
def Lexeme.SaysInLine : Lexeme → Prop
  | fault reason | deferredFault reason => IsUnbroken reason
  | unclosed bracket _ => bracket ≠ '\n'
  | _ => True

/-- A number is a token. -/
theorem saysInLine_numberLexeme (text : List Char) : (numberLexeme text).SaysInLine := by
  unfold numberLexeme
  split <;> trivial

/-- What is said of a word. -/
theorem saysInLine_wordLexeme (word : List Char) : (wordLexeme word).SaysInLine := by
  unfold wordLexeme
  dsimp only
  split
  · exact isUnbroken_strayCharacter _
  · split
    · trivial
    · trivial

/-- Whether brackets that are open are characters in a line. -/
def AreInLine (brackets : List (Char × Nat)) : Prop :=
  ∀ b ∈ brackets, b.1 ≠ '\n'

/-- What is said of a single character, and the brackets that are open behind it. -/
theorem saysInLine_single {s : Cursor} {c : Char} {lexeme : Lexeme} {brackets : List (Char × Nat)}
    (h : single s c = (lexeme, brackets)) (hopen : AreInLine s.brackets) :
    lexeme.SaysInLine ∧ AreInLine brackets := by
  unfold single at h
  split at h
  · next d hopens =>
    split at h
    · cases h
      exact ⟨show IsUnbroken _ by decide, hopen⟩
    · cases h
      have hc : c ≠ '\n' := by
        rintro rfl
        cases hopens
      exact ⟨trivial, List.forall_mem_cons.mpr ⟨hc, hopen⟩⟩
  · split at h
    · next hcloses =>
      have hc : c ≠ '\n' := by
        rintro rfl
        exact absurd hcloses (by decide)
      have hquoted := isUnbroken_singleton hc
      split at h
      · cases h
        exact ⟨(IsUnbroken.append (by decide) hquoted).append (by decide), List.forall_mem_nil _⟩
      · next opening line outer hbrackets =>
        rw [hbrackets] at hopen
        obtain ⟨hopening, houter⟩ := List.forall_mem_cons.mp hopen
        have hmismatch := (((IsUnbroken.append (by decide : IsUnbroken "closing parenthesis '")
          hquoted).append (by decide : IsUnbroken "' does not match opening parenthesis '")).append
            (isUnbroken_singleton hopening)).append (by decide : IsUnbroken "'")
        split at h
        · cases h
          exact ⟨trivial, houter⟩
        · cases h
          refine ⟨?_, houter⟩
          show IsUnbroken (if _ then _ else _)
          split
          · exact hmismatch
          · exact (hmismatch.append (by decide)).append (isUnbroken_toString_nat line)
    · split at h
      · cases h
        exact ⟨trivial, hopen⟩
      · cases h
        exact ⟨IsUnbroken.append (by decide) (isUnbroken_codePointName c), hopen⟩

/-- What is said of the indentation of a line. -/
theorem saysInLine_indentTokens (column : Nat) (s : Cursor) :
    ∀ t ∈ (indentTokens column s).1, t.lexeme.SaysInLine := by
  unfold indentTokens
  split
  · split
    · exact List.forall_mem_singleton.mpr trivial
    · exact List.forall_mem_nil _
  · split
    · exact List.forall_mem_singleton.mpr trivial
    · split
      · exact List.forall_mem_nil _
      · dsimp only
        split
        · intro t ht
          obtain ⟨_, -, rfl⟩ := List.mem_map.mp ht
          trivial
        · exact List.forall_mem_singleton.mpr (show IsUnbroken _ by decide)

/-- What is said of the rest of an expression. -/
theorem saysInLine_tokensFrom (fuel : Nat) (atLineStart : Bool) {s : Cursor}
    (h : AreInLine s.brackets) : ∀ t ∈ tokensFrom fuel atLineStart s, t.lexeme.SaysInLine := by
  induction fuel generalizing atLineStart s with
  | zero => exact List.forall_mem_nil _
  | succ fuel ih =>
    rw [tokensFrom]
    generalize (if atLineStart then indentation 0 0 s.rest else (0, skipBlanks s.rest)) = gap
    obtain ⟨column, rest⟩ := gap
    dsimp only
    -- the blanks before a token leave the brackets as they are
    have hbrackets : AreInLine (s.after (s.rest.take (s.rest.length - rest.length))).brackets := h
    generalize s.after (s.rest.take (s.rest.length - rest.length)) = m at hbrackets
    have hstarts (starts : Bool) : ∀ t ∈ (if starts = true then indentTokens column m
        else ([], m.indents)).1, t.lexeme.SaysInLine := by
      cases starts with
      | false => exact List.forall_mem_nil _
      | true => exact saysInLine_indentTokens column m
    refine List.forall_mem_append.mpr ⟨hstarts _, ?_⟩
    split
    · -- the end
      split
      · exact List.forall_mem_singleton.mpr trivial
      · next bracket line outer hopen =>
        rw [hopen] at hbrackets
        exact List.forall_mem_singleton.mpr (List.forall_mem_cons.mp hbrackets).1
    · exact ih _ hbrackets
    · -- the end of a line
      dsimp only
      split
      · exact ih _ hbrackets
      · exact List.forall_mem_cons.mpr ⟨trivial, ih _ hbrackets⟩
    · exact ih _ hbrackets
    · exact List.forall_mem_singleton.mpr (show IsUnbroken _ by decide)
    · next c after _ _ _ _ =>
      split
      · -- a string
        split
        · next hfault =>
          exact List.forall_mem_singleton.mpr (failsInLine_scanString _ _ _ _ hfault)
        · exact List.forall_mem_cons.mpr ⟨trivial, ih _ hbrackets⟩
      · split
        · -- a number
          split
          · next hfault =>
            refine List.forall_mem_singleton.mpr ?_
            split at hfault
            · exact Number.failsInLine_fraction _ _ hfault
            · exact Number.failsInLine_scan _ _ _ hfault
          · exact List.forall_mem_cons.mpr ⟨saysInLine_numberLexeme _, ih _ hbrackets⟩
        · split
          · -- a word
            have hword := saysInLine_wordLexeme ((c :: after).takeWhile Number.isWordChar)
            split
            · next hfault => exact List.forall_mem_singleton.mpr (hfault ▸ hword)
            · exact List.forall_mem_cons.mpr ⟨hword, ih _ hbrackets⟩
          · -- an operator
            split
            · exact List.forall_mem_cons.mpr ⟨trivial, ih _ hbrackets⟩
            · split
              · next hfault =>
                exact List.forall_mem_singleton.mpr (saysInLine_single hfault hbrackets).1
              · next hsingle =>
                obtain ⟨hlexeme, hleft⟩ := saysInLine_single hsingle hbrackets
                exact List.forall_mem_cons.mpr ⟨hlexeme, ih _ hleft⟩

/-- **What is said of a text that is no token** stands in one line. -/
theorem saysInLine_tokens (expression : List Char) :
    ∀ t ∈ tokens expression, t.lexeme.SaysInLine :=
  saysInLine_tokensFrom _ _ (List.forall_mem_nil _)

end Errata.Expression

/-! ## What is said of expressions

An expression that is no expression is turned down with a reason: what is said of a text in it that
is no token, what a pattern of the grammar complains of, or a fixed text. Complaints are fixed
texts, too, apart from what they call a part of the expression. So the reason stands in one line.
-/

namespace Errata.Expression

/-! ### String literals -/

namespace Literal

/-- What is said of an escape that stands for nothing. -/
theorem isUnbroken_decodingFault (start stop : Nat) {what : String} (h : IsUnbroken what) :
    IsUnbroken (decodingFault start stop what) :=
  (((((IsUnbroken.append (by decide) (isUnbroken_toString_nat _)).append (by decide)).append
    (isUnbroken_toString_nat _)).append (by decide)).append h)

/-- What is said of the escapes in a string of characters. -/
theorem isUnbroken_of_escapeFault? {position : Nat} {body : List Char} {reason : String}
    (h : escapeFault? position body = some reason) : IsUnbroken reason := by
  fun_induction escapeFault? position body with
  | case1 position c rest count kind hneeded =>
    have hkind : IsUnbroken kind := by
      unfold digitsNeeded? at hneeded
      split at hneeded <;> cases hneeded <;> decide
    cases h
    exact isUnbroken_decodingFault _ _ ((IsUnbroken.append (by decide) hkind).append (by decide))
  | case2 | case4 =>
    cases h
    exact isUnbroken_decodingFault _ _ (by decide)
  | case3 _ _ _ _ _ _ _ _ _ ih => exact ih h
  | case5 _ _ _ _ _ ih => exact ih h
  | case6 _ _ _ _ ih => exact ih h
  | case7 => cases h

/-- What is said of the escapes in a string of bytes. -/
theorem isUnbroken_of_byteEscapeFault? {position : Nat} {body : List Char} {reason : String}
    (h : byteEscapeFault? position body = some reason) : IsUnbroken reason := by
  fun_induction byteEscapeFault? position body with
  | case1 =>
    cases h
    exact IsUnbroken.append (by decide) (isUnbroken_toString_nat _)
  | case2 _ _ _ _ ih => exact ih h
  | case3 _ _ _ _ ih => exact ih h
  | case4 => cases h

/-- What is said of a string literal. -/
theorem isUnbroken_of_fault? {letters body : List Char} {reason : String}
    (h : fault? letters body = some reason) : IsUnbroken reason := by
  unfold fault? at h
  split at h
  · split at h
    · cases h
      decide
    · split at h
      · cases h
      · exact isUnbroken_of_byteEscapeFault? h
  · split at h
    · cases h
      decide
    · split at h
      · cases h
      · exact isUnbroken_of_escapeFault? h

/-- What is said of string literals side by side. -/
theorem isUnbroken_of_faultOfAll? {strings : List (List Char × List Char)} {reason : String}
    (h : faultOfAll? strings = some reason) : IsUnbroken reason := by
  fun_induction faultOfAll? strings with
  | case1 => cases h
  | case2 _ _ _ _ hfault =>
    cases h
    exact isUnbroken_of_fault? hfault
  | case3 => cases h
  | case4 _ _ _ _ _ _ _ hfault =>
    cases h
    exact isUnbroken_of_fault? hfault
  | case5 =>
    cases h
    decide
  | case6 _ _ _ _ _ _ _ _ ih => exact ih h

end Literal

/-! ### Complaints -/

/-- Whether what a complaint quotes of a mistake stands in one line. -/
def Complaint.isInLine : Complaint → Bool
  | saying reason | inside reason | crowded reason => IsUnbroken reason
  | naming before after => IsUnbroken before && IsUnbroken after
  | invalidTarget => true

mutual

/-- Whether what a pattern complains of is said in one line. -/
def Pattern.isInLine : Pattern → Bool
  | .op _ | .word _ | .name | .oneOf _ | .number | .string | .strings | .newline | .atEnd
  | .rule _ => true
  | .seq patterns | .choice patterns => Pattern.areInLine patterns
  | .optional p | .many p | .ahead p | .notAhead p | .unless _ p | .node _ p | .again p | .quiet p
  | .holding _ p => p.isInLine
  | .chain first next => first.isInLine && next.isInLine
  | .complaint c p => c.isInLine && p.isInLine

/-- Whether what patterns complain of is said in one line. -/
def Pattern.areInLine : List Pattern → Bool
  | [] => true
  | p :: rest => p.isInLine && Pattern.areInLine rest

end

/-- **What the rules of the grammar complain of** is said in one line. -/
theorem Rule.isInLine_pattern (r : Rule) : r.pattern.isInLine = true := by
  cases r <;> decide +kernel

/-- What a part of an expression is called. -/
theorem Kind.isUnbroken_description (k : Kind) : IsUnbroken k.description := by
  cases k <;> decide

/-- What is said of a mistake. -/
theorem Complaint.isUnbroken_reason {c : Complaint} {inBrackets : Bool} {parts : List Node}
    {reason : String} (hc : c.isInLine = true) (h : c.reason? inBrackets parts = some reason) :
    IsUnbroken reason := by
  cases c with
  | saying =>
    cases h
    exact of_decide_eq_true hc
  | inside =>
    obtain ⟨-, h⟩ := Option.ite_none_right_eq_some.mp h
    cases h
    exact of_decide_eq_true hc
  | crowded =>
    obtain ⟨-, h⟩ := Option.ite_none_right_eq_some.mp h
    cases h
    exact of_decide_eq_true hc
  | naming before after =>
    obtain ⟨n, -, rfl⟩ := Option.map_eq_some_iff.mp h
    obtain ⟨hbefore, hafter⟩ := Bool.and_eq_true_iff.mp hc
    exact ((of_decide_eq_true hbefore).append n.kind.isUnbroken_description).append
      (of_decide_eq_true hafter)
  | invalidTarget =>
    obtain ⟨kind, -, rfl⟩ := Option.map_eq_some_iff.mp h
    exact IsUnbroken.append (by decide) kind.isUnbroken_description

/-! ### Attempts -/

/-- The reason for which an attempt ended. -/
def Halt.reason : Halt → String
  | atToken reason | complaint reason => reason

/-- Whether an attempt that ends early ends for a reason in one line. -/
def HaltsInLine {α : Type} (x : Attempt α) : Prop :=
  ∀ r halt, (x.run.run r).1 = .error halt → IsUnbroken halt.reason

namespace HaltsInLine

variable {α β : Type}

/-- A value that is handed on. -/
theorem pure (a : α) : HaltsInLine (Pure.pure a : Attempt α) :=
  fun _ _ => nofun

/-- A change of what is known of the tokens. -/
theorem modify (g : Reader → Reader) : HaltsInLine (modify g : Attempt PUnit) :=
  fun _ _ => nofun

/-- What is known of the tokens. -/
theorem get : HaltsInLine (get : Attempt Reader) :=
  fun _ _ => nofun

/-- An attempt that ends early. -/
theorem throw {halt : Halt} (h : IsUnbroken halt.reason) :
    HaltsInLine (MonadExcept.throw halt : Attempt α) := by
  rintro _ _ ⟨⟩
  exact h

/-- Two attempts, one after the other. -/
theorem bind {x : Attempt α} {f : α → Attempt β} (hx : HaltsInLine x)
    (hf : ∀ a, HaltsInLine (f a)) : HaltsInLine (x >>= f) := by
  intro r halt h
  have hfirst := hx r
  rw [Outcome.run_bind] at h
  generalize x.run.run r = made at h hfirst
  obtain ⟨e | a, r'⟩ := made
  · cases h
    exact hfirst halt rfl
  · exact hf a r' halt h

/-- A result that is changed afterwards. -/
theorem map {x : Attempt α} (hx : HaltsInLine x) (g : α → β) :
    HaltsInLine (x >>= fun a => Pure.pure (g a)) :=
  hx.bind fun _ => pure _

end HaltsInLine

/-- The reason that a bracket is not closed. -/
theorem isUnbroken_neverClosed {bracket : Char} (h : bracket ≠ '\n') :
    IsUnbroken (neverClosed bracket) :=
  (IsUnbroken.append (by decide) (isUnbroken_singleton h)).append (by decide)

/-- What is said of a number with too many digits. -/
theorem isUnbroken_tooManyDigits (digits : Nat) : IsUnbroken (tooManyDigits digits) :=
  (((((IsUnbroken.append (by decide) (isUnbroken_toString_nat _)).append (by decide)).append
    (isUnbroken_toString_nat _)).append (by decide)).append (by decide))

section

variable {tokens : Array Token} (htokens : ∀ t ∈ tokens.toList, t.lexeme.SaysInLine)

include htokens

/-- Looking at a token. -/
theorem look_haltsInLine (i : Nat) : HaltsInLine (look tokens i) := by
  unfold look
  refine (HaltsInLine.modify _).bind fun _ => ?_
  cases htoken : tokens[i]? with
  | none => exact .pure _
  | some t =>
    have hlexeme := htokens t (Array.mem_toList_iff.mpr (Array.mem_of_getElem? htoken))
    dsimp only
    split
    · next hfault => exact .throw (by rwa [hfault] at hlexeme)
    · next hfault => exact .throw (by rwa [hfault] at hlexeme)
    · next hunclosed => exact .throw (isUnbroken_neverClosed (by rwa [hunclosed] at hlexeme))
    · exact .pure _

/-- A match of one token. -/
theorem oneToken_haltsInLine (i : Nat) (p : Lexeme → Bool) : HaltsInLine (oneToken tokens i p) :=
  (look_haltsInLine htokens i).map _

/-- A match of a number. -/
theorem oneNumber_haltsInLine (i : Nat) : HaltsInLine (oneNumber tokens i) := by
  refine (look_haltsInLine htokens i).bind fun lexeme => ?_
  split
  · exact .pure _
  · exact .throw (isUnbroken_tooManyDigits _)
  · exact .pure _

/-- A match of strings side by side. -/
theorem allStrings_haltsInLine (i : Nat) : HaltsInLine (allStrings tokens i) := by
  have hlook : ∀ j, HaltsInLine (discard (look tokens j)) := fun j =>
    (look_haltsInLine htokens j).map _
  unfold allStrings
  dsimp only
  refine (hlook i).bind fun _ => ?_
  split
  · exact .pure _
  · refine (hlook _).bind fun _ => ?_
    split
    · next hfault => exact .throw (Literal.isUnbroken_of_faultOfAll? hfault)
    · exact .pure _

/-- **An attempt that ends early** ends for a reason in one line. -/
theorem attempt_haltsInLine (fuel : Nat) (again : Bool) (i : Nat) {p : Pattern}
    (h : p.isInLine = true) : HaltsInLine (attempt tokens fuel again i p) := by
  induction fuel generalizing again i p with
  | zero => exact .pure _
  | succ fuel ih =>
    cases p with
    | op text => exact oneToken_haltsInLine htokens _ _
    | word text => exact oneToken_haltsInLine htokens _ _
    | name => exact oneToken_haltsInLine htokens _ _
    | oneOf names => exact oneToken_haltsInLine htokens _ _
    | number => exact oneNumber_haltsInLine htokens _
    | string => exact oneToken_haltsInLine htokens _ _
    | strings => exact allStrings_haltsInLine htokens _
    | newline => exact oneToken_haltsInLine htokens _ _
    | atEnd => exact oneToken_haltsInLine htokens _ _
    | rule r =>
      simp only [attempt]
      refine HaltsInLine.get.bind fun s => ?_
      split
      · exact .pure _
      · refine (ih again i r.isInLine_pattern).bind fun _ => ?_
        split
        · exact (HaltsInLine.modify _).bind fun _ => .pure _
        · exact .pure _
    | seq patterns =>
      cases patterns with
      | nil => exact .pure _
      | cons p rest =>
        obtain ⟨hp, hrest⟩ := Bool.and_eq_true_iff.mp h
        refine (ih again i hp).bind fun first => ?_
        split
        · refine (ih again _ (p := .seq rest) hrest).bind fun more => ?_
          split
          · exact .pure _
          · exact .pure _
        · exact .pure _
    | choice patterns =>
      cases patterns with
      | nil => exact .pure _
      | cons p rest =>
        obtain ⟨hp, hrest⟩ := Bool.and_eq_true_iff.mp h
        refine (ih again i hp).bind fun found => ?_
        split
        · exact .pure _
        · exact ih again i (p := .choice rest) hrest
    | optional p => exact (ih again i (p := p) h).map _
    | many p =>
      refine (ih again i (p := p) h).bind fun first => ?_
      split
      · refine (ih again _ (p := .many p) h).bind fun more => ?_
        split
        · exact .pure _
        · exact .pure _
      · exact .pure _
    | chain first next =>
      obtain ⟨hfirst, hnext⟩ := Bool.and_eq_true_iff.mp h
      refine (ih again i hfirst).bind fun start => ?_
      split
      · refine (ih again _ (p := .many next) hnext).bind fun more => ?_
        split
        · exact .pure _
        · exact .pure _
      · exact .pure _
    | ahead p => exact (ih again i (p := p) h).map _
    | notAhead p =>
      refine (ih again i (p := p) h).bind fun found => ?_
      split
      · exact .pure _
      · exact .pure _
    | «unless» names p =>
      refine (ih again i (p := p) h).bind fun found => ?_
      split
      · refine (look_haltsInLine htokens i).bind fun _ => ?_
        split
        · exact .pure _
        · exact .pure _
      · exact .pure _
    | node kind p => exact (ih again i (p := p) h).map _
    | again p =>
      simp only [attempt]
      split
      · exact ih true i h
      · exact .pure _
    | quiet p => exact ih false i h
    | holding kind p => exact (ih again i (p := p) h).map _
    | complaint c p =>
      obtain ⟨hc, hp⟩ := Bool.and_eq_true_iff.mp h
      refine (ih again i hp).bind fun found => ?_
      split
      · split
        · next hreason => exact .throw (Complaint.isUnbroken_reason hc hreason)
        · exact .pure _
      · exact .pure _

/-! ### Whole expressions -/

/-- The reason after the rest of the tokens has been looked at. -/
theorem isUnbroken_reasonAfter (seen : Nat) {reason : String} (h : IsUnbroken reason) :
    IsUnbroken (reasonAfter tokens seen reason) := by
  unfold reasonAfter
  dsimp only
  generalize hdecisive : ((tokens.toList.drop seen).findSome? _ : Option String) = decisive
  cases decisive with
  | none => exact h
  | some found =>
    obtain ⟨t, ht, hfound⟩ := List.exists_of_findSome?_eq_some hdecisive
    have hlexeme := htokens t (List.mem_of_mem_drop ht)
    split at hfound
    · next hfault =>
      cases hfound
      rwa [hfault] at hlexeme
    · next hunclosed =>
      obtain ⟨-, hfound⟩ := Option.ite_none_right_eq_some.mp hfound
      cases hfound
      exact isUnbroken_neverClosed (by rwa [hunclosed] at hlexeme)
    · cases hfound

/-- The reason if a pattern complains. -/
theorem isUnbroken_complaintReason (seen : Nat) {reason : String} (h : IsUnbroken reason) :
    IsUnbroken (complaintReason tokens seen reason) := by
  unfold complaintReason
  split
  · exact h
  · exact isUnbroken_reasonAfter htokens seen h

/-- The reason if no pattern complains. -/
theorem isUnbroken_plainReason (seen : Nat) (last : Option Token) :
    IsUnbroken (plainReason tokens seen last) := by
  unfold plainReason
  split
  · decide
  · decide
  · exact isUnbroken_reasonAfter htokens seen (by decide)

/-- The attempt to match the whole input ends early for a reason in one line. -/
theorem isUnbroken_of_finish {again : Bool} {r r' : Reader} {halt : Halt}
    (h : finish tokens again r = (.error halt, r')) : IsUnbroken halt.reason :=
  attempt_haltsInLine htokens (depthBound tokens.size) again 0 (p := .rule .input) rfl r halt
    (congrArg Prod.fst h)

/-- The reason for which tokens are not those of an expression. -/
theorem failsInLine_recognise : FailsInLine (recognise tokens) := by
  unfold recognise
  split
  · next hfinish => exact .error (isUnbroken_of_finish htokens hfinish)
  · next hfinish =>
    exact .error (isUnbroken_complaintReason htokens _ (isUnbroken_of_finish htokens hfinish))
  · exact .ok _
  · dsimp only
    split
    · next hfinish => exact .error (isUnbroken_of_finish htokens hfinish)
    · next hfinish =>
      exact .error (isUnbroken_complaintReason htokens _ (isUnbroken_of_finish htokens hfinish))
    · exact .error (isUnbroken_plainReason htokens _ _)

end

/-- The name of a kind of nodes that no message may hold. -/
theorem Kind.isUnbroken_of_forbidden? {k : Kind} {name : String} (h : k.forbidden? = some name) :
    IsUnbroken name := by
  unfold Kind.forbidden? at h
  split at h <;> cases h <;> decide

/-- **The reason for which an expression is turned down** stands in one line. -/
theorem isUnbroken_of_check [Expression.Capacity]
    {expression : Text} {fault : Fault} {reason : String}
    (h : check expression = .error fault) (hreason : fault.reason? = some reason) :
    IsUnbroken reason := by
  unfold check at h
  split at h
  · cases h
    cases hreason
  · dsimp only at h
    split at h
    · cases h
      cases hreason
    · split at h
      · cases h
        cases hreason
      · split at h
        · next hrecognise =>
          cases h
          cases hreason
          exact failsInLine_recognise (saysInLine_tokens _) _ hrecognise
        · split at h
          · next kind hforbidden =>
            cases h
            cases hreason
            obtain ⟨n, -, hn⟩ := List.exists_of_findSome?_eq_some hforbidden
            obtain ⟨m, -, hm⟩ := List.exists_of_findSome?_eq_some hn
            exact (Kind.isUnbroken_of_forbidden? hm).append (by decide)
          · cases h

end Errata.Expression
