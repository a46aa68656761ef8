import Errata.Proofs.Expression.Number
import Errata.Proofs.Expression.String
import Mathlib.Data.List.TakeWhile

/-!
# What the tokens of an expression say about its characters

The tokens of an expression end in the token that says why there are no more of them. If all of them
can be read up to the end of the expression, then its strings are ended and its brackets are closed:
reading its characters one by one comes to a place between tokens at which no bracket is open.

* `IsComplete`: tokens that can be read up to the end.
* `Leads`, `tokensFrom_step`: what one step of cutting says about the characters it takes away.
* **`exists_of_tokensFrom`**: an expression whose tokens are complete has no string or bracket that
  is left open.
-/

namespace Errata.Expression

open Place

/-- Whether a token is no fault and no bracket that is left open. -/
def Lexeme.isReadable : Lexeme → Bool
  | fault _ | deferredFault _ | unclosed _ _ => false
  | _ => true

/-- Whether tokens can be read up to the end of the expression. -/
def IsComplete : List Token → Prop
  | [] => True
  | t :: rest => t.lexeme = .atEnd ∨ (t.lexeme.isReadable = true ∧ IsComplete rest)

/-- The tokens after others that are not the end. -/
theorem IsComplete.of_append {front rest : List Token} (h : IsComplete (front ++ rest))
    (hfront : ∀ t ∈ front, t.lexeme ≠ .atEnd) : IsComplete rest := by
  induction front with
  | nil => exact h
  | cons t front ih =>
    rw [List.forall_mem_cons] at hfront
    exact ih ((h.resolve_left hfront.1).2) hfront.2

/-- The tokens after one that is not the end. -/
theorem IsComplete.of_cons {t : Token} {rest : List Token} (h : IsComplete (t :: rest))
    (ht : t.lexeme ≠ .atEnd) : IsComplete rest :=
  (h.resolve_left ht).2

/-- A text that is no token is not complete. -/
theorem not_isComplete_fault {s : Cursor} {reason : String} {rest : List Token} :
    ¬IsComplete (s.token (.fault reason) :: rest) := by
  simp [IsComplete, Cursor.token, Lexeme.isReadable]

/-- The tokens after one that may stand before them and is not the end. -/
theorem IsComplete.of_ite_cons {p : Prop} [Decidable p] {t : Token} {rest : List Token}
    (h : IsComplete (if p then rest else t :: rest)) (ht : t.lexeme ≠ .atEnd) :
    IsComplete rest := by
  split at h
  · exact h
  · exact h.of_cons ht

/-! ### Plain text -/

/-- The operators of several characters are plain. -/
theorem longOperators_plain :
    (longOperators.all fun operator =>
      operator.toList ≠ [] ∧ operator.toList.all fun c => c ∉ marks) = true := by
  decide

/-- Plain characters are passed over. -/
theorem passes_append {text : List Char} (h : ∀ c ∈ text, IsPlain c) (behind : List Char) :
    Passes (text ++ behind) behind := by
  induction text with
  | nil => exact .refl behind
  | cons c text ih =>
    rw [List.forall_mem_cons] at h
    exact .cons h.1 (ih h.2)

/-- Blanks between tokens are passed over. -/
theorem passes_skipBlanks (text : List Char) : Passes text (skipBlanks text) := by
  fun_induction skipBlanks text with
  | case1 => exact .refl []
  | case2 c rest hc ih => exact .cons (by rcases hc with rfl | rfl | rfl <;> decide) ih
  | case3 c rest hc => exact .refl _

/-- The blanks at the start of a line are passed over. -/
theorem passes_indentation (column continued : Nat) (text : List Char) :
    Passes text (indentation column continued text).2 := by
  fun_induction indentation column continued text with
  | case1 column continued rest ih => exact .cons (by decide) ih
  | case2 column continued rest ih => exact .cons (by decide) ih
  | case3 column continued rest ih => exact .cons (by decide) ih
  | case4 column continued rest ih => exact .continuation ih
  | case5 => exact .refl _

/-- The tokens by which a line starts are not the end. -/
theorem indentTokens_ne_atEnd (column : Nat) (s : Cursor) :
    ∀ t ∈ (indentTokens column s).1, t.lexeme ≠ .atEnd := by
  unfold indentTokens
  split
  · split <;> simp [Cursor.token]
  · split
    · simp [Cursor.token]
    · split
      · simp
      · dsimp only
        split
        · intro t ht
          obtain ⟨-, -, rfl⟩ := List.mem_map.mp ht
          simp [Cursor.token]
        · simp [Cursor.token]

/-! ### Steps -/

/-- Reading leads from the start of a text to what is behind a part of it, where it is between
tokens again and other brackets may be open. -/
def Leads (text : List Char) (brackets : List (Char × Nat)) (behind : List Char)
    (brackets' : List (Char × Nat)) : Prop :=
  ∃ passed region, text = passed ++ behind ∧ passed ≠ [] ∧ region.Settles behind ∧
    run ⟨.code, brackets.map Prod.fst⟩ passed = some ⟨region, brackets'.map Prod.fst⟩

section

variable {brackets brackets' : List (Char × Nat)}

/-- Blanks before a token do not matter. -/
theorem Leads.of_passes {text middle behind : List Char} (hp : Passes text middle)
    (h : Leads middle brackets behind brackets') : Leads text brackets behind brackets' := by
  obtain ⟨blanks, rfl, hblanks⟩ := hp
  obtain ⟨passed, region, rfl, hne, hsettles, hrun⟩ := h
  refine ⟨blanks ++ passed, region, (List.append_assoc _ _ _).symm, by simp [hne], hsettles, ?_⟩
  rw [run_append, hblanks]
  exact hrun

/-- Text that is passed over leads to what is behind it. -/
theorem leads_of_passes {text behind : List Char} (hp : Passes text behind) (hne : text ≠ behind) :
    Leads text brackets behind brackets := by
  obtain ⟨passed, rfl, hpassed⟩ := hp
  refine ⟨passed, .code, rfl, ?_, trivial, hpassed _⟩
  rintro rfl
  exact hne rfl

/-- A plain character and text that is passed over lead to what is behind them. -/
theorem leads_cons {c : Char} {after behind : List Char} (hc : IsPlain c)
    (hp : Passes after behind) : Leads (c :: after) brackets behind brackets := by
  refine leads_of_passes (.cons hc hp) fun heq => ?_
  have hlength := hp.length_le
  rw [← heq, List.length_cons] at hlength
  exact absurd hlength (Nat.not_succ_le_self _)

/-- The end of a line that is continued leads to the next line. -/
theorem leads_continuation (more : List Char) :
    Leads ('\\' :: '\n' :: more) brackets more brackets := by
  refine leads_of_passes (.continuation (.refl more)) fun heq => ?_
  have hlength := congrArg List.length heq
  simp only [List.length_cons] at hlength
  omega

/-- What is left behind a part that is taken away from the start of a text. -/
theorem drop_take_sub {text passed behind : List Char} (h : text = passed ++ behind) :
    text.drop (text.take (text.length - behind.length)).length = behind := by
  rw [h, List.length_append, Nat.add_sub_cancel, List.take_left, List.drop_left]

/-- What is left behind the characters with a property that a text starts with. -/
theorem drop_takeWhile (p : Char → Bool) (text : List Char) :
    text.drop (text.takeWhile p).length = text.dropWhile p := by
  induction text with
  | nil => rfl
  | cons c text ih =>
    rw [List.takeWhile_cons, List.dropWhile_cons]
    split
    · exact ih
    · rfl

/-- A comment leads to the end of its line. -/
theorem leads_comment (more : List Char) (hr : '\r' ∉ more) :
    Leads ('#' :: more) brackets (('#' :: more).dropWhile (· ≠ '\n')) brackets := by
  have hcomment : ∀ {text : List Char}, '\n' ∉ text → '\r' ∉ text →
      run ⟨.comment, brackets.map Prod.fst⟩ text = some ⟨.comment, brackets.map Prod.fst⟩ := by
    intro text hn hr
    induction text with
    | nil => rfl
    | cons c text ih =>
      simp only [List.mem_cons, not_or] at hn hr
      rw [run_inside (t := .comment) (by simp [Region.IsOutside])
        (by simp [Region.step, isNewline, Ne.symm hn.1, Ne.symm hr.1])]
      exact ih hn.2 hr.2
  refine ⟨'#' :: more.takeWhile (· ≠ '\n'), .comment, ?_, List.cons_ne_nil _ _, ?_, ?_⟩
  · rw [List.dropWhile_cons_of_pos (by decide), List.cons_append, List.takeWhile_append_dropWhile]
  · intro c hc
    rw [List.dropWhile_cons_of_pos (by decide)] at hc
    have hnot := List.head?_dropWhile_not (· ≠ '\n') more
    rw [hc] at hnot
    have hnewline : c = '\n' := by simpa using hnot
    rw [hnewline]
    decide
  · rw [run]
    show run ⟨.comment, _⟩ _ = _
    refine hcomment (fun hm => ?_) fun hm => hr (List.takeWhile_subset _ hm)
    simpa using List.mem_takeWhile_imp hm

/-- A string with its letters leads to what is behind its closing quotes. -/
theorem leads_string {letters text behind body : List Char} {quote : Char} {line : Nat}
    (hletters : ∀ c ∈ letters, IsPlain c) (hq : isQuote quote = true) (hr : '\r' ∉ text)
    (h : scanString line quote text = .ok (body, behind)) :
    Leads (letters ++ quote :: text) brackets behind brackets := by
  obtain ⟨passed, region, hsplit, hne, hsettles, hrun⟩ := exists_of_scanString hq hr h
  rw [hsplit]
  exact (Leads.of_passes (passes_append hletters _)
    ⟨passed, region, rfl, hne, hsettles, hrun _⟩)

/-- A number leads to what is behind it. -/
theorem leads_number {c : Char} {after behind : List Char}
    (hc : (Number.isDigit c || (c == '.' && after.head?.any Number.isDigit)) = true)
    (h : (if c = '.' then Number.fraction after else Number.scan c after) = .ok behind) :
    Leads (c :: after) brackets behind brackets := by
  have hplain : IsPlain c := by
    rcases Bool.or_eq_true_iff.mp hc with hdigit | hpoint
    · exact Number.isPlain_digit hdigit
    · obtain rfl : c = '.' := by simpa using (Bool.and_eq_true_iff.mp hpoint).1
      decide
  refine leads_cons hplain ?_
  split at h
  · exact Number.passes_fraction h
  · exact Number.passes_scan h

/-- A word leads to what is behind it. -/
theorem leads_word {c : Char} (hc : Number.isWordChar c = true) (after : List Char) :
    Leads (c :: after) brackets ((c :: after).dropWhile Number.isWordChar) brackets := by
  rw [List.dropWhile_cons_of_pos hc]
  have hplain : IsPlain c := isPlain_of (p := Number.isWordChar) (by decide) hc
  exact leads_cons hplain (.dropWhile (by decide) after)

/-- An operator of several characters leads to what is behind it. -/
theorem leads_longOperator {operator : String} {text : List Char}
    (h : longOperators.find? (fun operator => operator.toList.isPrefixOf text) = some operator) :
    Leads text brackets (text.drop operator.toList.length) brackets := by
  have hfront : operator.toList.isPrefixOf text = true := by simpa using List.find?_some h
  obtain ⟨more, rfl⟩ := List.isPrefixOf_iff_prefix.mp hfront
  have hplain := List.all_eq_true.mp longOperators_plain operator (List.mem_of_find?_eq_some h)
  simp only [decide_eq_true_eq, List.all_eq_true] at hplain
  rw [List.drop_left]
  refine leads_of_passes (passes_append (fun c hc => hplain.2 c hc) more) fun heq => hplain.1 ?_
  simpa using heq

/-- Any other character leads to what is behind it, and may open or close a bracket. -/
theorem leads_single {s : Cursor} {c : Char} {rest : List Char} {lexeme : Lexeme}
    (h : single s c = (lexeme, brackets')) (hl : ∀ reason, lexeme ≠ .fault reason)
    (hc : Region.outside c = .code) :
    Leads (c :: rest) s.brackets rest brackets' := by
  refine ⟨[c], .code, rfl, List.cons_ne_nil _ _, trivial, ?_⟩
  have hstep : step ⟨.code, s.brackets.map Prod.fst⟩ c =
      (nest (s.brackets.map Prod.fst) c).map (⟨.code, ·⟩) := by
    simp [step, Region.step, Region.IsOutside, hc]
  have hnest : nest (s.brackets.map Prod.fst) c = some (brackets'.map Prod.fst) := by
    unfold nest
    unfold single at h
    split at h
    · next closing hclosing =>
      rw [if_pos (by rw [hclosing]; rfl)]
      split at h
      · cases h
        exact absurd rfl (hl _)
      · cases h
        rfl
    · next hclosing =>
      rw [if_neg (by rw [hclosing]; decide)]
      split at h
      · next hcloser =>
        rw [if_pos hcloser]
        split at h
        · cases h
          exact absurd rfl (hl _)
        · next opening line outer hbrackets =>
          rw [hbrackets]
          split at h
          · next hmatch =>
            cases h
            simp [hmatch]
          · cases h
            exact absurd rfl (hl _)
      · next hcloser =>
        rw [if_neg hcloser]
        split at h
        · cases h
          rfl
        · cases h
          exact absurd rfl (hl _)
  rw [run, hstep, hnest]
  rfl

end

/-- The quote after the letters that a text starts with. -/
theorem eq_of_quoteAfter {text more : List Char} {quote : Char}
    (h : (match text.drop (text.takeWhile Number.isWordChar).length with
      | q :: more =>
        if (q = '"' ∨ q = '\'') ∧ isStringPrefix (text.takeWhile Number.isWordChar) then
          some (q, more)
        else none
      | [] => none) = some (quote, more)) :
    isQuote quote = true ∧ text = text.takeWhile Number.isWordChar ++ quote :: more := by
  rw [drop_takeWhile] at h
  split at h
  · next q rest hrest =>
    split at h
    · next hquote =>
      cases h
      refine ⟨by simpa [isQuote] using hquote.1, ?_⟩
      rw [← hrest, List.takeWhile_append_dropWhile]
    · cases h
  · cases h

/-- A string would start at a quote that a text starts with. -/
theorem isQuote_eq_false_of_quoteAfter {c : Char} {after : List Char}
    (h : (match (c :: after).drop ((c :: after).takeWhile Number.isWordChar).length with
      | q :: more =>
        if (q = '"' ∨ q = '\'') ∧ isStringPrefix ((c :: after).takeWhile Number.isWordChar) then
          some (q, more)
        else none
      | [] => none) = none) : isQuote c = false := by
  rw [Bool.eq_false_iff]
  intro hc
  have hquote : c = '"' ∨ c = '\'' := by simpa [isQuote] using hc
  have hword : Number.isWordChar c = false := by rcases hquote with rfl | rfl <;> decide
  rw [List.takeWhile_cons_of_neg (by simp [hword])] at h
  simp [hquote, isStringPrefix] at h

/-- A number is not the end of the expression. -/
theorem numberLexeme_ne_atEnd (text : List Char) : numberLexeme text ≠ .atEnd := by
  unfold numberLexeme
  split <;> simp

/-- A word is not the end. -/
theorem wordLexeme_ne_atEnd (word : List Char) : wordLexeme word ≠ .atEnd := by
  unfold wordLexeme
  dsimp only
  split
  · nofun
  · split <;> nofun

/-- An operator of one character is not the end. -/
theorem single_ne_atEnd {s : Cursor} {c : Char} {lexeme : Lexeme}
    {brackets : List (Char × Nat)} (h : single s c = (lexeme, brackets)) : lexeme ≠ .atEnd := by
  rintro rfl
  unfold single at h
  repeat' split at h
  all_goals cases h

/-! ### Cutting -/

/-- **A step of cutting**: there is nothing left but blanks, and no bracket is open, or the step
leads to another cursor, from which cutting goes on. -/
theorem tokensFrom_step {fuel : Nat} {atLineStart : Bool} {s : Cursor} (hr : '\r' ∉ s.rest)
    (h : IsComplete (tokensFrom (fuel + 1) atLineStart s)) :
    (Passes s.rest [] ∧ s.brackets = []) ∨
      ∃ again t, Leads s.rest s.brackets t.rest t.brackets ∧
        IsComplete (tokensFrom fuel again t) := by
  rw [tokensFrom] at h
  -- the blanks before the token
  have hblanks : Passes s.rest
      (if atLineStart then indentation 0 0 s.rest else (0, skipBlanks s.rest)).2 := by
    split
    · exact passes_indentation 0 0 s.rest
    · exact passes_skipBlanks s.rest
  generalize (if atLineStart then indentation 0 0 s.rest else (0, skipBlanks s.rest)) = gap
    at h hblanks
  obtain ⟨column, rest⟩ := gap
  dsimp only at h hblanks
  have hafter : (s.after (s.rest.take (s.rest.length - rest.length))).rest = rest :=
    drop_take_sub hblanks.choose_spec.1
  have hbrackets : (s.after (s.rest.take (s.rest.length - rest.length))).brackets = s.brackets :=
    rfl
  have hr' : '\r' ∉ rest := by
    obtain ⟨passed, hpassed, -⟩ := hblanks
    exact fun hm => hr (hpassed ▸ List.mem_append_right _ hm)
  generalize s.after (s.rest.take (s.rest.length - rest.length)) = m at h hafter hbrackets
  -- the tokens by which a line starts
  have hstarts (starts : Bool) : ∀ t ∈ (if starts = true then indentTokens column m
      else ([], m.indents)).1, t.lexeme ≠ .atEnd := by
    cases starts with
    | false => simp
    | true => exact indentTokens_ne_atEnd column m
  replace h := h.of_append (hstarts _)
  -- the token itself
  have hgo : ∀ {again : Bool} {t : Cursor}, Leads rest m.brackets t.rest t.brackets →
      IsComplete (tokensFrom fuel again t) → ∃ again t,
        Leads s.rest s.brackets t.rest t.brackets ∧ IsComplete (tokensFrom fuel again t) := by
    intro again t hleads hrest
    exact ⟨again, t, .of_passes hblanks (hbrackets ▸ hleads), hrest⟩
  split at h
  · -- the end
    left
    refine ⟨hblanks, ?_⟩
    rw [← hbrackets]
    cases hb : m.brackets with
    | nil => rfl
    | cons bracket more =>
      rw [hb] at h
      exact absurd h (by simp [IsComplete, Cursor.token, Lexeme.isReadable])
  · -- a comment
    next more =>
    refine Or.inr (hgo ?_ h)
    show Leads _ _ (m.rest.drop _) _
    rw [hafter, drop_takeWhile]
    exact leads_comment more fun hm => hr' (List.mem_cons_of_mem _ hm)
  · -- the end of a line
    next more =>
    have hleads : Leads ('\n' :: more) m.brackets (m.rest.drop 1) m.brackets := by
      rw [hafter]
      exact leads_cons (by decide) (.refl more)
    exact Or.inr (hgo hleads (h.of_ite_cons (by simp [Cursor.token])))
  · -- a line that is continued
    next more =>
    refine Or.inr (hgo ?_ h)
    show Leads _ _ (m.rest.drop 2) _
    rw [hafter]
    exact leads_continuation more
  · exact absurd h (by simp [IsComplete, Cursor.token, Lexeme.isReadable])
  · next c after hhash hline hcontinued hslash =>
    right
    split at h
    · -- a string
      next quote more hquote =>
      obtain ⟨hq, hsplit⟩ := eq_of_quoteAfter hquote
      have hmore : '\r' ∉ more := fun hm => hr' (by rw [hsplit]; simp [hm])
      split at h
      · exact absurd h not_isComplete_fault
      · next body behind hstring =>
        have hleads : Leads (c :: after) m.brackets behind m.brackets := by
          rw [hsplit]
          exact leads_string (fun d hd => isPlain_of (p := Number.isWordChar) (by decide)
            (List.mem_takeWhile_imp hd)) hq hmore hstring
        refine hgo ?_ (h.of_cons (by simp [Cursor.token]))
        show Leads _ _ (m.rest.drop _) _
        obtain ⟨passed, -, hpassed, -⟩ := id hleads
        rw [hafter, drop_take_sub hpassed]
        exact hleads
    · next hquote =>
      split at h
      · -- a number
        next hnumber =>
        split at h
        · exact absurd h not_isComplete_fault
        · next behind hbehind =>
          refine hgo ?_ (h.of_cons (numberLexeme_ne_atEnd _))
          show Leads _ _ behind _
          exact leads_number hnumber hbehind
      · next hnumber =>
        split at h
        · -- a word
          next hword =>
          split at h
          · exact absurd h not_isComplete_fault
          · next lexeme hlexeme =>
            refine hgo ?_ (h.of_cons (wordLexeme_ne_atEnd _))
            show Leads _ _ (m.rest.drop _) _
            rw [hafter, drop_takeWhile]
            exact leads_word hword after
        · next hword =>
          split at h
          · -- an operator of several characters
            next operator hoperator =>
            refine hgo ?_ (h.of_cons (by simp [Cursor.token]))
            show Leads _ _ (m.rest.drop _) _
            rw [hafter]
            exact leads_longOperator hoperator
          · -- an operator of one character
            next hoperator =>
            split at h
            · exact absurd h not_isComplete_fault
            · next lexeme brackets hlexeme hsingle =>
              refine hgo ?_ (h.of_cons (single_ne_atEnd hsingle))
              show Leads _ _ (m.rest.drop 1) _
              rw [hafter]
              refine leads_single hsingle (fun reason heq => hlexeme reason heq) ?_
              rw [Region.outside, if_neg hhash,
                if_neg (by simp [isQuote_eq_false_of_quoteAfter hquote]), if_neg hslash]

/-- Cutting a text whose tokens are complete leads to its end, where no bracket is open. -/
theorem exists_of_tokensFrom {fuel : Nat} {atLineStart : Bool} {s : Cursor} {region : Region}
    (hr : '\r' ∉ s.rest) (hsettles : region.Settles s.rest) (hfuel : s.rest.length < fuel)
    (h : IsComplete (tokensFrom fuel atLineStart s)) :
    ∃ last : Region, run ⟨region, s.brackets.map Prod.fst⟩ s.rest = some ⟨last, []⟩ ∧
      last.Settles [] := by
  induction fuel generalizing atLineStart s region with
  | zero => exact absurd hfuel (Nat.not_lt_zero _)
  | succ fuel ih =>
    rcases tokensFrom_step hr h with ⟨hpasses, hbrackets⟩ | ⟨again, t, hleads, hcomplete⟩
    · rw [hbrackets]
      cases hrest : s.rest with
      | nil => exact ⟨region, rfl, hrest ▸ hsettles⟩
      | cons c rest =>
        rw [hrest] at hsettles hpasses
        rw [run_settled hsettles, hpasses.run_eq]
        exact ⟨.code, rfl, trivial⟩
    · obtain ⟨passed, between, hsplit, hne, hbetween, hrun⟩ := hleads
      cases passed with
      | nil => exact absurd rfl hne
      | cons c passed =>
        have hshorter : t.rest.length < fuel := by
          rw [hsplit] at hfuel
          simp only [List.length_append, List.length_cons] at hfuel
          omega
        have hr' : '\r' ∉ t.rest := fun hm => hr (by rw [hsplit]; simp [hm])
        obtain ⟨last, hlast, hend⟩ := ih hr' hbetween hshorter hcomplete
        refine ⟨last, ?_, hend⟩
        rw [hsplit, List.cons_append] at hsettles ⊢
        rw [run_settled hsettles, ← List.cons_append, run_append, hrun]
        exact hlast

end Errata.Expression
