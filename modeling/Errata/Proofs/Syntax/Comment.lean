import Errata.Proofs.Syntax.Position

/-!
# Blanks and comments between tokens

A comment is skipped as a whole, whatever stands behind it, and so is a blank. A token ends before a
blank or a comment that follows it, since no character that goes on with a lexeme is a blank or a
slash; and no token starts with one. So the scanner finds the same tokens with blanks and comments
behind one of them.

* `IsComment`: a line comment with its line feed, or a block comment.
* `IsGap`: blanks and whole comments.
* **`skipTrivia_gap`**: a gap is skipped.
* `IsTail`: what may be skipped at the end of a text, and `scan_eq_atEnd_iff`: it is.
* `scan_gap`: what the scanner finds behind a gap.
* **`scan_of_append`**: a token is found if a blank or a comment is put somewhere behind it.
* `scan_token_at`, `scan_atEnd_at`: the scanner finds the same at another position.
-/

namespace Errata.Syntax

/-- A comment: one to the end of a line, with the line feed, or one up to its first closing mark. -/
inductive IsComment : List Char → Prop where
  /-- A line comment. -/
  | line {body : List Char} (h : '\n' ∉ body) : IsComment ('/' :: '/' :: (body ++ ['\n']))
  /-- A block comment. -/
  | block {body : List Char} (h : commentBody body = some (body, [])) :
    IsComment ('/' :: '*' :: body)

/-- Blanks and whole comments, one behind the other. -/
inductive IsGap : List Char → Prop where
  /-- Nothing. -/
  | nil : IsGap []
  /-- A blank, and more. -/
  | blank {c : Char} {rest : List Char} (hc : isSpacing c = true) (h : IsGap rest) :
    IsGap (c :: rest)
  /-- A comment, and more. -/
  | comment {text rest : List Char} (hc : IsComment text) (h : IsGap rest) : IsGap (text ++ rest)

/-- A comment starts with a slash. -/
theorem IsComment.exists_cons {text : List Char} (h : IsComment text) :
    ∃ rest, text = '/' :: rest := by
  cases h <;> exact ⟨_, rfl⟩

/-! ### Skipping -/

/-- Characters that are known to be skipped are skipped. -/
theorem skipFrom_append (taken rest : List Char) (p : Position) :
    skipFrom taken.length p (taken ++ rest) = skipFrom 0 (p.advance taken) rest := by
  induction taken generalizing p with
  | nil => rfl
  | cons c taken ih => exact ih (p.next c)

/-- A run of blanks or a comment that a text starts with is skipped. -/
theorem skipFrom_of_trivia? {c : Char} {taken rest : List Char}
    (h : trivia? (c :: (taken ++ rest)) = some (c :: taken, rest)) (p : Position) :
    skipFrom 0 p (c :: (taken ++ rest)) = skipFrom 0 (p.advance (c :: taken)) rest := by
  rw [skipFrom, h]
  exact skipFrom_append taken rest (p.next c)

/-- A text that starts with no slash starts with a run of blanks at most. -/
theorem trivia?_of_ne_slash {c : Char} (hc : c ≠ '/') (rest : List Char) :
    trivia? (c :: rest) = spanNonempty isSpacing (c :: rest) := by
  unfold trivia?
  split
  · next heq => exact absurd (List.cons.inj heq).1 hc
  · next heq => exact absurd (List.cons.inj heq).1 hc
  · rfl

/-- A slash is no blank. -/
theorem ne_slash_of_isSpacing {c : Char} (hc : isSpacing c = true) : c ≠ '/' := by
  rintro rfl
  cases hc

/-- A blank starts a run of blanks. -/
theorem trivia?_of_isSpacing {c : Char} (hc : isSpacing c = true) (rest : List Char) :
    trivia? (c :: rest) = some (c :: rest.takeWhile isSpacing, rest.dropWhile isSpacing) := by
  rw [trivia?_of_ne_slash (ne_slash_of_isSpacing hc)]
  simp [spanNonempty, splitWhile, hc]

/-- It does not matter whether the blanks that a text starts with are known to be skipped. -/
theorem skipFrom_takeWhile_isSpacing (rest : List Char) (p : Position) :
    skipFrom (rest.takeWhile isSpacing).length p rest = skipFrom 0 p rest := by
  cases rest with
  | nil => rfl
  | cons c rest =>
    by_cases hc : isSpacing c = true
    · rw [List.takeWhile_cons_of_pos hc, List.length_cons, skipFrom, skipFrom,
        trivia?_of_isSpacing hc]
    · rw [List.takeWhile_cons_of_neg hc]
      rfl

/-- A blank is skipped. -/
theorem skipFrom_blank {c : Char} (hc : isSpacing c = true) (rest : List Char) (p : Position) :
    skipFrom 0 p (c :: rest) = skipFrom 0 (p.next c) rest := by
  rw [skipFrom, trivia?_of_isSpacing hc]
  exact skipFrom_takeWhile_isSpacing rest (p.next c)

/-- A comment ends at its first closing mark, whatever stands behind it. -/
theorem commentBody_append {chars body rest : List Char}
    (h : commentBody chars = some (body, rest)) (more : List Char) :
    commentBody (chars ++ more) = some (body, rest ++ more) := by
  fun_induction commentBody chars generalizing body with
  | case1 => cases h
  | case2 after =>
    cases h
    rfl
  | case3 c after hc ih =>
    obtain ⟨⟨inside, rest'⟩, hinside, heq⟩ := Option.map_eq_some_iff.mp h
    cases heq
    have happend := ih hinside
    rw [List.cons_append, commentBody]
    · rw [happend]
      rfl
    · intro rest' hstar hslash
      -- the mark would have been there before
      cases after with
      | nil => cases hinside
      | cons d after => exact hc after hstar (by rw [(List.cons.inj hslash).1])

/-- **A comment is skipped**, whatever stands behind it. -/
theorem skipFrom_comment {text : List Char} (h : IsComment text) (rest : List Char)
    (p : Position) : skipFrom 0 p (text ++ rest) = skipFrom 0 (p.advance text) rest := by
  cases h with
  | @line body hbody =>
    have htrivia : trivia? ('/' :: ('/' :: body ++ '\n' :: rest)) =
        some ('/' :: '/' :: body, '\n' :: rest) := by
      have htake : ∀ c ∈ body, (decide (c ≠ '\n')) = true := by
        intro c hc
        simpa using ne_of_mem_of_not_mem hc hbody
      simp only [trivia?, splitWhile, List.cons_append]
      rw [List.takeWhile_append_of_pos htake, List.dropWhile_append_of_pos htake]
      simp
    have htext : '/' :: '/' :: (body ++ ['\n']) ++ rest = '/' :: ('/' :: body ++ '\n' :: rest) := by
      simp
    rw [htext, skipFrom_of_trivia? htrivia p, skipFrom_blank (by decide)]
    congr 1
    exact (Position.advance_append p ('/' :: '/' :: body) ['\n']).symm
  | @block body hbody =>
    have htrivia : trivia? ('/' :: ('*' :: body ++ rest)) = some ('/' :: '*' :: body, rest) := by
      simp only [trivia?, List.cons_append]
      rw [commentBody_append hbody]
      rfl
    exact skipFrom_of_trivia? htrivia p

/-- **A gap is skipped**, whatever stands behind it. -/
theorem skipTrivia_gap {gap : List Char} (h : IsGap gap) (rest : List Char) (p : Position) :
    skipTrivia p (gap ++ rest) = skipTrivia (p.advance gap) rest := by
  unfold skipTrivia
  induction h generalizing p with
  | nil => rfl
  | @blank c more hc _ ih => exact (skipFrom_blank hc (more ++ rest) p).trans (ih (p.next c))
  | @comment text more hc _ ih =>
    rw [List.append_assoc, skipFrom_comment hc, ih, Position.advance_append]

/-- A gap behind a gap. -/
theorem IsGap.append {gap more : List Char} (h : IsGap gap) (hmore : IsGap more) :
    IsGap (gap ++ more) := by
  induction h with
  | nil => exact hmore
  | blank hc _ ih => exact .blank hc ih
  | comment hc _ ih =>
    rw [List.append_assoc]
    exact .comment hc ih

/-- A comment is a gap. -/
theorem IsComment.isGap {text : List Char} (h : IsComment text) : IsGap text := by
  rw [← List.append_nil text]
  exact .comment h .nil

/-- Where neither a blank nor a slash stands nothing is skipped. -/
theorem skipTrivia_of_ne {c : Char} (hblank : isSpacing c = false) (hslash : c ≠ '/')
    (rest : List Char) (p : Position) : skipTrivia p (c :: rest) = (p, c :: rest) := by
  rw [skipTrivia, skipFrom, trivia?_of_ne_slash hslash]
  simp [spanNonempty, hblank]

/-- The body of a block comment and the rest make up the text, and the body is one by itself. -/
theorem commentBody_eq_some {chars body rest : List Char}
    (h : commentBody chars = some (body, rest)) :
    chars = body ++ rest ∧ commentBody body = some (body, []) := by
  fun_induction commentBody chars generalizing body with
  | case1 => cases h
  | case2 after =>
    cases h
    exact ⟨rfl, rfl⟩
  | case3 c after hc ih =>
    obtain ⟨⟨inside, rest'⟩, hinside, heq⟩ := Option.map_eq_some_iff.mp h
    cases heq
    obtain ⟨rfl, hself⟩ := ih hinside
    refine ⟨rfl, ?_⟩
    rw [commentBody]
    · rw [hself]
      rfl
    · rintro more rfl rfl
      exact hc (more ++ rest) rfl rfl

/-- A line comment without a line feed takes all of the text. -/
theorem skipFrom_of_unended {body : List Char} (h : '\n' ∉ body) (p : Position) :
    skipFrom 0 p ('/' :: '/' :: body) = (p.advance ('/' :: '/' :: body), []) := by
  have hall : ∀ c ∈ body, decide (c ≠ '\n') = true := by
    intro c hc
    simpa using ne_of_mem_of_not_mem hc h
  have htrivia : trivia? ('/' :: ('/' :: body ++ [])) = some ('/' :: '/' :: body, []) := by
    simp only [trivia?, splitWhile, List.append_nil]
    rw [List.takeWhile_eq_self_iff.mpr hall, List.dropWhile_eq_nil_iff.mpr hall]
  have hskip := skipFrom_of_trivia? htrivia p
  rw [List.append_nil] at hskip
  exact hskip

/-- What may be skipped at the end of a text: a gap, and then a line comment that is not ended. -/
inductive IsTail : List Char → Prop where
  /-- A gap. -/
  | gap {gap : List Char} (h : IsGap gap) : IsTail gap
  /-- A gap, and a line comment without its line feed. -/
  | unended {gap body : List Char} (h : IsGap gap) (hbody : '\n' ∉ body) :
    IsTail (gap ++ '/' :: '/' :: body)

/-- A tail behind a gap. -/
theorem IsGap.append_tail {gap tail : List Char} (h : IsGap gap) (htail : IsTail tail) :
    IsTail (gap ++ tail) := by
  cases htail with
  | gap hmore => exact .gap (h.append hmore)
  | unended hmore hbody =>
    rw [← List.append_assoc]
    exact .unended (h.append hmore) hbody

/-- What a text starts with: nothing that is skipped, a gap, or a line comment that is not ended. -/
theorem exists_first_trivia (chars : List Char) :
    trivia? chars = none ∨
      (∃ first more, first ≠ [] ∧ IsGap first ∧ chars = first ++ more) ∨
        ∃ body, '\n' ∉ body ∧ chars = '/' :: '/' :: body := by
  have hcomment : ∀ {text more : List Char}, IsComment text → chars = text ++ more →
      ∃ first more, first ≠ [] ∧ IsGap first ∧ chars = first ++ more := by
    intro text more htext heq
    obtain ⟨inside, rfl⟩ := htext.exists_cons
    exact ⟨_, more, List.cons_ne_nil _ _, htext.isGap, heq⟩
  cases htrivia : trivia? chars with
  | none => exact Or.inl rfl
  | some found =>
    refine Or.inr ?_
    unfold trivia? at htrivia
    split at htrivia
    · next body =>
      by_cases hline : '\n' ∈ body
      · obtain ⟨line, more, rfl, hbefore⟩ := List.eq_append_cons_of_mem hline
        have hsplit : '/' :: '/' :: (line ++ '\n' :: more) =
            '/' :: '/' :: line ++ ['\n'] ++ more := by simp
        exact Or.inl (hcomment (.line hbefore) hsplit)
      · exact Or.inr ⟨body, hline, rfl⟩
    · next body =>
      obtain ⟨⟨inside, more⟩, hbody, -⟩ := Option.map_eq_some_iff.mp htrivia
      obtain ⟨rfl, hself⟩ := commentBody_eq_some hbody
      exact Or.inl (hcomment (.block hself) rfl)
    · cases chars with
      | nil => cases htrivia
      | cons c rest =>
        by_cases hblank : isSpacing c = true
        · exact Or.inl ⟨[c], rest, List.cons_ne_nil _ _, .blank hblank .nil, rfl⟩
        · rw [spanNonempty, List.takeWhile_cons_of_neg hblank, if_pos rfl] at htrivia
          cases htrivia

/-- A text that starts with nothing of the kind is left. -/
theorem skipFrom_of_none {chars : List Char} (h : trivia? chars = none) (p : Position) :
    skipFrom 0 p chars = (p, chars) := by
  cases chars with
  | nil => rfl
  | cons c rest => rw [skipFrom, h]

/-- **What is skipped** is a gap, or a tail behind which nothing is left. -/
theorem skipFrom_cases {chars left : List Char} {p q : Position}
    (h : skipFrom 0 p chars = (q, left)) :
    (∃ gap, IsGap gap ∧ chars = gap ++ left ∧ q = p.advance gap) ∨ left = [] ∧ IsTail chars := by
  induction hlength : chars.length using Nat.strong_induction_on generalizing chars p with
  | _ n ih =>
    subst hlength
    rcases exists_first_trivia chars with hnone | ⟨first, more, hne, hgap, rfl⟩ | ⟨body, hbody, rfl⟩
    · rw [skipFrom_of_none hnone] at h
      cases h
      exact Or.inl ⟨[], .nil, rfl, rfl⟩
    · have hshorter : more.length < (first ++ more).length := by
        have := List.length_pos_iff.mpr hne
        rw [List.length_append]
        omega
      have hmore : skipFrom 0 (p.advance first) more = (q, left) :=
        (skipTrivia_gap hgap more p).symm.trans h
      rcases ih _ hshorter hmore rfl with ⟨gap, hgaps, rfl, rfl⟩ | ⟨hleft, htail⟩
      · exact Or.inl ⟨first ++ gap, hgap.append hgaps, (List.append_assoc _ _ _).symm,
          (Position.advance_append _ _ _).symm⟩
      · exact Or.inr ⟨hleft, hgap.append_tail htail⟩
    · rw [skipFrom_of_unended hbody] at h
      cases h
      exact Or.inr ⟨rfl, .unended .nil hbody⟩

/-- **What is skipped before a character is a gap.** -/
theorem exists_gap_of_skipFrom {c : Char} {rest chars : List Char} {p q : Position}
    (h : skipFrom 0 p chars = (q, c :: rest)) :
    ∃ gap, IsGap gap ∧ chars = gap ++ c :: rest ∧ q = p.advance gap :=
  (skipFrom_cases h).resolve_right fun ⟨hnil, _⟩ => List.cons_ne_nil c rest hnil

/-- **A tail is skipped.** -/
theorem skipTrivia_tail {tail : List Char} (h : IsTail tail) (p : Position) :
    (skipTrivia p tail).2 = [] := by
  cases h with
  | gap hgap =>
    have hskip := skipTrivia_gap hgap [] p
    rw [List.append_nil] at hskip
    rw [hskip]
    rfl
  | unended hgap hbody =>
    rw [skipTrivia_gap hgap, skipTrivia, skipFrom_of_unended hbody]

/-! ### Lexemes in front of a gap -/

/-- Whether a gap can start with the character. -/
def isSeparator (c : Char) : Bool :=
  isSpacing c || c == '/'

/-- A gap is empty or starts with a separator. -/
theorem IsGap.eq_nil_or_cons {gap : List Char} (h : IsGap gap) :
    gap = [] ∨ ∃ c rest, gap = c :: rest ∧ isSeparator c = true := by
  cases h with
  | nil => exact Or.inl rfl
  | @blank c rest hc => exact Or.inr ⟨c, rest, rfl, by rw [isSeparator, hc, Bool.true_or]⟩
  | @comment text rest hc =>
    obtain ⟨more, rfl⟩ := hc.exists_cons
    exact Or.inr ⟨'/', more ++ rest, rfl, rfl⟩

/-- A tail is empty or starts with a separator. -/
theorem IsTail.eq_nil_or_cons {tail : List Char} (h : IsTail tail) :
    tail = [] ∨ ∃ s rest, tail = s :: rest ∧ isSeparator s = true := by
  cases h with
  | gap h => exact h.eq_nil_or_cons
  | @unended gap body h _ =>
    rcases h.eq_nil_or_cons with rfl | ⟨s, rest, rfl, hs⟩
    · exact Or.inr ⟨'/', '/' :: body, rfl, rfl⟩
    · exact Or.inr ⟨s, rest ++ '/' :: '/' :: body, rfl, hs⟩

/-- The separators, one by one. -/
theorem mem_of_isSeparator {c : Char} (hc : isSeparator c = true) :
    c ∈ [' ', '\t', '\x0c', '\r', '\n', '/'] := by
  simp [isSeparator, isSpacing] at hc
  simp only [List.mem_cons]
  tauto

/-- What holds of the separators, one by one. -/
theorem forall_isSeparator {P : Char → Prop}
    (h : ∀ c ∈ [' ', '\t', '\x0c', '\r', '\n', '/'], P c) {c : Char}
    (hc : isSeparator c = true) : P c :=
  h c (mem_of_isSeparator hc)

/-- No separator stands in a name. -/
theorem isNameChar_of_isSeparator {c : Char} (hc : isSeparator c = true) : isNameChar c = false :=
  forall_isSeparator (P := fun c => isNameChar c = false) (by simp [isNameChar]) hc

/-- A run of characters ends before a character of another kind that is put behind it. -/
theorem takeWhile_of_append {p : Char → Bool} {taken more after : List Char}
    (h : (taken ++ more ++ after).takeWhile p = taken) {c : Char} (hc : p c = false)
    (rest : List Char) : (taken ++ more ++ c :: rest).takeWhile p = taken := by
  have hall : ∀ d ∈ taken, p d = true := by
    intro d hd
    rw [← h] at hd
    exact List.mem_takeWhile_imp hd
  rw [List.append_assoc, List.takeWhile_append_of_pos hall] at h ⊢
  cases more with
  | nil => simp [hc]
  | cons d more =>
    cases hd : p d with
    | true => simp [hd] at h
    | false => simp [hd]

/-- A fixed text is found in front of any text. -/
theorem splitPrefix?_append (fixed rest : List Char) :
    splitPrefix? fixed (fixed ++ rest) = some (fixed, rest) := by
  induction fixed with
  | nil => rfl
  | cons c fixed ih =>
    rw [List.cons_append, splitPrefix?, if_pos rfl, ih]
    rfl

/-- A fixed text is not found if a text that starts with none of its characters is put in the place
of what follows. -/
theorem splitPrefix?_eq_none {fixed text after : List Char} {s : Char} (hs : s ∉ fixed)
    (h : splitPrefix? fixed (text ++ after) = none) (rest : List Char) :
    splitPrefix? fixed (text ++ s :: rest) = none := by
  induction fixed generalizing text with
  | nil => cases h
  | cons c fixed ih =>
    obtain ⟨hc, hs⟩ := not_or.mp (mt List.mem_cons.mpr hs)
    cases text with
    | nil => simp [splitPrefix?, Ne.symm hc]
    | cons d text =>
      simp only [List.cons_append, splitPrefix?] at h ⊢
      split
      · next hd =>
        rw [if_pos hd, Option.map_eq_none_iff] at h
        rw [ih hs h]
        rfl
      · rfl

/-- The body of a string literal is found in front of any text. -/
theorem stringBody_append {chars body rest : List Char} (h : stringBody chars = some (body, rest))
    (more : List Char) : stringBody (body ++ more) = some (body, more) := by
  fun_induction stringBody chars generalizing body with
  | case1 => cases h
  | case2 =>
    cases h
    rfl
  | case3 => cases h
  | case4 c after hc ih =>
    obtain ⟨⟨inside, rest'⟩, hinside, heq⟩ := Option.map_eq_some_iff.mp h
    cases heq
    rw [List.cons_append, List.cons_append, stringBody, if_neg hc, ih hinside]
    rfl
  | case5 => cases h
  | case6 c after hquote hescape hc ih =>
    obtain ⟨⟨inside, rest'⟩, hinside, heq⟩ := Option.map_eq_some_iff.mp h
    cases heq
    rw [List.cons_append, stringBody, if_neg hc, ih hinside]
    · rfl
    · exact hquote
    · rintro d _ rfl
      exact absurd (Or.inr rfl) hc

/-- No fixed text holds a separator. -/
theorem separator_notMem_fixedText? {t : Terminal} {fixed : List Char}
    (h : t.fixedText? = some fixed) {s : Char} (hs : isSeparator s = true) : s ∉ fixed := by
  refine forall_isSeparator (P := (· ∉ fixed)) ?_ hs
  cases t <;> simp [Terminal.fixedText?] at h <;> subst h <;> simp

section

variable {s : Char} (hs : isSeparator s = true)

include hs

/-- **A lexeme is found** if a text that starts with a separator is put in the place of what stands
behind it. -/
theorem lexeme?_of_append {t : Terminal} {lexeme more after : List Char}
    (h : t.lexeme? (lexeme ++ more ++ after) = some (lexeme, more ++ after)) (rest : List Char) :
    t.lexeme? (lexeme ++ more ++ s :: rest) = some (lexeme, more ++ s :: rest) := by
  have hrun : ∀ {p : Char → Bool}, p s = false →
      splitWhile p (lexeme ++ more ++ after) = (lexeme, more ++ after) →
      splitWhile p (lexeme ++ more ++ s :: rest) = (lexeme, more ++ s :: rest) := by
    intro p hp h
    have htaken := takeWhile_of_append (congrArg Prod.fst h) hp rest
    have hboth := splitWhile_append p (lexeme ++ more ++ s :: rest)
    rw [show (splitWhile p (lexeme ++ more ++ s :: rest)).1 = lexeme from htaken] at hboth
    exact Prod.ext htaken (List.append_cancel_left (hboth.trans (List.append_assoc _ _ _)))
  have hspan : ∀ {p : Char → Bool}, p s = false →
      spanNonempty p (lexeme ++ more ++ after) = some (lexeme, more ++ after) →
      spanNonempty p (lexeme ++ more ++ s :: rest) = some (lexeme, more ++ s :: rest) := by
    intro p hp h
    have hne := (spanNonempty_eq_some h).2
    unfold spanNonempty at h
    split at h
    · cases h
    · have hsplit := hrun hp (Option.some.inj h)
      have htaken : (lexeme ++ more ++ s :: rest).takeWhile p = lexeme := congrArg Prod.fst hsplit
      rw [spanNonempty, htaken, if_neg hne, hsplit]
  have hne := (lexeme?_eq_some h).2
  cases hf : t.fixedText? with
  | some fixed =>
    rw [lexeme?_of_fixedText? hf] at h ⊢
    obtain ⟨-, rfl⟩ := splitPrefix?_eq_some h
    rw [List.append_assoc]
    exact splitPrefix?_append lexeme _
  | none =>
    cases t with
    | name =>
      obtain ⟨c, inside, rfl⟩ := List.exists_cons_of_ne_nil hne
      simp only [Terminal.lexeme?, List.cons_append] at h ⊢
      split at h
      · next hc =>
        rw [if_pos hc]
        exact congrArg some (hrun (isNameChar_of_isSeparator hs) (Option.some.inj h))
      · cases h
    | string =>
      obtain ⟨c, inside, rfl⟩ := List.exists_cons_of_ne_nil hne
      simp only [Terminal.lexeme?, List.cons_append] at h ⊢
      split at h
      · next chars heq =>
        obtain ⟨rfl, rfl⟩ := List.cons.inj heq
        obtain ⟨⟨body, rest'⟩, hbody, heq⟩ := Option.map_eq_some_iff.mp h
        cases heq
        have hfound := stringBody_append hbody (more ++ s :: rest)
        rw [← List.append_assoc] at hfound
        exact Option.map_eq_some_iff.mpr ⟨_, hfound, rfl⟩
      · cases h
    | number =>
      exact hspan (forall_isSeparator (P := fun c => ('0' ≤ c && c ≤ '9') = false) (by simp) hs) h
    | relative =>
      exact hspan (forall_isSeparator (P := fun c => (c == '.') = false) (by simp) hs) h
    | _ => cases hf

/-- **A lexeme that is not found** is not found either if a text that starts with a separator is put
in the place of what follows the first character; a string literal may be closed in it. -/
theorem lexeme?_eq_none {t : Terminal} {c : Char} {more after : List Char}
    (h : t.lexeme? (c :: more ++ after) = none) (hquote : t = .string → c ≠ '"')
    (rest : List Char) : t.lexeme? (c :: more ++ s :: rest) = none := by
  have hspan : ∀ {p : Char → Bool}, spanNonempty p (c :: more ++ after) = none →
      spanNonempty p (c :: more ++ s :: rest) = none := by
    intro p h
    by_cases hc : p c = true <;> simp_all [spanNonempty]
  cases hf : t.fixedText? with
  | some fixed =>
    rw [lexeme?_of_fixedText? hf] at h ⊢
    exact splitPrefix?_eq_none (separator_notMem_fixedText? hf hs) h rest
  | none =>
    cases t with
    | name =>
      simp only [Terminal.lexeme?, List.cons_append] at h ⊢
      split at h
      · cases h
      · next hc => rw [if_neg hc]
    | string =>
      simp only [Terminal.lexeme?, List.cons_append]
      split
      · next heq => exact absurd (List.cons.inj heq).1 (hquote rfl)
      · rfl
    | number => exact hspan h
    | relative => exact hspan h
    | _ => cases hf

end

/-- A quotation mark starts a string literal, and no other lexeme. -/
theorem eq_string_of_quote {t : Terminal} {rest lexeme after : List Char}
    (h : t.lexeme? ('"' :: rest) = some (lexeme, after)) : t = .string := by
  cases t <;> first | rfl | exact absurd h (by simp [Terminal.lexeme?, Terminal.fixedText?,
    splitPrefix?, spanNonempty, isNameStart])

/-- A lexeme starts with no separator. -/
theorem isSeparator_of_lexeme? {t : Terminal} {c : Char} {rest lexeme after : List Char}
    (h : t.lexeme? (c :: rest) = some (lexeme, after)) : isSeparator c = false := by
  rw [← Bool.not_eq_true]
  intro hc
  have hnone : t.lexeme? (c :: rest) = none := by
    refine forall_isSeparator (P := fun d => t.lexeme? (d :: rest) = none) (fun d hd => ?_) hc
    simp only [List.mem_cons, List.not_mem_nil, or_false] at hd
    rcases hd with rfl | rfl | rfl | rfl | rfl | rfl <;>
      cases t <;> simp [Terminal.lexeme?, Terminal.fixedText?, splitPrefix?, spanNonempty,
        isNameStart]
  cases h.symm.trans hnone

/-! ### Tokens -/

variable {accepted : List Terminal} {p : Position} {t : Token}

/-- A token is found at any position. -/
theorem firstToken_at {chars rest : List Char}
    (h : firstToken accepted p chars = some (t, rest)) (q : Position) :
    firstToken accepted q chars = some (⟨t.terminal, t.text, q, q.advance t.text⟩, rest) := by
  obtain ⟨before, terminal, after, hsplit, hfound, hnone⟩ := List.findSome?_eq_some_iff.mp h
  obtain ⟨⟨lexeme, rest'⟩, hlexeme, heq⟩ := Option.map_eq_some_iff.mp hfound
  cases heq
  refine List.findSome?_eq_some_iff.mpr ⟨before, terminal, after, hsplit, ?_, ?_⟩
  · rw [hlexeme]
    rfl
  · intro s hs
    rw [Option.map_eq_none_iff]
    exact Option.map_eq_none_iff.mp (hnone s hs)

/-- **A token is found** if a text that starts with a separator is put in the place of what stands
behind it. -/
theorem firstToken_of_append {more after : List Char}
    (h : firstToken accepted p (t.text ++ more ++ after) = some (t, more ++ after)) {c : Char}
    (hc : isSeparator c = true) (rest : List Char) :
    firstToken accepted p (t.text ++ more ++ c :: rest) = some (t, more ++ c :: rest) := by
  obtain ⟨before, terminal, others, hsplit, hfound, hnone⟩ := List.findSome?_eq_some_iff.mp h
  obtain ⟨⟨lexeme, rest'⟩, hlexeme, heq⟩ := Option.map_eq_some_iff.mp hfound
  obtain ⟨rfl, rfl⟩ := Prod.mk.inj heq
  obtain ⟨-, hne⟩ := lexeme?_eq_some hlexeme
  obtain ⟨first, inside, hlexeme'⟩ := List.exists_cons_of_ne_nil hne
  refine List.findSome?_eq_some_iff.mpr ⟨before, terminal, others, hsplit, ?_, ?_⟩
  · rw [lexeme?_of_append hc hlexeme]
    rfl
  · intro s hs
    have hs' := Option.map_eq_none_iff.mp (hnone s hs)
    dsimp only at hs' hlexeme ⊢
    rw [hlexeme', List.cons_append] at hs' hlexeme ⊢
    rw [lexeme?_eq_none hc hs' ?_ rest, Option.map_none]
    rintro rfl rfl
    rw [eq_string_of_quote hlexeme] at hlexeme
    cases hs'.symm.trans hlexeme

/-- **What the scanner finds**: a token behind a gap. -/
theorem scan_eq_token_iff {chars rest : List Char} :
    scan accepted p chars = .token t rest ↔
      ∃ gap, IsGap gap ∧ chars = gap ++ (t.text ++ rest) ∧
        firstToken accepted (p.advance gap) (t.text ++ rest) = some (t, rest) := by
  constructor
  · intro h
    unfold scan at h
    split at h
    · cases h
    · next q c more hskip =>
      obtain ⟨gap, hgap, rfl, rfl⟩ := exists_gap_of_skipFrom hskip
      split at h
      · next hfirst =>
        cases h
        have htext := (firstToken_eq_some hfirst).1
        rw [htext] at hfirst
        exact ⟨gap, hgap, by rw [htext], hfirst⟩
      · split at h <;> cases h
  · rintro ⟨gap, hgap, rfl, hfirst⟩
    obtain ⟨c, inside, htext⟩ := List.exists_cons_of_ne_nil (firstToken_eq_some hfirst).2
    obtain ⟨_, terminal, _, -, hfound, -⟩ := List.findSome?_eq_some_iff.mp hfirst
    obtain ⟨⟨lexeme, rest'⟩, hlexeme, -⟩ := Option.map_eq_some_iff.mp hfound
    rw [htext] at hlexeme
    obtain ⟨hblank, hslash⟩ := Bool.or_eq_false_iff.mp (isSeparator_of_lexeme? hlexeme)
    have hslash : c ≠ '/' := by simpa using hslash
    rw [scan, skipTrivia_gap hgap, htext, List.cons_append, skipTrivia_of_ne hblank hslash]
    dsimp only
    rw [← List.cons_append, ← htext, hfirst]

/-- Behind a gap the scanner finds what stands there. -/
theorem scan_gap {gap : List Char} (h : IsGap gap) (rest : List Char) :
    scan accepted p (gap ++ rest) = scan accepted (p.advance gap) rest := by
  rw [scan, scan, skipTrivia_gap h]

/-- **A token is found** if a text that starts with a separator is put somewhere behind it in the
place of what stands there. -/
theorem scan_of_append {front more after : List Char} {s : Char} (hs : isSeparator s = true)
    (h : scan accepted p (front ++ after) = .token t (more ++ after)) (rest : List Char) :
    scan accepted p (front ++ s :: rest) = .token t (more ++ s :: rest) := by
  obtain ⟨gap, hgap, heq, hfirst⟩ := scan_eq_token_iff.mp h
  have hfront : front = gap ++ (t.text ++ more) := by
    rw [← List.append_assoc, ← List.append_assoc] at heq
    simpa using List.append_cancel_right heq
  refine scan_eq_token_iff.mpr ⟨gap, hgap, by simp [hfront], ?_⟩
  rw [← List.append_assoc] at hfirst ⊢
  exact firstToken_of_append hfirst hs rest

/-- **What the scanner finds at the end**: nothing but a tail. -/
theorem scan_eq_atEnd_iff {chars : List Char} : scan accepted p chars = .atEnd ↔ IsTail chars := by
  constructor
  · intro h
    unfold scan at h
    split at h
    · next q hskip =>
      rcases skipFrom_cases hskip with ⟨gap, hgap, rfl, -⟩ | ⟨-, htail⟩
      · rw [List.append_nil]
        exact .gap hgap
      · exact htail
    · split at h
      · cases h
      · split at h <;> cases h
  · intro h
    rw [scan, ← Prod.eta (skipTrivia p chars), skipTrivia_tail h]

/-- A token is found at any position. -/
theorem scan_token_at {chars rest : List Char} (h : scan accepted p chars = .token t rest)
    (q : Position) :
    ∃ gap, chars = gap ++ (t.text ++ rest) ∧
      t.extent = ⟨p.advance gap, p.advance (gap ++ t.text)⟩ ∧
      scan accepted q chars =
        .token ⟨t.terminal, t.text, q.advance gap, q.advance (gap ++ t.text)⟩ rest := by
  obtain ⟨gap, hgap, heq, hfirst⟩ := scan_eq_token_iff.mp h
  refine ⟨gap, heq, ?_, scan_eq_token_iff.mpr ⟨gap, hgap, heq, ?_⟩⟩
  · rw [extent_of_firstToken hfirst, Position.advance_append]
  · rw [Position.advance_append]
    exact firstToken_at hfirst (q.advance gap)

/-- Nothing is found at any position if nothing but a tail is left. -/
theorem scan_atEnd_at {chars : List Char} (h : scan accepted p chars = .atEnd) (q : Position) :
    scan accepted q chars = .atEnd :=
  scan_eq_atEnd_iff.mpr (scan_eq_atEnd_iff.mp h)

end Errata.Syntax
