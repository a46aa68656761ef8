import Errata.Proofs.Syntax.Keyword
import Errata.Proofs.Syntax.Spelling
import Errata.Proofs.Text.Joined

/-!
# Types that are read again

A type is kept as a text in one line. If that text is scanned for the terminals of types, the tokens
of the type are found again, each of them in one line. But a line comment goes on to the end of the
text then, since the line feed behind it has become a blank.

* `retold`: the tokens that are found in the text of a type.
* `IsInline`: blanks and block comments.
* `IsRow`: tokens that follow one another in a source, with what stands between them.
* **`IsRow.retold`**: the tokens that are found again, up to the first line comment.
-/

namespace Errata.Syntax

/-! ### Scanning for types -/

/-- The terminals of types. -/
def typeTerminals : List Terminal :=
  [.name, .string, .ellipsis, .comma, .dot, .leftBracket, .rightBracket, .bar]

/-- The tokens that are found in the text of a type: their terminals and their texts. There are none
if something else is found. -/
def retold (text : List Char) : Option (List (Terminal × List Char)) :=
  match _h : scan typeTerminals {} text with
  | .token t rest => (retold rest).map ((t.terminal, t.text) :: ·)
  | .atEnd => some []
  | .misplaced _ | .stray _ _ => none
termination_by text.length
decreasing_by exact length_scan_lt _h

/-- A token in front of others. -/
theorem retold_of_token {text rest : List Char} {p : Position} {t : Token}
    (h : scan typeTerminals p text = .token t rest) :
    retold text = (retold rest).map ((t.terminal, t.text) :: ·) := by
  obtain ⟨gap, -, -, hscan⟩ := scan_token_at h {}
  rw [retold]
  split <;> rename_i hscan' <;> cases hscan.symm.trans hscan'
  rfl

/-- Nothing but what is skipped. -/
theorem retold_of_isTail {text : List Char} (h : IsTail text) : retold text = some [] := by
  have hscan : scan typeTerminals {} text = .atEnd := scan_eq_atEnd_iff.mpr h
  rw [retold]
  split <;> rename_i hscan' <;> cases hscan.symm.trans hscan'
  rfl

/-! ### Gaps in one line -/

/-- Blanks and block comments, one behind the other. -/
inductive IsInline : List Char → Prop where
  /-- Nothing. -/
  | nil : IsInline []
  /-- A blank, and more. -/
  | blank {c : Char} {rest : List Char} (hc : isSpacing c = true) (h : IsInline rest) :
    IsInline (c :: rest)
  /-- A block comment, and more. -/
  | comment {body rest : List Char} (hbody : commentBody body = some (body, []))
      (h : IsInline rest) : IsInline ('/' :: '*' :: body ++ rest)

/-- They are a gap. -/
theorem IsInline.isGap {gap : List Char} (h : IsInline gap) : IsGap gap := by
  induction h with
  | nil => exact .nil
  | blank hc _ ih => exact .blank hc ih
  | comment hbody _ ih => exact .comment (.block hbody) ih

/-- **Every gap** has no line comments, or what stands in front of the first one has none. -/
theorem IsGap.isInline_or {gap : List Char} (h : IsGap gap) :
    IsInline gap ∨ ∃ front body more, gap = front ++ '/' :: '/' :: (body ++ '\n' :: more) ∧
      IsInline front ∧ '\n' ∉ body := by
  induction h with
  | nil => exact Or.inl .nil
  | @blank c rest hc _ ih =>
    rcases ih with ih | ⟨front, body, more, rfl, hfront, hbody⟩
    · exact Or.inl (.blank hc ih)
    · exact Or.inr ⟨c :: front, body, more, rfl, .blank hc hfront, hbody⟩
  | @comment text rest hc _ ih =>
    cases hc with
    | @line body hbody => exact Or.inr ⟨[], body, rest, by simp, .nil, hbody⟩
    | @block body hbody =>
      rcases ih with ih | ⟨front, body', more, rfl, hfront, hbody'⟩
      · exact Or.inl (.comment hbody ih)
      · exact Or.inr ⟨_, body', more, (List.append_assoc _ _ _).symm, .comment hbody hfront,
          hbody'⟩

/-- A blank between tokens is white space. -/
theorem isBlank_of_isSpacing {c : Char} (hc : isSpacing c = true) : Unicode.isBlank c = true := by
  simp only [isSpacing, Bool.or_eq_true, beq_iff_eq] at hc
  rcases hc with (((rfl | rfl) | rfl) | rfl) | rfl <;> rfl

/-- A text starts with a character that is no blank if it does so in one line. -/
theorem exists_cons_of_collapse {text more : List Char} {c : Char} (hc : c ≠ ' ')
    (h : collapse text = c :: more) : ∃ rest, text = c :: rest := by
  have hhead := head?_collapse text
  rw [h] at hhead
  cases text with
  | nil => cases hhead
  | cons d rest =>
    cases hd : Unicode.isBlank d with
    | true => exact absurd (by simpa [hd] using hhead) hc
    | false => exact ⟨rest, by simpa [hd] using hhead.symm⟩

/-- A block comment ends with a slash. -/
theorem exists_append_of_commentBody {chars body rest : List Char}
    (h : commentBody chars = some (body, rest)) : ∃ inside, body = inside ++ ['/'] := by
  fun_induction commentBody chars generalizing body with
  | case1 => cases h
  | case2 after =>
    cases h
    exact ⟨['*'], rfl⟩
  | case3 c after hc ih =>
    obtain ⟨⟨inside, rest'⟩, hinside, heq⟩ := Option.map_eq_some_iff.mp h
    cases heq
    obtain ⟨front, rfl⟩ := ih hinside
    exact ⟨c :: front, rfl⟩

/-- The rest of a block comment is one in one line. -/
theorem commentBody_collapse {chars body : List Char} (h : commentBody chars = some (body, [])) :
    commentBody (collapse chars) = some (collapse chars, []) := by
  fun_induction commentBody chars generalizing body with
  | case1 => cases h
  | case2 after =>
    cases h
    rfl
  | case3 c after hc ih =>
    obtain ⟨⟨inside, rest'⟩, hinside, heq⟩ := Option.map_eq_some_iff.mp h
    cases heq
    have hrest := ih hinside
    cases hblank : Unicode.isBlank c with
    | false =>
      rw [collapse_cons hblank, commentBody, hrest]
      · rfl
      · intro rest hstar hslash
        obtain ⟨more, rfl⟩ := exists_cons_of_collapse (by decide) hslash
        exact hc more hstar rfl
    | true =>
      obtain ⟨more, hmore, hsame | hsame⟩ := exists_collapse_cons hblank after
      · rw [hmore, ← hsame, commentBody, hrest]
        · rfl
        · exact fun rest hstar => absurd hstar (by decide)
      · rw [hmore, ← hsame, hrest]

/-- **Blanks and block comments** are such in one line. -/
theorem IsInline.collapse {gap : List Char} (h : IsInline gap) : IsInline (collapse gap) := by
  induction h with
  | nil => exact .nil
  | @blank c rest hc h ih =>
    obtain ⟨more, hmore, hrest⟩ := exists_collapse_cons (isBlank_of_isSpacing hc) rest
    rw [hmore]
    rcases hrest with hrest | hrest
    · exact .blank rfl (hrest ▸ ih)
    · exact hrest ▸ ih
  | @comment body rest hbody h ih =>
    rw [collapse_append, collapse_cons rfl, collapse_cons rfl]
    · exact .comment (commentBody_collapse hbody) ih
    · obtain ⟨inside, rfl⟩ := exists_append_of_commentBody hbody
      intro c hc hblank
      rw [← List.cons_append, ← List.cons_append, List.getLast?_concat] at hc
      cases hc
      exact absurd hblank (by decide)

/-! ### Tokens in one line -/

/-- A string literal ends with a quotation mark. -/
theorem exists_append_of_stringBody {chars body rest : List Char}
    (h : stringBody chars = some (body, rest)) : ∃ inside, body = inside ++ ['"'] := by
  fun_induction stringBody chars generalizing body with
  | case1 => cases h
  | case2 after =>
    cases h
    exact ⟨[], rfl⟩
  | case3 => cases h
  | case4 c after hc ih =>
    obtain ⟨⟨inside, rest'⟩, hinside, heq⟩ := Option.map_eq_some_iff.mp h
    cases heq
    obtain ⟨front, rfl⟩ := ih hinside
    exact ⟨'\\' :: c :: front, rfl⟩
  | case5 => cases h
  | case6 c after _ _ hc ih =>
    obtain ⟨⟨inside, rest'⟩, hinside, heq⟩ := Option.map_eq_some_iff.mp h
    cases heq
    obtain ⟨front, rfl⟩ := ih hinside
    exact ⟨c :: front, rfl⟩

/-- A character that is neither a quotation mark, a backslash nor a line feed goes on with a string
literal. -/
theorem stringBody_cons {c : Char} (hquote : c ≠ '"') (hescape : c ≠ '\\') (hline : c ≠ '\n')
    (rest : List Char) :
    stringBody (c :: rest) = (stringBody rest).map fun (body, rest) => (c :: body, rest) := by
  rw [stringBody, if_neg (by simp [hescape, hline])]
  · exact hquote
  · rintro d more rfl
    exact absurd rfl hescape

/-- The rest of a string literal is one in one line. -/
theorem stringBody_collapse {chars body : List Char} (h : stringBody chars = some (body, [])) :
    stringBody (collapse chars) = some (collapse chars, []) := by
  have hblank : ∀ {more : List Char}, stringBody (' ' :: more) =
      (stringBody more).map fun (body, rest) => (' ' :: body, rest) := fun {more} =>
    stringBody_cons (by decide) (by decide) (by decide) more
  fun_induction stringBody chars generalizing body with
  | case1 => cases h
  | case2 after =>
    cases h
    rfl
  | case3 => cases h
  | case4 c after hc ih =>
    obtain ⟨⟨inside, rest'⟩, hinside, heq⟩ := Option.map_eq_some_iff.mp h
    cases heq
    have hrest := ih hinside
    rw [collapse_cons rfl]
    cases hc' : Unicode.isBlank c with
    | false =>
      rw [collapse_cons hc', stringBody, if_neg hc, hrest]
      rfl
    | true =>
      obtain ⟨more, hmore, hsame | hsame⟩ := exists_collapse_cons hc' after
      · rw [hmore, ← hsame, stringBody, if_neg (by decide), hrest]
        rfl
      · rw [hsame, hblank] at hrest
        obtain ⟨⟨body, rest⟩, hbody, heq⟩ := Option.map_eq_some_iff.mp hrest
        cases heq
        rw [hmore, stringBody, if_neg (by decide), hbody]
        rfl
  | case5 => cases h
  | case6 c after hquote hescape hc ih =>
    obtain ⟨⟨inside, rest'⟩, hinside, heq⟩ := Option.map_eq_some_iff.mp h
    cases heq
    have hrest := ih hinside
    cases hc' : Unicode.isBlank c with
    | false =>
      rw [collapse_cons hc', stringBody_cons hquote (fun heq => hc (Or.inr heq))
        (fun heq => hc (Or.inl heq)), hrest]
      rfl
    | true =>
      obtain ⟨more, hmore, hsame | hsame⟩ := exists_collapse_cons hc' after
      · rw [hmore, ← hsame, hblank, hrest]
        rfl
      · rw [hmore, ← hsame, hrest]

/-- A terminal that takes the place of the one tried has the lexeme as its only text. -/
theorem fixedText?_of_narrowed {accepted : List Terminal} {s : Terminal} {lexeme : List Char}
    (h : narrowed accepted s lexeme ≠ s) :
    (narrowed accepted s lexeme).fixedText? = some lexeme := by
  unfold narrowed at h ⊢
  cases hfound : accepted.find? fun r => r.wider? = some s && r.fixedText? = some lexeme with
  | none => exact absurd (by rw [hfound]; rfl) h
  | some r =>
    have hr := List.find?_some hfound
    simp only [Bool.and_eq_true, decide_eq_true_eq] at hr
    exact hr.2

/-- **A token is a lexeme of its terminal.** -/
theorem lexeme?_of_scan {accepted : List Terminal} {p : Position} {chars rest : List Char}
    {t : Token} (h : scan accepted p chars = .token t rest) :
    t.terminal.lexeme? (t.text ++ rest) = some (t.text, rest) := by
  obtain ⟨_, s, -, -, -, hlexeme, hterminal⟩ := exists_lexeme_of_scan h
  rw [hterminal]
  by_cases hs : narrowed accepted s t.text = s
  · rw [hs]
    exact hlexeme
  · rw [lexeme?_of_fixedText? (fixedText?_of_narrowed hs)]
    exact splitPrefix?_append _ _

/-- Whether a token may stand in a type: a name, a string literal, or a mark. -/
inductive Token.IsOfType (t : Token) : Prop where
  /-- A name. -/
  | name (ht : t.terminal = .name) (h : IsName t.text)
  /-- A string literal. -/
  | string (ht : t.terminal = .string) {body : List Char} (htext : t.text = '"' :: body)
      (h : stringBody body = some (body, []))
  /-- A mark. -/
  | mark (ht : t.terminal ∈ typeTerminals) (h : t.terminal.fixedText? = some t.text)

/-- Tokens of the terminals of types may stand in types. -/
theorem isOfType_of_lexeme? {t : Token} {rest : List Char} (ht : t.terminal ∈ typeTerminals)
    (h : t.terminal.lexeme? (t.text ++ rest) = some (t.text, rest)) : t.IsOfType := by
  cases hfixed : t.terminal.fixedText? with
  | some fixed =>
    rw [lexeme?_of_fixedText? hfixed] at h
    rw [← (splitPrefix?_eq_some h).2] at hfixed
    exact .mark ht hfixed
  | none =>
    have hterminal : t.terminal = .name ∨ t.terminal = .string := by
      revert ht hfixed
      cases t.terminal <;> decide
    rcases hterminal with hname | hstring
    · rw [hname] at h
      exact .name hname (isName_of_lexeme? h)
    · rw [hstring] at h
      obtain ⟨c, inside, htext⟩ := List.exists_cons_of_ne_nil (lexeme?_eq_some h).2
      rw [htext, List.cons_append] at h
      simp only [Terminal.lexeme?] at h
      split at h
      · next chars heq =>
        obtain ⟨rfl, rfl⟩ := List.cons.inj heq
        obtain ⟨⟨body, rest'⟩, hbody, heq⟩ := Option.map_eq_some_iff.mp h
        cases heq
        have hself := stringBody_append hbody []
        rw [List.append_nil] at hself
        exact .string hstring htext hself
      · cases h

/-- A name in a type is spelled like one. -/
theorem Token.IsOfType.isName {t : Token} (h : t.IsOfType) (ht : t.terminal = .name) :
    IsName t.text := by
  cases h with
  | name _ h => exact h
  | string hstring => cases ht.symm.trans hstring
  | mark _ hfixed =>
    rw [ht] at hfixed
    cases hfixed

/-- No white space stands in a fixed text. -/
theorem isBlank_of_mem_fixedText? {t : Terminal} {fixed : List Char}
    (h : t.fixedText? = some fixed) : ∀ c ∈ fixed, Unicode.isBlank c = false := by
  have hall : fixed.all (fun c => !Unicode.isBlank c) = true := by
    cases t <;> simp only [Terminal.fixedText?, Option.some.injEq, reduceCtorEq] at h <;>
      subst h <;> rfl
  intro c hc
  simpa using List.all_eq_true.mp hall c hc

/-- A token of a type neither starts nor ends with white space. -/
theorem Token.IsOfType.ends {t : Token} (h : t.IsOfType) :
    t.text ≠ [] ∧ (∀ c ∈ t.text.head?, Unicode.isBlank c = false) ∧
      ∀ c ∈ t.text.getLast?, Unicode.isBlank c = false := by
  cases h with
  | name ht h =>
    exact ⟨h.ne_nil, fun c hc => h.isBlank c (List.mem_of_mem_head? hc),
      fun c hc => h.isBlank c (List.mem_of_mem_getLast? hc)⟩
  | string ht htext h =>
    obtain ⟨inside, rfl⟩ := exists_append_of_stringBody h
    have hquote : Unicode.isBlank '"' = false := rfl
    rw [htext]
    refine ⟨List.cons_ne_nil _ _, by simpa using hquote, ?_⟩
    rw [← List.cons_append, List.getLast?_concat]
    simpa using hquote
  | mark ht h =>
    have hblank := isBlank_of_mem_fixedText? h
    exact ⟨fixedText?_ne_nil h, fun c hc => hblank c (List.mem_of_mem_head? hc),
      fun c hc => hblank c (List.mem_of_mem_getLast? hc)⟩

/-- Whether a lexeme of a terminal ends before a character: a name before one that does not go on
with it, and a dot before one that is no dot. -/
def Terminal.EndsBefore (t : Terminal) (c : Char) : Prop :=
  (t = .name → isNameChar c = false) ∧ (t = .dot → c ≠ '.')

/-- Every lexeme ends before a blank. -/
theorem Terminal.endsBefore_blank (t : Terminal) : t.EndsBefore ' ' :=
  ⟨fun _ => by decide, fun _ => by decide⟩

/-- No terminal of types is wider than another. -/
theorem narrowed_typeTerminals {s : Terminal} (hs : s ∈ typeTerminals) (lexeme : List Char) :
    narrowed typeTerminals s lexeme = s := by
  have hwider : ∀ s ∈ typeTerminals, ∀ r ∈ typeTerminals, r.wider? ≠ some s := by decide
  exact (narrowed_cases typeTerminals s lexeme).resolve_right fun ⟨hmem, hr⟩ =>
    hwider s hs _ hmem hr

/-- A text that starts like a name starts with no other token of a type. -/
theorem lexeme?_eq_none_of_isNameStart {r : Terminal} (hr : r ∈ typeTerminals) (hname : r ≠ .name)
    {c : Char} (hc : isNameStart c = true) (rest : List Char) : r.lexeme? (c :: rest) = none := by
  have hne : ∀ d, isNameStart d = false → d ≠ c := by
    rintro d hd rfl
    cases hc.symm.trans hd
  cases hfixed : r.fixedText? with
  | some fixed =>
    have hfirst : ∀ r ∈ typeTerminals, ∀ fixed ∈ r.fixedText?,
        fixed.head?.any isNameStart = false := by decide
    rw [lexeme?_of_fixedText? hfixed]
    obtain ⟨d, more, rfl⟩ := List.exists_cons_of_ne_nil (fixedText?_ne_nil hfixed)
    rw [splitPrefix?, if_neg (hne d (by simpa using hfirst r hr _ hfixed))]
  | none =>
    have hstring : r = .string := by
      revert hr hname hfixed
      cases r <;> decide
    rw [hstring]
    simp only [Terminal.lexeme?]
    split
    · next heq => exact absurd (List.cons.inj heq).1.symm (hne '"' (by decide))
    · rfl

/-- A mark is found in front of any text, if three dots are not taken for one. -/
theorem firstToken_mark {t : Terminal} (ht : t ∈ typeTerminals) {text : List Char}
    (h : t.fixedText? = some text) {more : List Char} (hmore : t = .dot → ∀ c ∈ more.head?, c ≠ '.')
    (p : Position) :
    firstToken typeTerminals p (text ++ more) = some (⟨t, text, p, p.advance text⟩, more) := by
  by_cases hdot : t = .dot
  · subst hdot
    cases h
    have hlexeme : Terminal.dot.lexeme? (['.'] ++ more) = some (['.'], more) := rfl
    rw [firstToken_of_forall (by decide) hlexeme, narrowed_typeTerminals ht]
    intro r hr hne
    by_cases hdots : r = .ellipsis
    · rw [hdots, lexeme?_of_fixedText? rfl]
      cases more with
      | nil => rfl
      | cons c more => simp [splitPrefix?, (hmore rfl c rfl).symm]
    · have hr := (mem_tried.mp hr).1
      simp only [typeTerminals, List.mem_cons, List.not_mem_nil, or_false] at hr
      rcases hr with rfl | rfl | rfl | rfl | rfl | rfl | rfl | rfl
      all_goals first | rfl | contradiction
  · simp only [typeTerminals, List.mem_cons, List.not_mem_nil, or_false] at ht
    rcases ht with rfl | rfl | rfl | rfl | rfl | rfl | rfl | rfl <;> cases h
    all_goals first | rfl | contradiction

/-- **A token of a type in one line** is found again, in front of what it ends before. -/
theorem Token.IsOfType.firstToken_collapse {t : Token} (h : t.IsOfType) {more : List Char}
    (hmore : ∀ c ∈ more.head?, t.terminal.EndsBefore c) (p : Position) :
    firstToken typeTerminals p (collapse t.text ++ more) =
      some (⟨t.terminal, collapse t.text, p, p.advance (collapse t.text)⟩, more) := by
  cases h with
  | name ht h =>
    rw [collapse_eq_self h.isBlank, ht]
    obtain ⟨c, rest, htext, hc, -⟩ := id h
    have hlexeme := lexeme?_name_append h.isNameChar ⟨c, rest, htext, hc⟩
      fun d hd => (hmore d hd).1 ht
    rw [firstToken_of_forall (by decide) hlexeme, narrowed_typeTerminals (by decide)]
    intro r hr hne
    rw [htext, List.cons_append]
    exact lexeme?_eq_none_of_isNameStart (mem_tried.mp hr).1 hne hc _
  | @string ht body htext h =>
    have hquote : Unicode.isBlank '"' = false := rfl
    rw [htext, collapse_cons hquote, ht]
    have hlexeme : Terminal.string.lexeme? ('"' :: collapse body ++ more) =
        some ('"' :: collapse body, more) := by
      rw [List.cons_append, Terminal.lexeme?, stringBody_append (stringBody_collapse h)]
      rfl
    rw [firstToken_of_forall (by decide) hlexeme, narrowed_typeTerminals (by decide)]
    intro r hr hne
    rw [Option.eq_none_iff_forall_not_mem]
    exact fun found hfound => hne (eq_string_of_quote hfound)
  | mark ht h =>
    rw [collapse_eq_self (isBlank_of_mem_fixedText? h)]
    exact firstToken_mark ht h (fun hdot c hc => (hmore c hc).2 hdot) p

/-! ### Rows of tokens -/

/-- What stands in a source between two tokens. -/
def between (source : List Char) (s t : Token) : List Char :=
  (source.drop s.extent.stop.offset).take (t.extent.start.offset - s.extent.stop.offset)

/-- Whether a text consists of tokens of a type with what stands in a source between them. -/
inductive IsRow (source : List Char) : List Char → List Token → Prop where
  /-- The last token. -/
  | last {t : Token} (ht : t.IsOfType) : IsRow source t.text [t]
  /-- A token in front of others. -/
  | cons {t u : Token} {ts : List Token} {rest : List Char} (ht : t.IsOfType)
      (hgap : IsGap (between source t u))
      (hends : ∀ c ∈ (between source t u ++ rest).head?, t.terminal.EndsBefore c)
      (h : IsRow source rest (u :: ts)) :
      IsRow source (t.text ++ (between source t u ++ rest)) (t :: u :: ts)

/-- A token without its place, in one line. -/
def Token.inLine (t : Token) : Terminal × List Char :=
  (t.terminal, joined t.text)

/-- A token of a type in one line has a blank for each run of white space. -/
theorem Token.IsOfType.inLine_eq {t : Token} (h : t.IsOfType) :
    t.inLine = (t.terminal, collapse t.text) := by
  obtain ⟨-, hhead, hlast⟩ := h.ends
  rw [Token.inLine, joined_eq_collapse hhead hlast]

/-- Whether no line comment stands between two tokens. -/
def IsUncut (source : List Char) (s t : Token) : Prop :=
  IsInline (between source s t)

section

variable {source text : List Char} {ts : List Token}

/-- A row neither starts nor ends with white space. -/
theorem IsRow.ends (h : IsRow source text ts) :
    text ≠ [] ∧ (∀ c ∈ text.head?, Unicode.isBlank c = false) ∧
      ∀ c ∈ text.getLast?, Unicode.isBlank c = false := by
  induction h with
  | last ht => exact ht.ends
  | @cons t u ts rest ht _ _ _ ih =>
    obtain ⟨hne, hhead, -⟩ := ht.ends
    obtain ⟨hrest, -, hlast⟩ := ih
    refine ⟨List.append_ne_nil_of_left_ne_nil hne _, ?_, ?_⟩
    · rwa [List.head?_append_of_ne_nil _ hne]
    · rwa [← List.append_assoc, List.getLast?_append_of_ne_nil _ hrest]

/-- There are gaps between the tokens of a row. -/
theorem IsRow.gaps (h : IsRow source text ts) :
    ts.IsChain fun s t => IsGap (between source s t) := by
  induction h with
  | last => exact List.isChain_singleton _
  | cons _ hgap _ _ ih => exact ih.cons_cons hgap

/-- A token in front of what it ends before is found again behind a gap. -/
theorem Token.IsOfType.retold_append {t : Token} (h : t.IsOfType) {gap more : List Char}
    (hgap : IsGap gap) (hmore : ∀ c ∈ more.head?, t.terminal.EndsBefore c) :
    retold (gap ++ (collapse t.text ++ more)) = (retold more).map (t.inLine :: ·) := by
  have hfirst := h.firstToken_collapse hmore (Position.advance {} gap)
  have hscan : scan typeTerminals {} (gap ++ (collapse t.text ++ more)) = .token ⟨t.terminal,
      collapse t.text, Position.advance {} gap, _⟩ more :=
    scan_eq_token_iff.mpr ⟨gap, hgap, rfl, hfirst⟩
  rw [h.inLine_eq, retold_of_token hscan]

/-- **Behind a line comment** nothing is found in one line. -/
theorem retold_of_not_isInline {gap rest : List Char} (h : IsGap gap) (hline : ¬IsInline gap) :
    retold (collapse (gap ++ rest)) = some [] := by
  obtain ⟨front, body, more, rfl, hfront, -⟩ := h.isInline_or.resolve_left hline
  have hslash : Unicode.isBlank '/' = false := rfl
  rw [List.append_assoc, List.cons_append, List.cons_append, collapse_append,
    collapse_cons hslash, collapse_cons hslash]
  · refine retold_of_isTail (.unended hfront.collapse.isGap fun hmem => ?_)
    exact absurd (eq_blank_of_mem_collapse hmem (by decide)) (by decide)
  · intro c _ _ d hd
    cases hd
    exact hslash

/-- **The tokens that are found again** in a row that is put in one line: those up to the first line
comment, each of them in one line. -/
theorem IsRow.retold (h : IsRow source text ts) {gap : List Char} (hgap : IsGap gap) :
    ∃ shown lost, ts = shown ++ lost ∧ shown ≠ [] ∧ shown.IsChain (IsUncut source) ∧
      (∀ s ∈ shown.getLast?, ∀ t ∈ lost.head?, ¬IsUncut source s t) ∧
      Syntax.retold (gap ++ collapse text) = some (shown.map Token.inLine) := by
  induction h generalizing gap with
  | @last t ht =>
    refine ⟨[t], [], rfl, List.cons_ne_nil t [], List.isChain_singleton t,
      fun _ _ _ hlost => (by cases hlost), ?_⟩
    have hends : ∀ c ∈ ([] : List Char).head?, t.terminal.EndsBefore c := nofun
    have hfound := ht.retold_append hgap hends
    rwa [List.append_nil, retold_of_isTail (.gap .nil)] at hfound
  | @cons t u ts rest ht hbetween hends hrow ih =>
    have hends' : ∀ c ∈ (collapse (between source t u ++ rest)).head?,
        t.terminal.EndsBefore c := by
      intro c hc
      rw [head?_collapse] at hc
      obtain ⟨d, hd, rfl⟩ := Option.map_eq_some_iff.mp hc
      split
      · exact t.terminal.endsBefore_blank
      · exact hends d hd
    have hfound := ht.retold_append hgap hends'
    obtain ⟨-, -, hlast⟩ := ht.ends
    rw [← collapse_append fun c hc hblank => by cases (hlast c hc).symm.trans hblank] at hfound
    by_cases huncut : IsUncut source t u
    · obtain ⟨-, hhead, -⟩ := hrow.ends
      rw [collapse_append fun _ _ _ d hd => hhead d hd] at hfound
      obtain ⟨shown, lost, hsplit, hne, hchain, hcut, hrest⟩ := ih huncut.collapse.isGap
      obtain ⟨v, more, rfl⟩ := List.exists_cons_of_ne_nil hne
      obtain ⟨rfl, -⟩ := List.cons.inj hsplit
      refine ⟨t :: u :: more, lost, congrArg (t :: ·) hsplit, List.cons_ne_nil _ _,
        hchain.cons_cons huncut, by simpa using hcut, ?_⟩
      rw [hfound, hrest]
      rfl
    · refine ⟨[t], u :: ts, rfl, List.cons_ne_nil t [], List.isChain_singleton t, ?_, ?_⟩
      · rintro s hs v hv
        cases hs
        cases hv
        exact huncut
      · rw [hfound, retold_of_not_isInline hbetween huncut]
        rfl

end

end Errata.Syntax
