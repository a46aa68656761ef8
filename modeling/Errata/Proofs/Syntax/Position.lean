import Errata.Proofs.Syntax.Scanner
import Mathlib.Data.List.DropRight

/-!
# Positions in a source

A position is reached by reading an initial part of the source. It counts the line feeds of that
part and the characters behind the last of them, so a line and a column lead back to a character of
the source.

* `lineAt?`, `Span.textIn?`: the lines of a source and the text under a span.
* `Position.ofPrefix_eq`: **a position counts** what stands before it.
* `lineAt?_ofPrefix`: **the line of a position** is what stands before and behind it up to the next
  line feed.
* `Span.IsIn`: spans that start at a character of the source and end behind it.
* `Extent.isIn_span`: **a stretch of characters** has such a span.
* `Token.IsIn`: tokens of a source, and `Token.isIn_span`: **they have such a span**.
* `exists_sourceLines_cons`: a text has a first line.
* **`sourceLines_append`**: lines of joined texts.
* `sourceLines_append_newline`, `sourceLines_append_of_notMem`: the same where a line ends between
  them, and where the first is part of one line.
* `length_sourceLines`: **how many lines there are**.
* `sourceLines_intercalate`: texts with line feeds between them.
-/

/-! ## Lines and columns -/

namespace Errata

/-- The lines of a source. A line feed ends a line, and nothing else does. -/
def sourceLines (source : List Char) : List (List Char) :=
  source.splitOn '\n'

/-- The line with the given number, counting from one. -/
def lineAt? (source : List Char) (line : Int) : Option (List Char) :=
  if 1 ≤ line then (sourceLines source)[(line - 1).toNat]? else none

/-- The text under a span within one line. -/
def Span.textIn? (source : List Char) (s : Span) : Option (List Char) :=
  if s.line = s.endLine then
    (lineAt? source s.line).map fun line =>
      (line.drop (s.column - 1).toNat).take (s.endColumn - s.column).toNat
  else none

/-- Whether a span starts at a character of the source that is no line feed, ends after its start,
and reaches no further than to the end of a line. -/
structure Span.IsIn (source : List Char) (s : Span) : Prop where
  /-- There is a character at its start. -/
  start : ∃ text c, lineAt? source s.line = some text ∧ 1 ≤ s.column ∧
    text[(s.column - 1).toNat]? = some c ∧ c ≠ '\n'
  /-- It is not empty. -/
  nonempty : s.line < s.endLine ∨ s.line = s.endLine ∧ s.column < s.endColumn
  /-- It ends within a line or at the end of one. -/
  stop : ∃ line, lineAt? source s.endLine = some line ∧ 1 ≤ s.endColumn ∧
    s.endColumn ≤ line.length + 1

namespace Syntax

/-! ### Lines -/

/-- A text without characters is one empty line. -/
@[simp] theorem sourceLines_nil : sourceLines [] = [[]] := rfl

/-- A line feed ends a line. -/
@[simp] theorem sourceLines_newline (source : List Char) :
    sourceLines ('\n' :: source) = [] :: sourceLines source := by
  simp [sourceLines, List.splitOn, List.splitOnP_cons_eq_if_modifyHead]

/-- Any other character belongs to the first line. -/
theorem sourceLines_cons {c : Char} (hc : c ≠ '\n') (source : List Char) :
    sourceLines (c :: source) = (sourceLines source).modifyHead (c :: ·) := by
  simp [sourceLines, List.splitOn, List.splitOnP_cons_eq_if_modifyHead, hc]

/-- The first line reaches to the first line feed. -/
theorem head?_sourceLines (source : List Char) :
    (sourceLines source).head? = some (source.takeWhile (· ≠ '\n')) := by
  induction source with
  | nil => rfl
  | cons c source ih =>
    by_cases hc : c = '\n'
    · simp [hc]
    · simp [sourceLines_cons hc, ih, hc]

/-- The part of a text behind its last line feed. -/
def lastLine (text : List Char) : List Char :=
  text.rtakeWhile (· ≠ '\n')

@[simp] theorem lastLine_nil : lastLine [] = [] := rfl

/-- Behind a line feed a new line starts. -/
@[simp] theorem lastLine_newline (text : List Char) : lastLine (text ++ ['\n']) = [] :=
  List.rtakeWhile_concat_neg _ _ _ (by simp)

/-- Any other character belongs to the last line. -/
theorem lastLine_concat {c : Char} (hc : c ≠ '\n') (text : List Char) :
    lastLine (text ++ [c]) = lastLine text ++ [c] :=
  List.rtakeWhile_concat_pos _ _ _ (by simpa using hc)

/-- A text without line feeds continues the last line. -/
theorem lastLine_append (text : List Char) {more : List Char} (h : '\n' ∉ more) :
    lastLine (text ++ more) = lastLine text ++ more := by
  induction more generalizing text with
  | nil => simp
  | cons c more ih =>
    obtain ⟨hc, hmore⟩ := not_or.mp (mt List.mem_cons.mpr h)
    rw [List.append_cons, ih _ hmore, lastLine_concat (Ne.symm hc), ← List.append_cons]

/-- The lines that are left after as many as an initial part of the source has ended. -/
theorem drop_sourceLines (before after : List Char) :
    (sourceLines (before ++ after)).drop (before.count '\n') =
      (sourceLines after).modifyHead (lastLine before ++ ·) := by
  induction before using List.reverseRecOn generalizing after with
  | nil =>
    rw [List.nil_append]
    cases sourceLines after <;> rfl
  | append_singleton before c ih =>
    rw [List.append_assoc, List.singleton_append]
    by_cases hc : c = '\n'
    · subst hc
      rw [List.count_append, List.count_singleton_self, ← List.drop_drop, ih, sourceLines_newline,
        lastLine_newline]
      cases sourceLines after <;> rfl
    · have hcount : (before ++ [c]).count '\n' = before.count '\n' := by
        simp [List.count_append, hc]
      rw [hcount, ih, sourceLines_cons hc, lastLine_concat hc, List.modifyHead_modifyHead]
      congr 1
      funext line
      simp

/-! ### Positions -/

/-- The position behind an initial part of a source. -/
def Position.ofPrefix (before : List Char) : Position :=
  Position.advance {} before

/-- The position behind some text and more text. -/
theorem Position.advance_append (p : Position) (text more : List Char) :
    p.advance (text ++ more) = (p.advance text).advance more :=
  List.foldl_append

/-- From the position behind an initial part on, a text leads to the position behind both. -/
theorem Position.advance_ofPrefix (before text : List Char) :
    (Position.ofPrefix before).advance text = Position.ofPrefix (before ++ text) :=
  (Position.advance_append _ _ _).symm

/-- **A position counts** the characters and the line feeds before it, and the characters behind the
last line feed. -/
theorem Position.ofPrefix_eq (before : List Char) :
    Position.ofPrefix before =
      ⟨before.length, before.count '\n' + 1, (lastLine before).length + 1⟩ := by
  induction before using List.reverseRecOn with
  | nil => rfl
  | append_singleton before c ih =>
    rw [← Position.advance_ofPrefix, ih]
    by_cases hc : c = '\n'
    · simp [Position.advance, Position.next, hc]
    · simp [Position.advance, Position.next, hc, lastLine_concat hc]

/-- The offset of a position is the length of what stands before it. -/
theorem Position.offset_ofPrefix (before : List Char) :
    (Position.ofPrefix before).offset = before.length := by
  rw [Position.ofPrefix_eq]

/-- The line of a position counts the line feeds before it. -/
theorem Position.line_ofPrefix (before : List Char) :
    (Position.ofPrefix before).line = before.count '\n' + 1 := by
  rw [Position.ofPrefix_eq]

/-- The column of a position counts the characters before it on its line. -/
theorem Position.column_ofPrefix (before : List Char) :
    (Position.ofPrefix before).column = (lastLine before).length + 1 := by
  rw [Position.ofPrefix_eq]

/-- **The line of a position** is what stands before it on that line and what stands behind it up to
the next line feed. -/
theorem lineAt?_ofPrefix (before after : List Char) :
    lineAt? (before ++ after) (Position.ofPrefix before).line =
      some (lastLine before ++ after.takeWhile (· ≠ '\n')) := by
  have hdrop := drop_sourceLines before after
  have hhead := head?_sourceLines after
  have hfirst : (sourceLines (before ++ after))[before.count '\n']? =
      ((sourceLines (before ++ after)).drop (before.count '\n')).head? := by
    rw [List.head?_drop]
  rw [Position.line_ofPrefix, lineAt?, if_pos (by omega)]
  rw [show ((before.count '\n' + 1 : ℕ) - 1 : Int).toNat = before.count '\n' by omega, hfirst,
    hdrop, List.head?_modifyHead, hhead]
  rfl

/-- A position behind more text is on a later line, or behind on the same line. -/
theorem Position.ofPrefix_lt (before : List Char) {more : List Char} (h : more ≠ []) :
    (Position.ofPrefix before).line < (Position.ofPrefix (before ++ more)).line ∨
      (Position.ofPrefix before).line = (Position.ofPrefix (before ++ more)).line ∧
        (Position.ofPrefix before).column < (Position.ofPrefix (before ++ more)).column := by
  have hpos := List.length_pos_iff.mpr h
  simp only [Position.line_ofPrefix, Position.column_ofPrefix, List.count_append]
  by_cases hnewline : '\n' ∈ more
  · have := List.count_pos_iff.mpr hnewline
    omega
  · rw [List.count_eq_zero.mpr hnewline, lastLine_append _ hnewline, List.length_append]
    omega

/-! ### Stretches of characters -/

/-- **A stretch of characters** that starts with one other than a line feed has a span in the
source. -/
theorem Extent.isIn_span {before more after : List Char} {c : Char} (hc : c ≠ '\n') :
    (Extent.span ⟨.ofPrefix before, .ofPrefix (before ++ c :: more)⟩).IsIn
      (before ++ c :: more ++ after) := by
  have hstart := lineAt?_ofPrefix before (c :: more ++ after)
  have hstop := lineAt?_ofPrefix (before ++ c :: more) after
  have horder := Position.ofPrefix_lt before (List.cons_ne_nil c more)
  rw [← List.append_assoc] at hstart
  refine ⟨⟨_, c, hstart, ?_, ?_, hc⟩, ?_, ⟨_, hstop, ?_, ?_⟩⟩
  · simp only [Extent.span, Position.column_ofPrefix]
    omega
  · simp [Extent.span, Position.column_ofPrefix, hc]
  · simp only [Extent.span]
    omega
  · simp only [Extent.span, Position.column_ofPrefix]
    omega
  · simp only [Extent.span, Position.column_ofPrefix, List.length_append]
    omega

/-- The text under a span within a line, from the characters before it on that line. -/
theorem textIn?_eq {before text after : List Char} (h : '\n' ∉ text) {s : Span}
    (hline : s.line = (Position.ofPrefix before).line) (hend : s.endLine = s.line)
    (hcolumn : s.column = (Position.ofPrefix before).column)
    (hstop : s.endColumn = s.column + text.length) :
    s.textIn? (before ++ text ++ after) = some text := by
  rw [Span.textIn?, if_pos hend.symm, hline, List.append_assoc, lineAt?_ofPrefix, hstop, hcolumn,
    Position.column_ofPrefix, List.takeWhile_append_of_pos (by
      intro c hc
      simpa using ne_of_mem_of_not_mem hc h)]
  have hskip : (((lastLine before).length + 1 : ℕ) - 1 : Int).toNat = (lastLine before).length := by
    omega
  have htake : ∀ n : Int, (n + text.length - n).toNat = text.length := by
    omega
  rw [hskip, htake]
  simp

/-! ### Tokens -/

/-- Whether a token is found somewhere in a source. -/
def Token.IsIn (source : List Char) (t : Token) : Prop :=
  ∃ accepted before rest after, source = before ++ rest ∧
    firstToken accepted (.ofPrefix before) rest = some (t, after)

/-- A token reaches from where it is looked for to behind its text. -/
theorem extent_of_firstToken {accepted : List Terminal} {position : Position}
    {chars rest : List Char} {t : Token}
    (h : firstToken accepted position chars = some (t, rest)) :
    t.extent = ⟨position, position.advance t.text⟩ := by
  obtain ⟨_, terminal, _, -, hfound, -⟩ := List.findSome?_eq_some_iff.mp h
  obtain ⟨⟨lexeme, rest'⟩, -, heq⟩ := Option.map_eq_some_iff.mp hfound
  cases heq
  rfl

/-- Where a token of a source stands. -/
theorem Token.IsIn.exists_append {source : List Char} {t : Token} (h : t.IsIn source) :
    ∃ before after, source = before ++ t.text ++ after ∧ t.text ≠ [] ∧
      t.extent = ⟨.ofPrefix before, .ofPrefix (before ++ t.text)⟩ := by
  obtain ⟨accepted, before, rest, after, rfl, hfirst⟩ := h
  obtain ⟨rfl, hne⟩ := firstToken_eq_some hfirst
  refine ⟨before, after, (List.append_assoc _ _ _).symm, hne, ?_⟩
  rw [extent_of_firstToken hfirst, Position.advance_ofPrefix]

/-- No lexeme holds a line feed. -/
theorem newline_notMem_stringBody {chars body rest : List Char}
    (h : stringBody chars = some (body, rest)) : '\n' ∉ body := by
  fun_induction stringBody chars generalizing body with
  | case1 => cases h
  | case2 =>
    cases h
    decide
  | case3 => cases h
  | case4 c rest' hc ih =>
    obtain ⟨⟨more, after⟩, hm, heq⟩ := Option.map_eq_some_iff.mp h
    cases heq
    simp [Ne.symm hc, ih hm]
  | case5 => cases h
  | case6 c rest' _ _ hc ih =>
    obtain ⟨⟨more, after⟩, hm, heq⟩ := Option.map_eq_some_iff.mp h
    cases heq
    simp only [not_or] at hc
    simp [Ne.symm hc.1, ih hm]

/-- A run of characters of a kind that does not include the line feed holds none. -/
theorem newline_notMem_takeWhile {p : Char → Bool} (hp : p '\n' = false) (chars : List Char) :
    '\n' ∉ chars.takeWhile p := by
  intro hm
  rw [List.mem_takeWhile_imp hm] at hp
  cases hp

/-- No lexeme holds a line feed. -/
theorem newline_notMem_lexeme? {t : Terminal} {chars lexeme rest : List Char}
    (h : t.lexeme? chars = some (lexeme, rest)) : '\n' ∉ lexeme := by
  have hspan : ∀ {p : Char → Bool}, p '\n' = false →
      spanNonempty p chars = some (lexeme, rest) → '\n' ∉ lexeme := by
    intro p hp h
    unfold spanNonempty at h
    split at h
    · cases h
    · cases h
      exact newline_notMem_takeWhile hp chars
  have hfixed : ∀ {fixed : List Char}, t.fixedText? = some fixed → '\n' ∉ fixed := by
    cases t <;> decide
  cases hf : t.fixedText? with
  | some fixed =>
    rw [lexeme?_of_fixedText? hf] at h
    obtain ⟨-, rfl⟩ := splitPrefix?_eq_some h
    exact hfixed hf
  | none =>
    cases t with
    | name =>
      cases chars with
      | nil => cases h
      | cons c chars =>
        simp only [Terminal.lexeme?] at h
        split at h
        · cases h
          exact newline_notMem_takeWhile (by decide) _
        · cases h
    | string =>
      simp only [Terminal.lexeme?] at h
      split at h
      · obtain ⟨⟨body, after⟩, hb, heq⟩ := Option.map_eq_some_iff.mp h
        cases heq
        simpa using newline_notMem_stringBody hb
      · cases h
    | number => exact hspan (by decide) h
    | relative => exact hspan (by decide) h
    | _ => cases hf

/-- No token holds a line feed. -/
theorem Token.IsIn.newline_notMem {source : List Char} {t : Token} (h : t.IsIn source) :
    '\n' ∉ t.text := by
  obtain ⟨accepted, before, rest, after, rfl, hfirst⟩ := h
  obtain ⟨_, terminal, _, -, hfound, -⟩ := List.findSome?_eq_some_iff.mp hfirst
  obtain ⟨⟨lexeme, rest'⟩, hl, heq⟩ := Option.map_eq_some_iff.mp hfound
  cases heq
  exact newline_notMem_lexeme? hl

end Syntax

end Errata

/-! ## Lines of joined texts

The lines of a text that is put together are those of its parts, where the last line of a part goes
on with the first line of the next one.
-/

namespace Errata

open Syntax (sourceLines_nil sourceLines_newline sourceLines_cons head?_sourceLines)

/-- A text has a first line. -/
theorem exists_sourceLines_cons (text : List Char) :
    ∃ first rest, sourceLines text = first :: rest := by
  have h := head?_sourceLines text
  cases hlines : sourceLines text with
  | nil => simp [hlines] at h
  | cons first rest => exact ⟨first, rest, rfl⟩

/-- The lines of joined texts: the last line of the first one goes on with the first line of the
second one. -/
theorem sourceLines_append (before after : List Char) :
    ∃ init last, sourceLines before = init ++ [last] ∧
      sourceLines (before ++ after) = init ++ (sourceLines after).modifyHead (last ++ ·) := by
  induction before with
  | nil =>
    refine ⟨[], [], rfl, ?_⟩
    obtain ⟨first, rest, hlines⟩ := exists_sourceLines_cons after
    rw [List.nil_append, List.nil_append, hlines]
    rfl
  | cons c before ih =>
    obtain ⟨init, last, hbefore, hboth⟩ := ih
    by_cases hc : c = '\n'
    · subst hc
      refine ⟨[] :: init, last, ?_, ?_⟩
      · rw [sourceLines_newline, hbefore, List.cons_append]
      · rw [List.cons_append, sourceLines_newline, hboth, List.cons_append]
    · rw [List.cons_append, sourceLines_cons hc, sourceLines_cons hc, hbefore, hboth]
      cases init with
      | nil =>
        refine ⟨[], c :: last, rfl, ?_⟩
        rw [List.nil_append, List.nil_append, List.modifyHead_modifyHead]
        rfl
      | cons first init => exact ⟨(c :: first) :: init, last, rfl, rfl⟩

/-- The lines of texts with a line feed between them. -/
theorem sourceLines_append_newline (before after : List Char) :
    sourceLines (before ++ '\n' :: after) = sourceLines before ++ sourceLines after := by
  obtain ⟨init, last, hbefore, hboth⟩ := sourceLines_append before ('\n' :: after)
  rw [hboth, hbefore, sourceLines_newline, List.modifyHead_cons, List.append_nil,
    List.append_assoc, List.singleton_append]

/-- A text without line feeds is one line. -/
theorem sourceLines_of_notMem {text : List Char} (h : '\n' ∉ text) : sourceLines text = [text] := by
  induction text with
  | nil => rfl
  | cons c text ih =>
    obtain ⟨hc, htext⟩ := not_or.mp (mt List.mem_cons.mpr h)
    rw [sourceLines_cons (Ne.symm hc), ih htext]
    rfl

/-- A text in front of which something without line feeds stands goes on with that line. -/
theorem sourceLines_append_of_notMem {before : List Char} (h : '\n' ∉ before) (after : List Char) :
    sourceLines (before ++ after) = (sourceLines after).modifyHead (before ++ ·) := by
  obtain ⟨init, last, hbefore, hboth⟩ := sourceLines_append before after
  rw [sourceLines_of_notMem h] at hbefore
  have hsplit : [] ++ [before] = init ++ [last] := hbefore
  obtain ⟨rfl, hlast⟩ := List.append_inj' hsplit rfl
  cases hlast
  rw [hboth, List.nil_append]

/-- **A text has one line more than line feeds.** -/
theorem length_sourceLines (text : List Char) :
    (sourceLines text).length = text.count '\n' + 1 := by
  induction text with
  | nil => rfl
  | cons c text ih =>
    by_cases hc : c = '\n'
    · subst hc
      rw [sourceLines_newline, List.length_cons, ih, List.count_cons_self]
    · rw [sourceLines_cons hc, List.length_modifyHead, ih, List.count_cons_of_ne hc]

/-- The lines of texts with line feeds between them. -/
theorem sourceLines_intercalate {texts : List (List Char)} (h : texts ≠ []) :
    sourceLines (['\n'].intercalate texts) = (texts.map sourceLines).flatten := by
  induction texts with
  | nil => exact absurd rfl h
  | cons text texts ih =>
    cases texts with
    | nil => simp
    | cons next texts =>
      rw [List.intercalate_cons_cons, List.append_assoc, List.singleton_append,
        sourceLines_append_newline, ih (List.cons_ne_nil next texts)]
      rfl

end Errata
