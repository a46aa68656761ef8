import Errata.Proofs.Diagnostic.Layout
import Errata.Proofs.Ending
import Errata.Proofs.Pointing

/-!
# Lines that a report shows

Positions count line feeds, and a report cuts the source at every line end in the wide sense. As
long as no other line end stands before a line, both number it in the same way, and the report shows
it up to its first line end. Behind another one the report is ahead: it shows a line that stands
before the one meant.

* `IsLineOf`: a line with its number and what stands around it; `exists_isLineOf`: it exists.
* `strayEnds`: the line ends in the wide sense that end no line for a position.
* `displayLines_append`, `length_displayLines`: how a report numbers lines.
* **`Report.sourceLine_of_isLineOf`**: the line that a report shows.
* `Report.Marks`, `Report.marks_layoutOne`: which columns of it are marked.
* **`compile_shows_lines`**: the line and the columns that are shown for a diagnostic.
-/

namespace Errata

/-! ### Lines by their number -/

/-- A line of a text, with what stands before it and behind it. -/
structure IsLineOf (text : List Char) (number : Int) (before line after : List Char) : Prop where
  /-- They make up the text. -/
  eq : text = before ++ line ++ after
  /-- Its number counts the line feeds before it. -/
  number_eq : number = before.count '\n' + 1
  /-- It starts behind a line feed. -/
  starts : ∀ c ∈ before.getLast?, c = '\n'
  /-- It ends before a line feed. -/
  ends : ∀ c ∈ after.head?, c = '\n'
  /-- There is none in it. -/
  whole : '\n' ∉ line

/-- Lines that end with line feeds. -/
def ended (lines : List (List Char)) : List Char :=
  lines.flatMap fun line => line ++ ['\n']

/-- Lines with line feeds between them, cut in front of one of them. -/
theorem intercalate_append_cons (front : List (List Char)) (line : List Char)
    (back : List (List Char)) :
    ['\n'].intercalate (front ++ line :: back) =
      ended front ++ ['\n'].intercalate (line :: back) := by
  induction front with
  | nil => rfl
  | cons first front ih =>
    obtain ⟨second, more, hmore⟩ := List.exists_cons_of_ne_nil
      (List.append_ne_nil_of_right_ne_nil front (List.cons_ne_nil line back))
    rw [hmore] at ih
    rw [List.cons_append, hmore, List.intercalate_cons_cons, ih, ended, ended, List.flatMap_cons,
      List.append_assoc (first ++ ['\n'])]

/-- Lines that end with line feeds hold as many line feeds. -/
theorem count_ended {lines : List (List Char)} (h : ∀ line ∈ lines, '\n' ∉ line) :
    (ended lines).count '\n' = lines.length := by
  induction lines with
  | nil => rfl
  | cons line lines ih =>
    obtain ⟨hline, hlines⟩ := List.forall_mem_cons.mp h
    have hrest := ih hlines
    rw [ended] at hrest
    rw [ended, List.flatMap_cons, List.count_append, List.count_append, hrest,
      List.count_eq_zero_of_not_mem hline, List.length_cons]
    simp [Nat.add_comm]

/-- The last of lines that end with line feeds ends with one. -/
theorem eq_newline_of_mem_getLast?_ended {lines : List (List Char)} :
    ∀ c ∈ (ended lines).getLast?, c = '\n' := by
  intro c hc
  cases lines using List.reverseRecOn with
  | nil => cases hc
  | append_singleton lines line =>
    rw [ended, List.flatMap_append, List.flatMap_singleton, ← List.append_assoc,
      List.getLast?_concat] at hc
    exact (Option.some.inj hc).symm

/-- **What stands before a line** and behind it. -/
theorem exists_isLineOf {text line : List Char} {number : Int}
    (h : lineAt? text number = some line) :
    ∃ before after, IsLineOf text number before line after := by
  unfold lineAt? at h
  split at h
  · next hpositive =>
    obtain ⟨hlt, hline⟩ := List.getElem?_eq_some_iff.mp h
    have hwhole : ∀ l ∈ sourceLines text, '\n' ∉ l := by
      rw [sourceLines, ← Path.splitAll_eq_splitOn]
      exact fun l hl => Path.not_mem_of_mem_splitAll hl
    have hlines : sourceLines text = (sourceLines text).take (number - 1).toNat ++
        line :: (sourceLines text).drop ((number - 1).toNat + 1) := by
      rw [← hline, ← List.drop_eq_getElem_cons hlt, List.take_append_drop]
    have htext : ['\n'].intercalate (text.splitOn '\n') = text := List.intercalate_splitOn '\n'
    rw [← sourceLines, hlines, intercalate_append_cons] at htext
    obtain ⟨after, hafter, hends⟩ : ∃ after,
        ['\n'].intercalate (line :: (sourceLines text).drop ((number - 1).toNat + 1)) =
          line ++ after ∧ ∀ c ∈ after.head?, c = '\n' := by
      cases (sourceLines text).drop ((number - 1).toNat + 1) with
      | nil => exact ⟨[], by simp, by simp⟩
      | cons next more =>
        exact ⟨'\n' :: ['\n'].intercalate (next :: more), by
          rw [List.intercalate_cons_cons, List.append_assoc, List.singleton_append], by simp⟩
    rw [hafter, ← List.append_assoc] at htext
    refine ⟨_, after, htext.symm, ?_, eq_newline_of_mem_getLast?_ended, hends,
      hwhole line (hline ▸ List.getElem_mem hlt)⟩
    rw [count_ended fun l hl => hwhole l (List.mem_of_mem_take hl), List.length_take]
    omega
  · cases h

/-! ### Lines in the wide sense -/

/-- How many line ends in the wide sense are no line feeds. A carriage return before a line feed
belongs to it. -/
def strayEnds : List Char → Nat
  | [] => 0
  | '\r' :: '\n' :: rest => strayEnds rest
  | c :: rest => (if isLineEnd c && c != '\n' then 1 else 0) + strayEnds rest

/-- Line ends are counted one by one, unless a carriage return belongs to a line feed. -/
theorem strayEnds_cons {c : Char} {text : List Char}
    (h : ∀ rest, c = '\r' → text = '\n' :: rest → False) :
    strayEnds (c :: text) = (if isLineEnd c && c != '\n' then 1 else 0) + strayEnds text := by
  rw [strayEnds]
  exact h

/-- A text that ends with a line feed does so when its first character is taken off. -/
theorem ends_of_cons {c : Char} {text : List Char} (h : ∀ d ∈ (c :: text).getLast?, d = '\n') :
    ∀ d ∈ text.getLast?, d = '\n' := by
  intro d hd
  rw [List.getLast?_cons, Option.mem_def.mp hd] at h
  exact h d rfl

/-- A text has lines. -/
theorem displayLines_ne_nil {text : List Char} (h : text ≠ []) : displayLines text ≠ [] := by
  fun_cases displayLines text with
  | case1 => exact absurd rfl h
  | case2 => exact List.cons_ne_nil _ _
  | case3 => exact List.cons_ne_nil _ _
  | case4 => exact List.cons_ne_nil _ _
  | case5 => exact List.cons_ne_nil _ _

/-- A character that ends no line belongs to the first one. -/
theorem displayLines_cons {c : Char} (hc : isLineEnd c = false) (text : List Char) :
    displayLines (c :: text) =
      (c :: (displayLines text).head?.getD []) :: (displayLines text).tail := by
  conv_lhs => unfold displayLines
  split
  · next hnil => cases hnil
  · next heq =>
    cases heq
    cases hc
  · next heq =>
    cases heq
    rw [if_neg (by simp [hc])]
    cases displayLines text <;> rfl

/-- Any other character ends a line, alone or together with a line feed behind it. -/
theorem displayLines_of_isLineEnd {c : Char} (hc : isLineEnd c = true) {text : List Char}
    (h : ∀ rest, c = '\r' → text = '\n' :: rest → False) :
    displayLines (c :: text) = [] :: displayLines text := by
  conv_lhs => unfold displayLines
  split
  · next hnil => cases hnil
  · next rest heq =>
    cases heq
    exact absurd rfl (h rest rfl)
  · next heq =>
    cases heq
    rw [if_pos hc]

/-- A line end at the start of a text ends an empty line. -/
theorem head?_displayLines_cons {c : Char} (hc : isLineEnd c = true) (text : List Char) :
    (displayLines (c :: text)).head? = some [] := by
  by_cases h : ∀ rest, c = '\r' → text = '\n' :: rest → False
  · rw [displayLines_of_isLineEnd hc h]
    rfl
  · push Not at h
    obtain ⟨rest, rfl, rfl, -⟩ := h
    rfl

/-- **A report cuts a text** behind a line feed as it cuts the two parts. -/
theorem displayLines_append {before : List Char} (h : ∀ c ∈ before.getLast?, c = '\n')
    (rest : List Char) :
    displayLines (before ++ rest) = displayLines before ++ displayLines rest := by
  fun_induction displayLines before with
  | case1 => rfl
  | case2 before ih =>
    exact congrArg ([] :: ·) (ih (ends_of_cons (ends_of_cons h)))
  | case3 c before hreturn hc ih =>
    rw [List.cons_append, List.cons_append, displayLines_of_isLineEnd hc, ih (ends_of_cons h)]
    rintro after rfl hafter
    cases before with
    | nil => exact absurd (h '\r' rfl) (by decide)
    | cons d before =>
      cases hafter
      exact hreturn before rfl rfl
  | case4 c before hreturn hc hnone ih =>
    obtain rfl : before = [] := by
      by_contra hne
      exact displayLines_ne_nil hne hnone
    obtain rfl := h c rfl
    exact absurd rfl hc
  | case5 c before hreturn hc first more hfirst ih =>
    rw [List.cons_append, displayLines_cons (by simpa using hc), ih (ends_of_cons h), hfirst]
    rfl

/-- **How many lines a report counts** where a position counts line feeds. -/
theorem length_displayLines {before : List Char} (h : ∀ c ∈ before.getLast?, c = '\n') :
    (displayLines before).length = before.count '\n' + strayEnds before := by
  fun_induction displayLines before with
  | case1 => rfl
  | case2 before ih =>
    rw [List.length_cons, ih (ends_of_cons (ends_of_cons h)), strayEnds]
    simp only [List.count_cons]
    simp
    omega
  | case3 c before hreturn hc ih =>
    rw [List.length_cons, ih (ends_of_cons h), strayEnds_cons hreturn, List.count_cons, hc]
    by_cases hnewline : c = '\n'
    · simp [hnewline]
      omega
    · simp [hnewline]
      omega
  | case4 c before hreturn hc hnone ih =>
    obtain rfl : before = [] := by
      by_contra hne
      exact displayLines_ne_nil hne hnone
    obtain rfl := h c rfl
    exact absurd rfl hc
  | case5 c before hreturn hc first more hfirst ih =>
    have hrest := ih (ends_of_cons h)
    have hnewline : c ≠ '\n' := by
      rintro rfl
      exact hc rfl
    rw [hfirst, List.length_cons] at hrest
    rw [List.length_cons, hrest, strayEnds_cons hreturn, List.count_cons]
    simp [hc, hnewline]

/-- The first line that a report shows of a text that starts with a line. -/
theorem head?_displayLines {line after : List Char} (hafter : ∀ c ∈ after.head?, c = '\n') :
    (displayLines (line ++ after)).head?.getD [] = line.takeWhile fun c => !isLineEnd c := by
  induction line with
  | nil =>
    cases after with
    | nil => rfl
    | cons c after =>
      obtain rfl := hafter c rfl
      rfl
  | cons c line ih =>
    rw [List.cons_append, List.takeWhile_cons]
    cases hc : isLineEnd c with
    | true =>
      rw [head?_displayLines_cons hc]
      rfl
    | false =>
      rw [Bool.not_false, if_pos rfl, ← ih, displayLines_cons hc]
      rfl

namespace Report

/-! ### What is shown -/

/-- **The line that a report shows** for a line of the source: its characters up to the first line
end in the wide sense, if no such line end but a line feed stands before the line; and else a line
that stands before it. -/
theorem sourceLine_of_isLineOf {text before line after : List Char} {span : Span}
    (h : IsLineOf text span.line before line after) :
    (strayEnds before = 0 →
      sourceLine (some (displayLines text)) span = line.takeWhile fun c => !isLineEnd c) ∧
    (strayEnds before ≠ 0 →
      (displayLines before)[before.count '\n']? =
        some (sourceLine (some (displayLines text)) span)) := by
  have hindex : (span.line - 1).toNat = before.count '\n' := by
    rw [h.number_eq]
    omega
  have hpositive : ¬span.line < 1 := by
    rw [h.number_eq]
    omega
  have hshown : sourceLine (some (displayLines text)) span =
      ((displayLines before ++ displayLines (line ++ after))[before.count '\n']?).getD [] := by
    rw [sourceLine, if_neg hpositive, hindex, h.eq, List.append_assoc,
      displayLines_append h.starts]
    rfl
  have hlength := length_displayLines h.starts
  constructor
  · intro hnone
    rw [hshown, List.getElem?_append_right (by omega), hlength, hnone, Nat.add_zero, Nat.sub_self,
      ← List.head?_eq_getElem?, head?_displayLines h.ends]
  · intro hstray
    have hlt : before.count '\n' < (displayLines before).length := by omega
    rw [hshown, List.getElem?_append_left hlt, List.getElem?_eq_getElem hlt, Option.getD_some]

/-- The characters of a line of a report. -/
def lineText (line : List Piece) : List Char :=
  line.flatMap fun p => p.text.toList

/-- Whether the second of some lines shows a line of the source, and the third marks `width` columns
of it, from the column `start` on. Both stand behind a gutter of four columns. -/
structure Marks (block : List (List Piece)) (shown : List Char) (start width : Nat) : Prop where
  /-- The line of the source. -/
  source : ∃ gutter, gutter.length = 4 ∧ block[1]?.map lineText = some (gutter ++ shown)
  /-- The marks. -/
  marks : ∃ gutter marks, gutter.length = 4 ∧ marks.length = width ∧ ' ' ∉ marks ∧
    block[2]?.map lineText = some (gutter ++ List.replicate (start - 1) ' ' ++ marks)

/-- **The lines that show a diagnostic** with a span mark columns of a line. -/
theorem marks_layoutOne (unicode : Bool) (filename : String) (lines : Option (List (List Char)))
    {d : Diagnostic} {span : Span} (h : d.span = some span) :
    Marks (layoutOne unicode filename lines d) (sourceLine lines span) (firstColumn span)
      (markWidth span (sourceLine lines span)) := by
  have hwidth : 0 < markWidth span (sourceLine lines span) := by
    unfold markWidth
    split
    · exact Nat.le_max_right _ _
    · exact Nat.le_max_right _ _
  simp only [layoutOne, h]
  cases unicode with
  | true =>
    refine ⟨⟨"  │ ".toList, rfl, ?_⟩, "  │ ".toList,
      '┯' :: List.replicate (markWidth span (sourceLine lines span) - 1) '━', rfl, ?_, ?_, ?_⟩
    · simp [lineText]
    · rw [List.length_cons, List.length_replicate]
      omega
    · simp [List.mem_replicate]
    · simp [lineText, repeated]
  | false =>
    refine ⟨⟨"  | ".toList, rfl, ?_⟩, "  ` ".toList,
      List.replicate (markWidth span (sourceLine lines span)) '^', rfl, ?_, ?_, ?_⟩
    · simp [lineText]
    · rw [List.length_replicate]
    · simp [List.mem_replicate]
    · simp [lineText, repeated]

/-- Lines show one line of the source. -/
theorem Marks.shown_eq {block : List (List Piece)} {shown shown' : List Char}
    {start start' width width' : Nat} (h : Marks block shown start width)
    (h' : Marks block shown' start' width') : shown = shown' := by
  obtain ⟨gutter, hgutter, hsource⟩ := h.source
  obtain ⟨gutter', hgutter', hsource'⟩ := h'.source
  exact (List.append_inj (Option.some.inj (hsource.symm.trans hsource'))
    (hgutter.trans hgutter'.symm)).2

/-- The first characters of a line, up to the first that does not have a property, are the first
characters of the line if these have the property. -/
theorem take_takeWhile {p : Char → Bool} {line : List Char} {n : Nat}
    (h : ∀ c ∈ line.take n, p c = true) : (line.takeWhile p).take n = line.take n := by
  induction line generalizing n with
  | nil => rfl
  | cons c line ih =>
    cases n with
    | zero => rfl
    | succ n =>
      rw [List.take_succ_cons, List.forall_mem_cons] at h
      rw [List.takeWhile_cons_of_pos h.1, List.take_succ_cons, List.take_succ_cons, ih h.2]

/-- How the lines that show a diagnostic stand to the line of the source on which its span starts,
and to what stands before that. -/
structure ShowsLine (source : List Char) (s : Span) (block : List (List Piece))
    (before line shown : List Char) : Prop where
  /-- The columns of a span within a line are marked. -/
  within : s.endLine = s.line →
    Marks block shown s.column.toNat (s.endColumn - s.column).toNat
  /-- The columns of any other span are marked up to the end of the line that is shown. -/
  beyond : s.endLine ≠ s.line →
    Marks block shown s.column.toNat ((shown.length + 1 - s.column.toNat).max 1)
  /-- The line is shown, up to the first line end in it. -/
  level : strayEnds before = 0 → shown = line.takeWhile fun c => !isLineEnd c
  /-- The text of a span before that line end stands above the marks. -/
  text : strayEnds before = 0 → s.endLine = s.line →
    (∀ c ∈ line.take (s.endColumn - 1).toNat, isLineEnd c = false) →
      s.textIn? source =
        some ((shown.drop (s.column.toNat - 1)).take (s.endColumn - s.column).toNat)
  /-- Behind line ends that are no line feeds, a line before it is shown. -/
  ahead : strayEnds before ≠ 0 → (displayLines before)[before.count '\n']? = some shown

/-- **The lines that show a diagnostic** with a span of the source. -/
theorem showsLine_layoutOne (unicode : Bool) (filename : String) {source : List Char}
    {d : Diagnostic} {s : Span} (hspan : d.span = some s) (hin : s.IsIn source) :
    ∃ before line after, IsLineOf source s.line before line after ∧
      ShowsLine source s (layoutOne unicode filename (some (displayLines source)) d) before line
        (sourceLine (some (displayLines source)) s) := by
  obtain ⟨line, c, hline, hcolumn, -, -⟩ := hin.start
  obtain ⟨before, after, hof⟩ := exists_isLineOf hline
  obtain ⟨hlevel, hahead⟩ := sourceLine_of_isLineOf hof
  have hmarks := marks_layoutOne unicode filename (some (displayLines source)) hspan
  have hfirst : firstColumn s = s.column.toNat := by
    rw [firstColumn, max_eq_right hcolumn]
  rw [hfirst] at hmarks
  refine ⟨before, line, after, hof, fun hsame => ?_, fun hother => ?_, hlevel,
    fun hnone hsame hends => ?_, hahead⟩
  · have hlt : s.column < s.endColumn :=
      hin.nonempty.elim (fun hlines => absurd hsame (ne_of_gt hlines)) And.right
    rw [markWidth, if_pos hsame, hfirst] at hmarks
    have hwidth : (s.endColumn - s.column.toNat).toNat.max 1 = (s.endColumn - s.column).toNat := by
      rw [Int.toNat_of_nonneg (by omega)]
      exact Nat.max_eq_left (by omega)
    rwa [hwidth] at hmarks
  · rwa [markWidth, if_neg hother, hfirst] at hmarks
  · rw [hlevel hnone, Span.textIn?, if_pos hsame.symm, hline, Option.map_some]
    have hstop : (s.endColumn - 1).toNat - (s.column - 1).toNat =
        (s.endColumn - s.column).toNat := by omega
    have hstart : s.column.toNat - 1 = (s.column - 1).toNat := by omega
    rw [hstart, ← hstop, ← List.drop_take, ← List.drop_take,
      take_takeWhile fun c hc => by simpa using hends c hc]

end Report

/-! ### Files -/

/-- A span of a source starts on a line with a number. -/
theorem Span.IsIn.positive {source : List Char} {s : Span} (h : s.IsIn source) : 0 < s.line := by
  obtain ⟨line, c, hline, -⟩ := h.start
  unfold lineAt? at hline
  split at hline
  · next hpositive => exact hpositive
  · cases hline

namespace Compilation

/-- However compiling ends, what is reported has a span of the source. -/
theorem Ending.isIn [Expression.Capacity]
    {options : CompileOptions} {source filename : String} {c : Compilation}
    (h : Ending options source filename c) :
    ∀ d ∈ c.report.diagnostics, ∃ s, d.span = some s ∧ s.IsIn source.toList := by
  have hdescribed : ∀ {tree : Syntax.Tree} {description : Description},
      description.IsOf options source tree →
        ∀ d ∈ description.findings.map (Finding.diagnostic filename),
          ∃ s, d.span = some s ∧ s.IsIn source.toList := by
    rintro tree description ⟨hparse, items, hitems, hdescribe⟩
    rw [List.forall_mem_map]
    exact Descriptor.isWithin_of_describe
      (fun item hitem => (Syntax.within_of_fileItems hparse hitems item hitem).locates) hdescribe
  cases h with
  | unparsed hunparsed =>
    obtain ⟨e, detail, message, hparse, -, -, rfl⟩ := hunparsed
    have hin := Syntax.isIn_of_parse_error hparse
    rw [List.forall_mem_singleton]
    exact ⟨e.span, if_pos hin.positive, hin⟩
  | withheld h => exact hdescribed h
  | generated h => exact hdescribed h

/-- A compilation reports on its source. -/
theorem Ending.source_eq [Expression.Capacity]
    {options : CompileOptions} {source filename : String} {c : Compilation}
    (h : Ending options source filename c) : c.report.source = some source := by
  cases h <;> rfl

end Compilation

/-- **The line and the columns that are shown** for each diagnostic of a file: the line on which its
span starts, up to the first line end in it, and the columns of the span; but behind a line end in
the wide sense that is no line feed, a line that stands before the one on which the span starts. -/
theorem compile_shows_lines [Expression.Capacity]
    (options : CompileOptions) {source filename : String}
    {c : Compilation} (h : compile options source filename = .ok c) (cwd : Path) (unicode : Bool) :
    ∃ blocks : List (List (List Piece)), c.report.layout cwd unicode = blocks.flatten ∧
      List.Forall₂ (fun d block => ∃ s before line after shown, d.span = some s ∧
        IsLineOf source.toList s.line before line after ∧
          Report.ShowsLine source.toList s block before line shown)
        c.report.diagnostics blocks := by
  have hending := Compilation.ending_of_compile h
  refine ⟨_, List.flatMap_def, ?_⟩
  rw [List.forall₂_map_right_iff, List.forall₂_same, hending.source_eq, Option.map_some]
  intro d hd
  obtain ⟨s, hspan, hin⟩ := hending.isIn d hd
  obtain ⟨before, line, after, hline, hshows⟩ := Report.showsLine_layoutOne unicode
    (Report.displayName cwd (if d.filename = "" then c.report.filename else d.filename)) hspan hin
  exact ⟨s, before, line, after, _, hspan, hline, hshows⟩

/-- A form feed on a line of its own, and a structure on the next one. -/
theorem exists_compile_formFeed :
    ∃ c d, compile {} "\x0c\nstruct S;\n" "<input>" = .ok c ∧ c.report.diagnostics = [d] ∧
      d.span = some ⟨2, 1, 2, 7⟩ := by
  have hrun : ((compile {} "\x0c\nstruct S;\n" "<input>").toOption.any fun c =>
      c.report.diagnostics.map Diagnostic.span = [some ⟨2, 1, 2, 7⟩]) = true := by
    decide +kernel
  obtain ⟨c, hc, hrun⟩ := (Option.any_eq_true _ _).mp hrun
  rw [Outcome.toOption_eq_some_iff] at hc
  obtain ⟨d, hd, hspan⟩ := List.map_eq_singleton_iff.mp (of_decide_eq_true hrun)
  exact ⟨c, d, hc, hd, hspan⟩

/-- What is shown for the structure behind the form feed. -/
theorem compile_shows_lines_formFeed :
    ∃ c d block, compile {} "\x0c\nstruct S;\n" "<input>" = .ok c ∧
      c.report.diagnostics = [d] ∧ c.report.layout ⟨.slash, ["work"]⟩ false = block ∧
        ∃ before line after shown,
          IsLineOf "\x0c\nstruct S;\n".toList 2 before line after ∧
            Report.ShowsLine "\x0c\nstruct S;\n".toList ⟨2, 1, 2, 7⟩ block before line shown := by
  obtain ⟨c, d, hc, hd, hspan⟩ := exists_compile_formFeed
  obtain ⟨blocks, hlayout, hblocks⟩ := compile_shows_lines {} hc ⟨.slash, ["work"]⟩ false
  rw [hd] at hblocks
  obtain ⟨block, rest, ⟨s, before, line, after, shown, hs, hline, hshows⟩, hrest, rfl⟩ :=
    List.forall₂_cons_left_iff.mp hblocks
  obtain rfl := List.forall₂_nil_left_iff.mp hrest
  obtain rfl := Option.some.inj (hs.symm.trans hspan)
  rw [List.flatten_singleton] at hlayout
  exact ⟨c, d, block, hc, hd, hlayout, before, line, after, shown, hline, hshows⟩

/-- **Not every line that is shown is the one meant**: for a structure behind a form feed another
line is. -/
theorem not_compile_shows_lines :
    ¬∀ (source : String) (c : Compilation), compile {} source "<input>" = .ok c →
      ∀ d ∈ c.report.diagnostics, ∀ s line, d.span = some s → s.endLine = s.line →
        lineAt? source.toList s.line = some line →
          Report.Marks (Report.layoutOne false "<input>" (some (displayLines source.toList)) d) line
            s.column.toNat (s.endColumn - s.column).toNat := by
  intro hall
  obtain ⟨c, d, hc, hd, hspan⟩ := exists_compile_formFeed
  have hmarks := hall _ c hc d (hd ▸ List.mem_cons_self) _ "struct S;".toList hspan rfl (by decide)
  have hshown := hmarks.shown_eq (Report.marks_layoutOne false "<input>" _ hspan)
  exact absurd hshown (by decide)

end Errata
