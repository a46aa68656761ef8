import Errata.Proofs.Descriptor.WellFormed
import Errata.Proofs.Message.Escape
import Errata.Proofs.Message.Offset
import Errata.Proofs.Syntax.Position

/-!
# Places within literals

A place within a literal is counted in code points of the decoded text, and reported as a line and
columns of the source. Between the two lie the escapes, which are wider than what they stand for.

* `Token.IsIn.exists_literal`: the token of a literal is a body between two quotes.
* `Span.IsInside`: spans that lie between the quotes of a token.
* `exists_narrowed`: **a part of the decoded text is reported where it is written.**
* `isInside_of_compileLiteral`: whatever is wrong with a literal is reported inside it.
* **`compileLiteral_locates`**: what compiling a literal reports and the arguments it finds lie
  inside the literal, and an argument is spelled by the source under its span.
-/

set_option linter.unusedSectionVars false

namespace Errata

/-- Whether a span lies between the first and the last character of a token, on the line of that
token, and is not empty. -/
structure Span.IsInside (t : Syntax.Token) (s : Span) : Prop where
  /-- It starts on the line of the token. -/
  line : s.line = t.span.line
  /-- It ends on that line. -/
  endLine : s.endLine = t.span.line
  /-- So does the token. -/
  endLine_token : t.span.endLine = t.span.line
  /-- It starts behind the first character of the token. -/
  start : t.span.column < s.column
  /-- It is not empty. -/
  nonempty : s.column < s.endColumn
  /-- It ends before the last character of the token. -/
  stop : s.endColumn < t.span.endColumn

namespace Syntax

/-! ### Tokens of literals -/

/-- No terminal is wider than that of literals. -/
theorem narrowed_ne_string {accepted : List Terminal} {t : Terminal} {lexeme : List Char}
    (h : narrowed accepted t lexeme = .string) : t = .string := by
  unfold narrowed at h
  cases hf : accepted.find? fun s => s.wider? = some t && s.fixedText? = some lexeme with
  | none =>
    rw [hf] at h
    exact h
  | some s =>
    rw [hf] at h
    obtain rfl : s = .string := h
    have hs := List.find?_some hf
    simp [Terminal.wider?] at hs

/-- **The token of a literal** is a body between two quotes, in which every backslash takes the next
character along. -/
theorem Token.IsIn.exists_literal {source : List Char} {t : Token} (ht : t.IsIn source)
    (hs : t.terminal = .string) :
    ∃ raw, t.text = '"' :: raw ++ ['"'] ∧ (t.text.drop 1).dropLast = raw ∧
      Escape.IsPaired raw := by
  obtain ⟨accepted, before, rest, after, rfl, hfirst⟩ := ht
  obtain ⟨_, terminal, _, -, hfound, -⟩ := List.findSome?_eq_some_iff.mp hfirst
  obtain ⟨⟨lexeme, rest'⟩, hl, heq⟩ := Option.map_eq_some_iff.mp hfound
  cases heq
  obtain rfl := narrowed_ne_string hs
  simp only [Terminal.lexeme?] at hl
  split at hl
  · obtain ⟨⟨body, more⟩, hb, heq⟩ := Option.map_eq_some_iff.mp hl
    cases heq
    obtain ⟨raw, rfl, hraw⟩ := Escape.isPaired_of_stringBody hb
    exact ⟨raw, rfl, by simp, hraw⟩
  · cases hl

/-- A token of a source stands on one line, as wide as its text is long. -/
theorem Token.IsIn.span_eq {source : List Char} {t : Token} (ht : t.IsIn source) :
    t.span.endLine = t.span.line ∧ t.span.endColumn = t.span.column + t.text.length := by
  obtain ⟨before, after, -, -, hextent⟩ := ht.exists_append
  have hnewline := ht.newline_notMem
  simp only [Token.span, Extent.span, hextent, Position.line_ofPrefix, Position.column_ofPrefix,
    List.count_append, List.count_eq_zero.mpr hnewline, lastLine_append _ hnewline,
    List.length_append, Nat.add_zero, true_and]
  omega

/-- A part of the body of a literal has its span inside the token. -/
theorem Token.IsIn.isInside_narrow {source : List Char} {t : Token} (ht : t.IsIn source)
    {front middle back : List Char} (htext : t.text = '"' :: (front ++ middle ++ back) ++ ['"'])
    (hne : middle ≠ []) :
    (t.span.narrow (1 + front.length) middle.length).IsInside t := by
  obtain ⟨hline, hcolumn⟩ := ht.span_eq
  have hlength := congrArg List.length htext
  have hpos := List.length_pos_iff.mpr hne
  simp only [List.length_append, List.length_cons, List.length_nil] at hlength
  constructor
  · rfl
  · rfl
  · exact hline
  · simp only [Span.narrow]
    omega
  · simp only [Span.narrow]
    omega
  · simp only [Span.narrow, hcolumn, hlength]
    omega

/-- A part of the body of a literal stands under its span. -/
theorem Token.IsIn.textIn?_narrow {source : List Char} {t : Token} (ht : t.IsIn source)
    {front middle back : List Char} (htext : t.text = '"' :: (front ++ middle ++ back) ++ ['"'])
    (hne : middle ≠ []) :
    (t.span.narrow (1 + front.length) middle.length).textIn? source = some middle := by
  obtain ⟨before, after, hsource, -, hextent⟩ := ht.exists_append
  have hnewline := ht.newline_notMem
  have hpos := List.length_pos_iff.mpr hne
  rw [htext] at hnewline
  have hfront : '\n' ∉ '"' :: front := fun h => hnewline (by simp_all)
  have hmiddle : '\n' ∉ middle := fun h => hnewline (by simp_all)
  have hsplit : source = (before ++ '"' :: front) ++ middle ++ (back ++ '"' :: after) := by
    rw [hsource, htext]
    simp
  rw [hsplit]
  refine textIn?_eq hmiddle ?_ rfl ?_ ?_
  · simp only [Span.narrow, Token.span, Extent.span, hextent, Position.line_ofPrefix,
      List.count_append, List.count_eq_zero.mpr hfront, Nat.add_zero]
  · simp only [Span.narrow, Token.span, Extent.span, hextent, Position.column_ofPrefix,
      lastLine_append _ hfront, List.length_append, List.length_cons]
    omega
  · simp only [Span.narrow]
    omega

/-- A span inside a token of a source is in the source. -/
theorem Token.IsIn.isIn_of_isInside {source : List Char} {t : Token} (ht : t.IsIn source) {s : Span}
    (h : s.IsInside t) : s.IsIn source := by
  obtain ⟨hline, hcolumn⟩ := ht.span_eq
  obtain ⟨before, after, hsource, -, hextent⟩ := ht.exists_append
  have hnewline := ht.newline_notMem
  have hafter := lineAt?_ofPrefix before (t.text ++ after)
  rw [← List.append_assoc, ← hsource, List.takeWhile_append_of_pos (by
    intro c hc
    simpa using ne_of_mem_of_not_mem hc hnewline)] at hafter
  have hstart : t.span.line = (Position.ofPrefix before).line ∧
      t.span.column = (lastLine before).length + 1 := by
    rw [Token.span, Extent.span, hextent]
    exact ⟨rfl, by rw [Position.column_ofPrefix]; rfl⟩
  have hs := h.start
  have hn := h.nonempty
  have he := h.stop
  obtain ⟨k, hk⟩ : ∃ k : Nat, s.column = (lastLine before).length + 1 + k :=
    ⟨(s.column - ((lastLine before).length + 1)).toNat, by omega⟩
  have hlt : k < t.text.length := by omega
  refine ⟨⟨_, t.text[k], by rw [h.line, hstart.1]; exact hafter, by omega, ?_, ?_⟩, Or.inr ?_,
    ⟨_, by rw [h.endLine, hstart.1]; exact hafter, by omega, ?_⟩⟩
  · have hindex : (s.column - 1).toNat = (lastLine before).length + k := by omega
    rw [hindex, List.getElem?_append_right (Nat.le_add_right _ _), Nat.add_sub_cancel_left,
      List.getElem?_append_left hlt, List.getElem?_eq_getElem hlt]
  · exact ne_of_mem_of_not_mem (List.getElem_mem hlt) hnewline
  · exact ⟨by rw [h.line, h.endLine], hn⟩
  · simp only [List.length_append]
    omega

end Syntax

namespace Descriptor

open Syntax (Token)

variable {source : List Char} {t : Token}

/-! ### Parts of the decoded text -/

/-- A part of the decoded text has the span of what spells it. -/
theorem exists_narrowed_eq {raw : List Char} {d : Escape.Decoded} (h : Escape.decode raw = .ok d)
    {before part after : Text} (ht : d.text = before ++ part ++ after) (literal : Span) :
    ∃ front middle back, raw = front ++ middle ++ back ∧ (part ≠ [] → middle ≠ []) ∧
      narrowed literal d before.length part.length =
        literal.narrow (1 + front.length) middle.length ∧
      ∃ e, Escape.decode middle = .ok e ∧ e.text = part := by
  obtain ⟨front, middle, back, hraw, hstart, hstop, hne, he⟩ := Escape.exists_raw_of_decode h ht
  refine ⟨front, middle, back, hraw, hne, ?_, he⟩
  have hlength := congrArg List.length ht
  simp only [List.length_append] at hlength hstop
  simp only [narrowed]
  rw [Nat.min_eq_left (by omega), Nat.min_eq_left (by omega), hstart, hstop, Option.getD_some,
    Option.getD_some]
  congr 1
  omega

/-- **A part of the decoded text is reported where it is written**: inside the token, and the source
under its span decodes to it. -/
theorem exists_narrowed (ht : t.IsIn source) (hs : t.terminal = .string) {d : Escape.Decoded}
    (h : Escape.decode (t.text.drop 1).dropLast = .ok d) {before part after : Text}
    (hd : d.text = before ++ part ++ after) (hne : part ≠ []) :
    (narrowed t.span d before.length part.length).IsInside t ∧
      ∃ raw e, (narrowed t.span d before.length part.length).textIn? source = some raw ∧
        Escape.decode raw = .ok e ∧ e.text = part := by
  obtain ⟨raw, htext, hbody, -⟩ := ht.exists_literal hs
  rw [hbody] at h
  obtain ⟨front, middle, back, rfl, hmiddle, hspan, e, he, hpart⟩ :=
    exists_narrowed_eq h hd t.span
  rw [hspan]
  exact ⟨ht.isInside_narrow htext (hmiddle hne), middle, e,
    ht.textIn?_narrow htext (hmiddle hne), he, hpart⟩

/-! ### Arguments -/

/-- The characters of a text make up the text. -/
theorem ofChars_of_characters? {text : Text} {chars : List Char}
    (h : text.characters? = some chars) : Text.ofChars chars = text := by
  unfold Text.characters? at h
  induction text generalizing chars with
  | nil =>
    cases h
    rfl
  | cons p text ih =>
    rw [List.mapM_cons] at h
    obtain ⟨c, hp, hrest⟩ := Option.bind_eq_some_iff.mp h
    obtain ⟨rest, htext, hchars⟩ := Option.bind_eq_some_iff.mp hrest
    cases hchars
    cases p with
    | char d =>
      cases hp
      exact congrArg (.char c :: ·) (ih htext)
    | surrogate offset => cases hp

/-- The string that is made of a text without surrogates has that text. -/
theorem ofString_filterMap {text : Text} {chars : List Char} (h : text.characters? = some chars) :
    Text.ofString (String.ofList (text.filterMap CodePoint.char?)) = text := by
  rw [Text.ofString, String.toList_ofList, filterMap_of_characters? h, ofChars_of_characters? h]

section

variable [Expression.Capacity]

/-- An argument has the span it is given, its offset, and its text. -/
theorem eq_of_argument {span : Span} {a : Placeholder.Argument} {b : Argument}
    (h : argument span a = .ok b) :
    b.span = some span ∧ b.offset = a.offset ∧ Text.ofString b.text = a.text := by
  unfold argument at h
  dsimp only at h
  split at h
  · next hname =>
    cases h
    unfold isName at hname
    split at hname
    · next chars hchars => exact ⟨rfl, rfl, ofString_filterMap hchars⟩
    · cases hname
  · obtain ⟨e, he, hb⟩ := Outcome.bind_eq_ok_iff.mp h
    cases hb
    rcases expression_eq a.text span with ⟨hr, -⟩ | ⟨-, u, hu⟩
    · exact ⟨rfl, rfl, ofString_filterMap (characters?_of_isPlain_strip hr.isPlain)⟩
    · rw [hu] at he
      cases he

/-- Described arguments keep their offsets. -/
theorem offsets_of_arguments {place : Placeholder.Argument → Span}
    {as : List Placeholder.Argument} {bs : List Argument}
    (h : as.mapM (fun a => argument (place a) a) = .ok bs) :
    bs.map Argument.offset = as.map Placeholder.Argument.offset := by
  have hmade := Outcome.mapM_eq_ok_iff.mp h
  clear h
  induction hmade with
  | nil => rfl
  | cons hab _ ih => rw [List.map_cons, List.map_cons, (eq_of_argument hab).2.1, ih]

/-- What is wrong with an argument is reported at the span it is given. -/
theorem span_of_argument_error {span : Span} {a : Placeholder.Argument} {f : Finding}
    (h : argument span a = .error (.violation f)) : f.span = some span := by
  obtain ⟨-, he⟩ := argument_eq_error_iff.mp h
  rcases expression_eq a.text span with ⟨-, hok | ⟨reason, herr⟩⟩ | ⟨-, u, herr⟩
  · rw [hok] at he
    cases he
  · rw [herr] at he
    cases he
    rfl
  · rw [herr] at he
    cases he

/-! ### Literals -/

/-- What compiling a literal comes to: an invalid escape, a fault, or the outcome of its
arguments. -/
theorem compileLiteral_cases (strict : Bool) (t : Token) :
    (∃ e, Escape.decode (t.text.drop 1).dropLast = .error e ∧
      compileLiteral strict t = .error (violation (.invalidEscape (String.ofList e.escape))
        (t.span.narrow (1 + e.offset) e.escape.length))) ∨
    ∃ d, Escape.decode (t.text.drop 1).dropLast = .ok d ∧
      ((∃ f, Placeholder.compile strict d.text = .error f ∧
        compileLiteral strict t =
          .error (violation (problemOfFault f) (narrowed t.span d f.offset f.length))) ∨
      ∃ m, Placeholder.compile strict d.text = .ok m ∧
        compileLiteral strict t =
          (m.arguments.mapM fun a => argument (narrowed t.span d a.offset a.text.length) a).map
            fun arguments => ⟨m.template, arguments, d.text, t.span⟩) := by
  unfold compileLiteral
  cases hdecode : Escape.decode (t.text.drop 1).dropLast with
  | error e => exact Or.inl ⟨e, rfl, rfl⟩
  | ok d =>
    refine Or.inr ⟨d, rfl, ?_⟩
    dsimp only
    cases hcompile : Placeholder.compile strict d.text with
    | error f => exact Or.inl ⟨f, rfl, rfl⟩
    | ok m => exact Or.inr ⟨m, rfl, rfl⟩

/-- **Whatever is wrong with a literal** is reported inside it. -/
theorem isInside_of_compileLiteral (ht : t.IsIn source) (hs : t.terminal = .string) {strict : Bool}
    {f : Finding} (h : compileLiteral strict t = .error (.violation f)) :
    ∃ s, f.span = some s ∧ s.IsInside t := by
  rcases compileLiteral_cases strict t with
    ⟨e, he, heq⟩ | ⟨d, hd, ⟨fault, hfault, heq⟩ | ⟨m, hm, heq⟩⟩
  · obtain ⟨raw, htext, hbody, -⟩ := ht.exists_literal hs
    rw [hbody] at he
    obtain ⟨front, back, rfl, hoffset, hne⟩ := Escape.exists_append_of_decode_error he
    rw [heq] at h
    cases h
    refine ⟨_, rfl, ?_⟩
    rw [hoffset]
    exact ht.isInside_narrow htext hne
  · obtain ⟨before, part, after, hliteral, hne, hoffset, hlength⟩ :=
      Placeholder.isIn_of_compile hfault
    rw [heq] at h
    cases h
    refine ⟨_, rfl, ?_⟩
    rw [hoffset, hlength, Nat.zero_add]
    exact (exists_narrowed ht hs hd hliteral hne).1
  · obtain ⟨hstands, -⟩ := Placeholder.standsIn_of_compile hm
    rw [heq, Outcome.map_eq_error_iff, Outcome.mapM_eq_error_iff] at h
    obtain ⟨done, a, rest, hargs, -, ha⟩ := h
    have hin := hstands a (by simp [hargs])
    obtain ⟨before, after, hliteral, hoffset⟩ := hin.exists_append
    refine ⟨_, span_of_argument_error ha, ?_⟩
    rw [hoffset]
    exact (exists_narrowed ht hs hd hliteral hin.1).1

/-- **The arguments of a compiled literal** stand in the decoded literal one behind the other, each
directly behind an opening brace. They have spans inside the literal, and the source under the span
of an argument decodes to it. -/
theorem arguments_of_compileLiteral (ht : t.IsIn source) (hs : t.terminal = .string) {strict : Bool}
    {m : Message} (h : compileLiteral strict t = .ok m) :
    (∃ d, Escape.decode (t.text.drop 1).dropLast = .ok d ∧ m.literal = d.text) ∧
      m.arguments.Pairwise (·.offset < ·.offset) ∧
      ∀ a ∈ m.arguments, ∃ s, a.span = some s ∧ s.IsInside t ∧
        (∃ before after, m.literal = before ++ .char '{' :: Text.ofString a.text ++ after ∧
          a.offset = before.length + 1) ∧
        ∃ raw d, s.textIn? source = some raw ∧ Escape.decode raw = .ok d ∧
          d.text = Text.ofString a.text := by
  rcases compileLiteral_cases strict t with
    ⟨e, -, heq⟩ | ⟨d, hd, ⟨fault, -, heq⟩ | ⟨p, hp, heq⟩⟩
  · rw [heq] at h
    cases h
  · rw [heq] at h
    cases h
  · rw [heq] at h
    obtain ⟨arguments, harguments, rfl⟩ := Outcome.map_eq_ok_iff.mp h
    obtain ⟨hstands, hsorted⟩ := Placeholder.standsIn_of_compile hp
    refine ⟨⟨d, hd, rfl⟩, ?_, fun b hb => ?_⟩
    · rw [← List.pairwise_map, offsets_of_arguments harguments, List.pairwise_map]
      exact hsorted
    · obtain ⟨a, ha, hab⟩ := Outcome.exists_of_mem_mapM harguments hb
      obtain ⟨hspan, hoffset, htext⟩ := eq_of_argument hab
      obtain ⟨before, after, hliteral, hstart⟩ := (hstands a ha).exists_append
      obtain ⟨hinside, raw, e, hraw, he, hpart⟩ :=
        exists_narrowed ht hs hd hliteral (hstands a ha).1
      rw [← hstart] at hinside hraw
      refine ⟨_, hspan, hinside, ⟨before, after, ?_, ?_⟩, raw, e, hraw, he, ?_⟩
      · rw [htext, hliteral]
        simp
      · rw [hoffset, hstart]
        simp
      · rw [hpart, htext]

/-- Decoding a literal never comes to a backslash that nothing follows. -/
theorem escape_ne_of_decode_error (ht : t.IsIn source) (hs : t.terminal = .string)
    {e : Escape.Invalid} (h : Escape.decode (t.text.drop 1).dropLast = .error e) :
    e.escape ≠ ['\\'] := by
  obtain ⟨raw, -, hbody, hpaired⟩ := ht.exists_literal hs
  rw [hbody] at h
  exact Escape.escape_ne_of_isPaired hpaired h

/-- **What compiling a literal reports lies inside the literal**, and so does every argument it
finds. The arguments stand in the decoded literal one behind the other, each directly behind an
opening brace, and the source under the span of an argument decodes to the argument. Decoding never
comes to a backslash that nothing follows. -/
theorem compileLiteral_locates (ht : t.IsIn source) (hs : t.terminal = .string) (strict : Bool) :
    (∀ f, compileLiteral strict t = .error (.violation f) →
      ∃ s, f.span = some s ∧ s.IsInside t) ∧
    (∀ m, compileLiteral strict t = .ok m →
      (∃ d, Escape.decode (t.text.drop 1).dropLast = .ok d ∧ m.literal = d.text) ∧
      m.arguments.Pairwise (·.offset < ·.offset) ∧
      ∀ a ∈ m.arguments, ∃ s, a.span = some s ∧ s.IsInside t ∧
        (∃ before after, m.literal = before ++ .char '{' :: Text.ofString a.text ++ after ∧
          a.offset = before.length + 1) ∧
        ∃ raw d, s.textIn? source = some raw ∧ Escape.decode raw = .ok d ∧
          d.text = Text.ofString a.text) ∧
    ∀ e, Escape.decode (t.text.drop 1).dropLast = .error e → e.escape ≠ ['\\'] :=
  ⟨fun _ hf => isInside_of_compileLiteral ht hs hf,
    fun _ hm => arguments_of_compileLiteral ht hs hm,
    fun _ he => escape_ne_of_decode_error ht hs he⟩

end

/-- The argument behind an escape, which is two characters wide and stands for one. -/
theorem compileLiteral_locates_escape :
    ∃ m, compileLiteral true
        ⟨.string, "\"\\t\x7bname\x7d\"".toList, ⟨⟨4, 1, 5⟩, ⟨14, 1, 15⟩⟩⟩ = .ok m ∧
      m.arguments.map Argument.span = [some ⟨1, 9, 1, 13⟩] ∧
      ∀ a ∈ m.arguments, ∃ s, a.span = some s ∧ ∃ raw d,
        s.textIn? "#[x(\"\\t\x7bname\x7d\")]".toList = some raw ∧
          Escape.decode raw = .ok d ∧ d.text = Text.ofString a.text := by
  have hrun : ((compileLiteral true
      ⟨.string, "\"\\t\x7bname\x7d\"".toList, ⟨⟨4, 1, 5⟩, ⟨14, 1, 15⟩⟩⟩).toOption.any fun m =>
        m.arguments.map Argument.span = [some ⟨1, 9, 1, 13⟩]) = true := by decide +kernel
  obtain ⟨m, hm, hspans⟩ := (Option.any_eq_true _ _).mp hrun
  rw [Outcome.toOption_eq_some_iff] at hm
  have ht : Token.IsIn "#[x(\"\\t\x7bname\x7d\")]".toList
      ⟨.string, "\"\\t\x7bname\x7d\"".toList, ⟨⟨4, 1, 5⟩, ⟨14, 1, 15⟩⟩⟩ :=
    ⟨[.string], "#[x(".toList, "\"\\t\x7bname\x7d\")]".toList, ")]".toList, by decide,
      by decide⟩
  obtain ⟨-, -, harguments⟩ := (compileLiteral_locates ht rfl true).2.1 m hm
  refine ⟨m, hm, of_decide_eq_true hspans, fun a ha => ?_⟩
  obtain ⟨s, hs, -, -, hraw⟩ := harguments a ha
  exact ⟨s, hs, hraw⟩

end Descriptor

end Errata
