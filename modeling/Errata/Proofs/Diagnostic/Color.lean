import Errata.Proofs.Diagnostic.Layout

/-!
# Reports without their colour

Colour is put into a report by escape sequences around the pieces of its lines, and there is nothing
else that a report with colour holds and one without does not. So what is left of the one when its
escape sequences are deleted is the other, if none of what is reported holds an escape character.

* `behindSequence?`, `withoutSequences`: a text without its escape sequences.
* `withoutSequences_append`, `withoutSequences_escape`: what is deleted and what is kept, from left
  to right.
* `withoutSequences_piece`, `withoutSequences_line`, `withoutSequences_lines`: pieces, lines and
  rows of lines.
* `Report.Call`, `Report.ofCalls`: reports that are made call by call.
* **`withoutSequences_render`**: a report with colour without its escape sequences.
-/

namespace Errata

/-! ### Escape sequences -/

/-- The character that escape sequences start with. -/
def escapeChar : Char :=
  '\x1b'

/-- Whether a character is between two characters of the character set. -/
def isBetween (first last c : Char) : Bool :=
  first.toNat ≤ c.toNat && c.toNat ≤ last.toNat

/-- What stands behind an escape sequence, without the escape character that starts it. A sequence
that goes on with a bracket has parameters, then intermediate characters and a final one; any other
is one character long. -/
def behindSequence? : List Char → Option (List Char)
  | [] => none
  | '[' :: rest =>
    match (rest.dropWhile (isBetween '0' '?')).dropWhile (isBetween ' ' '/') with
    | [] => none
    | final :: behind => if isBetween '@' '~' final then some behind else none
  | c :: rest => if isBetween '@' '_' c then some rest else none

/-- Something is deleted with each escape sequence. -/
theorem length_behindSequence? {text behind : List Char} (h : behindSequence? text = some behind) :
    behind.length < text.length := by
  unfold behindSequence? at h
  split at h
  · cases h
  · next rest =>
    have hparameters := (rest.dropWhile_suffix (isBetween '0' '?')).length_le
    have hothers :=
      ((rest.dropWhile (isBetween '0' '?')).dropWhile_suffix (isBetween ' ' '/')).length_le
    split at h
    · cases h
    · next final more hmore =>
      rw [hmore] at hothers
      split at h
      · cases h
        simp only [List.length_cons] at hothers ⊢
        omega
      · cases h
  · split at h
    · cases h
      exact Nat.lt_succ_self _
    · cases h

/-- A text without its escape sequences. -/
def withoutSequences (text : List Char) : List Char :=
  match text with
  | [] => []
  | c :: rest =>
    if c = escapeChar then
      match _h : behindSequence? rest with
      | some behind => withoutSequences behind
      | none => c :: withoutSequences rest
    else c :: withoutSequences rest
termination_by text.length
decreasing_by
  · exact Nat.lt_succ_of_lt (length_behindSequence? _h)
  · exact Nat.lt_succ_self _
  · exact Nat.lt_succ_self _

/-- No text is left of none. -/
@[simp] theorem withoutSequences_nil : withoutSequences [] = [] := by
  rw [withoutSequences]

/-- What stands before the first escape character is kept. -/
theorem withoutSequences_append {front : List Char} (h : escapeChar ∉ front) (back : List Char) :
    withoutSequences (front ++ back) = front ++ withoutSequences back := by
  induction front with
  | nil => rfl
  | cons c front ih =>
    obtain ⟨hc, hfront⟩ := not_or.mp (mt List.mem_cons.mpr h)
    rw [List.cons_append, withoutSequences, if_neg (Ne.symm hc), ih hfront, List.cons_append]

/-- A mark of a colour is an escape sequence. -/
theorem behindSequence?_mark (n : Nat) (back : List Char) :
    behindSequence? ('[' :: ((toString n).toList ++ 'm' :: back)) = some back := by
  have hdigits : ∀ c ∈ (toString n).toList, isBetween '0' '?' c = true := by
    intro c hc
    have hwritten : toString n = n.repr := rfl
    rw [hwritten, Nat.toList_repr] at hc
    have hdigit := Nat.isDigit_of_mem_toDigits (by decide) (by decide) hc
    simp only [Char.isDigit, ge_iff_le, Bool.and_eq_true, decide_eq_true_eq] at hdigit
    have hle : 48 ≤ c.toNat ∧ c.toNat ≤ 57 := hdigit
    simp only [isBetween, Bool.and_eq_true, decide_eq_true_eq]
    exact ⟨hle.1, hle.2.trans (by decide)⟩
  have hfinal : ('m' :: back).dropWhile (isBetween '0' '?') = 'm' :: back := rfl
  have hmark : ('m' :: back).dropWhile (isBetween ' ' '/') = 'm' :: back := rfl
  rw [behindSequence?, List.dropWhile_append_of_pos hdigits, hfinal, hmark]
  rfl

/-- **A mark of a colour is deleted.** -/
theorem withoutSequences_escape (n : Nat) (back : List Char) :
    withoutSequences ((Paint.escape n).toList ++ back) = withoutSequences back := by
  have hmark : (Paint.escape n).toList ++ back =
      escapeChar :: '[' :: ((toString n).toList ++ 'm' :: back) := by
    simp [Paint.escape, escapeChar]
  rw [hmark, withoutSequences, if_pos rfl]
  split
  · next behind hbehind =>
    rw [behindSequence?_mark] at hbehind
    rw [Option.some.inj hbehind]
  · next hnone =>
    rw [behindSequence?_mark] at hnone
    cases hnone

/-- Several marks are deleted. -/
theorem withoutSequences_escapes (numbers : List Nat) (back : List Char) :
    withoutSequences ((String.join (numbers.map Paint.escape)).toList ++ back) =
      withoutSequences back := by
  induction numbers with
  | nil => rw [List.map_nil, String.join_nil, String.toList_empty, List.nil_append]
  | cons n numbers ih =>
    rw [List.map_cons, String.join_cons, String.toList_append, List.append_assoc,
      withoutSequences_escape, ih]

/-! ### Pieces and lines -/

/-- The colour of a piece is deleted, and its text is kept. -/
theorem withoutSequences_piece {p : Piece} (h : escapeChar ∉ p.text.toList) (back : List Char) :
    withoutSequences ((p.render true).toList ++ back) =
      (p.render false).toList ++ withoutSequences back := by
  have hplain : p.render false = p.text := rfl
  rw [hplain, Piece.render]
  split
  · rw [String.toList_append, String.toList_append, List.append_assoc, List.append_assoc,
      withoutSequences_escapes, withoutSequences_append h, withoutSequences_escape]
  · exact withoutSequences_append h back

/-- The colours of a line are deleted, and its text is kept. -/
theorem withoutSequences_line {line : List Piece} (h : ∀ p ∈ line, escapeChar ∉ p.text.toList)
    (back : List Char) :
    withoutSequences ((String.join (line.map (Piece.render true))).toList ++ back) =
      (String.join (line.map (Piece.render false))).toList ++ withoutSequences back := by
  induction line with
  | nil => rfl
  | cons p line ih =>
    obtain ⟨hp, hline⟩ := List.forall_mem_cons.mp h
    simp only [List.map_cons, String.join_cons, String.toList_append, List.append_assoc]
    rw [withoutSequences_piece hp, ih hline]

/-- **The colours of lines are deleted**, and their texts are kept. -/
theorem withoutSequences_lines {lines : List (List Piece)}
    (h : ∀ line ∈ lines, ∀ p ∈ line, escapeChar ∉ p.text.toList) :
    withoutSequences ("\n".intercalate
        (lines.map fun line => String.join (line.map (Piece.render true)))).toList =
      ("\n".intercalate
        (lines.map fun line => String.join (line.map (Piece.render false)))).toList := by
  induction lines with
  | nil => simp
  | cons line lines ih =>
    obtain ⟨hline, hlines⟩ := List.forall_mem_cons.mp h
    cases lines with
    | nil => simpa using withoutSequences_line hline []
    | cons second lines =>
      simp only [List.map_cons, String.toList_intercalate, List.intercalate_cons_cons,
        List.append_assoc] at ih ⊢
      rw [withoutSequences_line hline, withoutSequences_append (by decide), ih hlines]

/-! ### Reports -/

namespace Report

/-- A call that adds a diagnostic to a report. -/
structure Call where
  /-- Whether it is an error or a warning. -/
  severity : Severity
  /-- The label of its code. -/
  label : String
  /-- The message. -/
  message : String
  /-- The source text it is about. -/
  span : Option Span

/-- The report that calls make of an empty one. -/
def ofCalls (source : Option String) (filename : String) (calls : List Call) : Report :=
  calls.foldl (fun r c => r.add c.severity c.label c.message c.span) { source, filename }

/-- What is in a report that is made call by call. -/
theorem ofCalls_eq (source : Option String) (filename : String) (calls : List Call) :
    ofCalls source filename calls = ⟨source, filename,
      calls.map fun c => ⟨c.severity, c.label, c.message, c.span, filename⟩⟩ := by
  have hadd : ∀ earlier : List Diagnostic,
      calls.foldl (fun r c => r.add c.severity c.label c.message c.span)
        (Report.mk source filename earlier) = ⟨source, filename,
          earlier ++ calls.map fun c => ⟨c.severity, c.label, c.message, c.span, filename⟩⟩ := by
    induction calls with
    | nil => simp
    | cons c calls ih =>
      intro earlier
      rw [List.foldl_cons, add, ih, List.map_cons, List.append_assoc, List.singleton_append]
  exact hadd []

/-- **A report with colour, without its escape sequences,** is the report without colour, in either
style and for all diagnostics, if there is no escape character in what is reported. -/
theorem withoutSequences_render (source : Option String) (filename : String) (calls : List Call)
    (cwd : Path) (unicode : Bool) (hsource : ∀ text ∈ source, escapeChar ∉ text.toList)
    (hfilename : escapeChar ∉ filename.toList)
    (hcalls : ∀ c ∈ calls, escapeChar ∉ c.label.toList ∧ escapeChar ∉ c.message.toList) :
    withoutSequences ((ofCalls source filename calls).render cwd ⟨true, unicode⟩).toList =
      ((ofCalls source filename calls).render cwd ⟨false, unicode⟩).toList := by
  rw [render, render]
  refine withoutSequences_lines fun line hline => ?_
  rw [ofCalls_eq, layout] at hline
  obtain ⟨d, hd, hline⟩ := List.mem_flatMap.mp hline
  obtain ⟨c, hc, rfl⟩ := List.mem_map.mp hd
  obtain ⟨hlabel, hmessage⟩ := hcalls c hc
  dsimp only at hline
  rw [ite_self] at hline
  have hcontrol : IsControl escapeChar := by decide
  refine notMem_layoutOne hcontrol unicode (d := ⟨_, c.label, c.message, _, _⟩)
    (notMem_displayName hcontrol hfilename cwd) hlabel hmessage (fun span hmem => ?_) line hline
  obtain ⟨text, htext, hmem⟩ := (mem_sourceLine hmem).1
  exact hsource text htext hmem

/-- A warning behind the end of the source, with a span that ends before it starts. -/
theorem withoutSequences_render_reversed :
    withoutSequences ((ofCalls (some "enum E") "e.eg"
        [⟨.error, "CE0100", "unexpected end of file", some ⟨1, 7, 1, 8⟩⟩,
          ⟨.warning, "CE2008", "late", some ⟨9, 4, 2, -3⟩⟩]).render
            ⟨.slash, ["work"]⟩ ⟨true, true⟩).toList =
      ((ofCalls (some "enum E") "e.eg"
        [⟨.error, "CE0100", "unexpected end of file", some ⟨1, 7, 1, 8⟩⟩,
          ⟨.warning, "CE2008", "late", some ⟨9, 4, 2, -3⟩⟩]).render
            ⟨.slash, ["work"]⟩ ⟨false, true⟩).toList :=
  withoutSequences_render _ _ _ _ _ (by simp [escapeChar]) (by decide) (by simp [escapeChar])

end Report

end Errata
