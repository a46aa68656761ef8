import Errata.Proofs.Outcome
import Errata.Proofs.Syntax.Boundary

/-!
# White space and comments do not change the parse tree

White space or a comment may be put at either end of a source and wherever a token starts or ends.
Where the source ends in a line comment that no line feed ends, what is put behind belongs to that
comment up to its first line feed. So a block comment is cut there if it holds a line feed.

* `IsTrivia`: white space, or a comment.
* `IsCut`: the ends of a source and of its tokens.
* `EndsInComment`: sources with such a line comment at their end.
* `isBoundary_or_endsInComment`: a cut is a place between tokens, but for that end.
* **`parse_trivia`**: the parse tree of a source with white space or a comment put into it.
* `not_parse_trivia`: a block comment at that end may be no comment any more.
-/

namespace Errata.Syntax

/-! ### White space and comments -/

/-- White space, a line comment with its line feed, or a block comment. -/
inductive IsTrivia : List Char → Prop where
  /-- White space. -/
  | blanks {text : List Char} (h : ∀ c ∈ text, isSpacing c = true) : IsTrivia text
  /-- A comment. -/
  | comment {text : List Char} (h : IsComment text) : IsTrivia text

/-- White space is a gap. -/
theorem isGap_of_blanks {text : List Char} (h : ∀ c ∈ text, isSpacing c = true) : IsGap text := by
  induction text with
  | nil => exact .nil
  | cons c text ih =>
    rw [List.forall_mem_cons] at h
    exact .blank h.1 (ih h.2)

/-- White space and comments are gaps. -/
theorem IsTrivia.isGap {text : List Char} (h : IsTrivia text) : IsGap text := by
  cases h with
  | blanks h => exact isGap_of_blanks h
  | comment h => exact h.isGap

/-- What white space or a comment holds behind its first line feed is a gap, unless it is a block
comment. -/
theorem IsTrivia.isGap_behind {text line rest : List Char} (h : IsTrivia text)
    (htext : text = line ++ '\n' :: rest) : IsGap rest ∨ ['/', '*'] <+: text := by
  cases h with
  | blanks h =>
    refine Or.inl (isGap_of_blanks fun c hc => h c ?_)
    rw [htext]
    exact List.mem_append_right line (List.mem_cons_of_mem _ hc)
  | comment h =>
    cases h with
    | @line body hbody =>
      have hfirst : '\n' ∉ '/' :: '/' :: body := by simpa using hbody
      have heq : ('/' :: '/' :: body) ++ '\n' :: [] = line ++ '\n' :: rest := htext
      obtain ⟨-, -, rfl⟩ := (List.append_cons_inj_of_notMem hfirst List.not_mem_nil).mp heq
      exact Or.inl .nil
    | @block body => exact Or.inr ⟨body, rfl⟩

/-- **Behind a line comment without its line feed** a text belongs to the comment up to its first
line feed, and what follows is skipped if it is a gap. -/
theorem isTail_append {body text : List Char} (hbody : '\n' ∉ body)
    (h : ∀ line rest, text = line ++ '\n' :: rest → '\n' ∉ line → IsGap rest) :
    IsTail ('/' :: '/' :: body ++ text) := by
  by_cases hline : '\n' ∈ text
  · obtain ⟨line, rest, rfl, hbefore⟩ := List.eq_append_cons_of_mem hline
    have hcomment : IsComment ('/' :: '/' :: (body ++ line ++ ['\n'])) :=
      .line (by simpa using ⟨hbody, hbefore⟩)
    have hgap := hcomment.isGap.append (h line rest rfl hbefore)
    have heq : '/' :: '/' :: (body ++ line ++ ['\n']) ++ rest =
        '/' :: '/' :: body ++ (line ++ '\n' :: rest) := by
      simp
    rw [← heq]
    exact .gap hgap
  · have hopen : '\n' ∉ body ++ text := by simpa using ⟨hbody, hline⟩
    exact .unended .nil hopen

/-! ### Cuts -/

variable {before after text : List Char} {tree : Tree}

/-- Where a source is cut at one of its ends, or where a token starts or ends. -/
def IsCut (before after : List Char) : Prop :=
  before = [] ∨ after = [] ∨ ∃ t ∈ tokens (before ++ after),
    t.extent.start.offset = before.length ∨ t.extent.stop.offset = before.length

/-- Whether a source ends in a line comment without its line feed. -/
def EndsInComment (source : List Char) : Prop :=
  ∃ front body, source = front ++ '/' :: '/' :: body ∧ '\n' ∉ body ∧
    IsBoundary front ('/' :: '/' :: body)

/-- Behind a gap that follows the start or a token a source is cut between tokens. -/
theorem isBoundary_of_gap {front gap after : List Char} (hgap : IsGap gap)
    (hfront : front = [] ∨ ∃ t ∈ tokens (front ++ gap ++ after),
      t.extent.stop.offset = front.length) : IsBoundary (front ++ gap) after := by
  rcases hfront with rfl | ⟨t, ht, hstop⟩
  · exact .first hgap
  · exact .behind ht hstop hgap

/-- **The start of a token** is a place between tokens. -/
theorem isBoundary_of_start (h : parse (before ++ after) = .ok tree) {t : Token}
    (ht : t ∈ tokens (before ++ after)) (hstart : t.extent.start.offset = before.length) :
    IsBoundary before after := by
  obtain ⟨laid, tail, hsource, hlaid, -⟩ := isLaidOut_of_parse h
  obtain ⟨front, gap, behind, rfl, hgap, -, hextent, hfront⟩ := hlaid.exists_append ht
  have hlength : (front ++ gap).length = before.length := by
    rw [← hstart, hextent, Position.offset_ofPrefix]
  have hsplit : before ++ after = front ++ gap ++ (t.text ++ behind ++ tail) := by
    rw [hsource]
    simp only [List.append_assoc]
  obtain ⟨rfl, -⟩ := List.append_inj hsplit.symm hlength
  exact isBoundary_of_gap hgap hfront

/-- **A cut is a place between tokens**, unless it is the end of a source behind a line comment
without its line feed. -/
theorem isBoundary_or_endsInComment (h : parse (before ++ after) = .ok tree)
    (hcut : IsCut before after) : IsBoundary before after ∨ after = [] ∧ EndsInComment before := by
  rcases hcut with rfl | rfl | ⟨t, ht, hstart | hstop⟩
  · exact Or.inl (.first .nil)
  · rw [List.append_nil] at h
    obtain ⟨front, tail, rfl, hlaid, htail⟩ := isLaidOut_of_parse h
    have hfront := hlaid.eq_nil_or_exists
    cases htail with
    | gap hgap => exact Or.inl (isBoundary_of_gap hgap (by rwa [List.append_nil]))
    | @unended gap body hgap hbody =>
      refine Or.inr ⟨rfl, front ++ gap, body, (List.append_assoc _ _ _).symm, hbody, ?_⟩
      exact isBoundary_of_gap hgap (by rwa [List.append_assoc])
  · exact Or.inl (isBoundary_of_start h ht hstart)
  · refine Or.inl (isBoundary_of_any (List.any_eq_true.mpr ⟨t, ht, ?_⟩))
    exact decide_eq_true hstop

/-! ### The end of a source -/

/-- **The parse tree of a source with more behind its end**, if that is skipped along with the tail
of the source. -/
theorem parse_tail {tail : List Char} (htail : IsTail tail) (hmore : IsTail (tail ++ text))
    (hboundary : IsBoundary before tail) (h : parse (before ++ tail) = .ok tree) :
    parse (before ++ tail ++ text) =
      .ok (tree.displace (insertion (before ++ tail) text [])) := by
  have hchange : IsChange (insertion (before ++ tail) text []) before tail (tail ++ text) := by
    refine ⟨fun e hnonempty hle => displace_insertion_of_le hnonempty ?_, ?_⟩
    · exact hle.trans (List.prefix_append before tail).length_le
    · rcases hmore.eq_nil_or_cons with hnil | hcons
      · rw [hnil, (List.append_eq_nil_iff.mp hnil).1]
        exact Or.inl rfl
      · exact Or.inr hcons
  rw [List.append_assoc]
  refine parse_of_isChange hchange ?_ hboundary (List.prefix_append tail text).length_le h
  -- at the cut both sources are at their ends
  intro fuel left c d tree hahead hgap hv hl hrun
  cases fuel with
  | zero => cases hrun
  | succ fuel =>
    have hl' : d.lookahead = none := by
      rw [hahead.moved.lookahead, hl]
      rfl
    have hend : scan c.state.accepted c.position c.rest = .atEnd :=
      scan_eq_atEnd_iff.mpr (hahead.rest ▸ hgap.append_tail htail)
    have hend' : scan d.state.accepted d.position d.rest = .atEnd :=
      scan_eq_atEnd_iff.mpr (hahead.rest' ▸ hgap.append_tail hmore)
    rw [run, step_of_atEnd hl hend] at hrun
    rw [run, step_of_atEnd hl' hend']
    have hpast : IsPast (before ++ tail) text [] { c with lookahead := some none }
        { d with lookahead := some none } := ⟨⟨hahead.moved.stack, rfl⟩, Or.inl rfl⟩
    exact hpast.run hv hrun

/-- **White space and comments do not change the parse tree**, wherever they are put: at either end
of a source, or where one of its tokens starts or ends. The tree is the same with its positions
moved. Behind a line comment at the end of the source that no line feed ends, what a block comment
holds behind its first line feed has to be a gap by itself. -/
theorem parse_trivia (htrivia : IsTrivia text) (hcut : IsCut before after)
    (hopen : after = [] → EndsInComment before → ['/', '*'] <+: text →
      ∀ line rest, text = line ++ '\n' :: rest → '\n' ∉ line → IsGap rest)
    (h : parse (before ++ after) = .ok tree) :
    parse (before ++ text ++ after) = .ok (tree.displace (insertion before text after)) := by
  rcases isBoundary_or_endsInComment h hcut with hboundary | ⟨rfl, hends⟩
  · exact parse_gap htrivia.isGap hboundary h
  · obtain ⟨front, body, hsource, hbody, hboundary⟩ := hends
    have hmore : IsTail ('/' :: '/' :: body ++ text) := by
      refine isTail_append hbody fun line rest htext hline => ?_
      rcases htrivia.isGap_behind htext with hgap | hblock
      · exact hgap
      · exact hopen rfl ⟨front, body, hsource, hbody, hboundary⟩ hblock line rest htext hline
    rw [hsource, List.append_nil] at h ⊢
    exact parse_tail (.unended .nil hbody) hmore hboundary h

/-- Behind a line comment at the end of a source, a block comment without line feeds becomes a part
of it. -/
theorem parse_trivia_end :
    ∃ tree, parse "enum E; // c".toList = .ok tree ∧
      parse "enum E; // c/* d */".toList =
        .ok (tree.displace (insertion "enum E; // c".toList "/* d */".toList [])) := by
  have hok : (parse ("enum E; // c".toList ++ [])).toOption.isSome = true := by
    decide +kernel
  obtain ⟨tree, hparse⟩ := Option.isSome_iff_exists.mp hok
  rw [Outcome.toOption_eq_some_iff] at hparse
  have hline : ∀ line rest, "/* d */".toList = line ++ '\n' :: rest → '\n' ∉ line → IsGap rest := by
    intro line rest htext
    have hnone : '\n' ∉ "/* d */".toList := by decide
    rw [htext] at hnone
    exact absurd (List.mem_append_right line List.mem_cons_self) hnone
  have hbody : commentBody " d */".toList = some (" d */".toList, []) := by decide
  have hblock : IsTrivia "/* d */".toList := .comment (.block hbody)
  have hcut : IsCut "enum E; // c".toList [] := Or.inr (Or.inl rfl)
  have hmore := parse_trivia hblock hcut (fun _ _ _ => hline) hparse
  exact ⟨tree, hparse, hmore⟩

/-- **A block comment may cut a source short**: put behind a line comment at the end of a source, it
ends that comment with its first line feed, and what follows there is no comment. -/
theorem not_parse_trivia :
    ¬∀ (before after text : List Char) (tree : Tree), IsTrivia text → IsCut before after →
      parse (before ++ after) = .ok tree →
        ∃ tree', parse (before ++ text ++ after) = .ok tree' := by
  intro hall
  have hok : (parse ("//".toList ++ [])).toOption.isSome = true := by
    decide +kernel
  obtain ⟨tree, hparse⟩ := Option.isSome_iff_exists.mp hok
  rw [Outcome.toOption_eq_some_iff] at hparse
  have hbody : commentBody "\n*/".toList = some ("\n*/".toList, []) := by decide
  have hblock : IsTrivia "/*\n*/".toList := .comment (.block hbody)
  obtain ⟨tree', hparse'⟩ :=
    hall "//".toList [] "/*\n*/".toList tree hblock (Or.inr (Or.inl rfl)) hparse
  have hfails : (parse ("//".toList ++ "/*\n*/".toList ++ [])).toOption.isNone = true := by
    decide +kernel
  rw [hparse'] at hfails
  cases hfails

end Errata.Syntax
