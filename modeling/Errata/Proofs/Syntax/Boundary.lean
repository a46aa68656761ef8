import Errata.Proofs.Syntax.Displacement
import Errata.Proofs.Syntax.Tokens

/-!
# Blanks and comments put between tokens

Blanks and comments may be put behind any token of a source, other blanks and comments apart, and
before the first one. They do not change the tokens, and move those behind them. So a source with a
gap put into it has the parse tree that it had without, with some of its extents moved.

* `IsBoundary`: the places between tokens.
* `insertion`: where positions are moved to by a text put into a source.
* **`parse_gap`**: the parse tree of a source with a gap put into it, and `parse_comment`, that with
  a comment.
-/

namespace Errata.Syntax

/-! ### Cuts -/

/-- Where a text is cut between tokens: before the first one or behind one of them, and behind
any number of blanks and of whole comments that follow. -/
inductive IsBoundary : List Char → List Char → Prop where
  /-- Before the first token. -/
  | first {gap after : List Char} (hgap : IsGap gap) : IsBoundary gap after
  /-- Behind a token. -/
  | behind {front gap after : List Char} {t : Token} (ht : t ∈ tokens (front ++ gap ++ after))
    (hstop : t.extent.stop.offset = front.length) (hgap : IsGap gap) :
    IsBoundary (front ++ gap) after

/-- Behind the last character of a token a text is cut between tokens. -/
theorem isBoundary_of_any {front after : List Char}
    (h : (tokens (front ++ after)).any fun t => t.extent.stop.offset = front.length) :
    IsBoundary front after := by
  obtain ⟨t, ht, hstop⟩ := List.any_eq_true.mp h
  rw [← List.append_nil front] at ht
  have hboundary := IsBoundary.behind ht (of_decide_eq_true hstop) .nil
  rwa [List.append_nil] at hboundary

/-! ### Positions in both sources -/

variable (before inserted after : List Char)

/-- Where a position behind a cut is if a text is put there. -/
def behindInsertion (p : Position) : Position :=
  .ofPrefix (before ++ inserted ++ after.take (p.offset - before.length))

/-- Where positions are moved to by a text that is put between two others. What ends at the cut
stays where it is, and what starts there is moved. -/
def insertion : Displacement where
  start p := if p.offset < before.length then p else behindInsertion before inserted after p
  stop p := if p.offset ≤ before.length then p else behindInsertion before inserted after p

variable {before inserted after}

/-- What stands before the cut stays where it is. -/
theorem displace_insertion_of_le {e : Extent} (hnonempty : e.start.offset < e.stop.offset)
    (h : e.stop.offset ≤ before.length) : e.displace (insertion before inserted after) = e := by
  simp only [Extent.displace, insertion, if_pos h, if_pos (hnonempty.trans_le h)]

/-- A position behind the cut. -/
theorem behindInsertion_ofPrefix (before inserted : List Char) {passed rest : List Char}
    (h : after = passed ++ rest) :
    behindInsertion before inserted after (.ofPrefix (before ++ passed)) =
      .ofPrefix (before ++ inserted ++ passed) := by
  rw [behindInsertion, Position.ofPrefix_eq (before ++ passed), h]
  simp only [List.length_append, Nat.add_sub_cancel_left, List.take_left]

/-- **What stands behind the cut** is moved behind the text that is put there. -/
theorem displace_insertion_of_append (before inserted : List Char)
    {passed text rest : List Char} (htext : text ≠ []) (hafter : after = passed ++ text ++ rest) :
    Extent.displace (insertion before inserted after)
        ⟨.ofPrefix (before ++ passed), .ofPrefix (before ++ passed ++ text)⟩ =
      ⟨.ofPrefix (before ++ inserted ++ passed),
        .ofPrefix (before ++ inserted ++ passed ++ text)⟩ := by
  have hpos := List.length_pos_iff.mpr htext
  have hstart : ¬(Position.ofPrefix (before ++ passed)).offset < before.length := by
    rw [Position.ofPrefix_eq]
    simp
  have hstop : ¬(Position.ofPrefix (before ++ passed ++ text)).offset ≤ before.length := by
    rw [Position.ofPrefix_eq]
    simp only [List.length_append]
    omega
  have hmoved := behindInsertion_ofPrefix before inserted hafter
  rw [List.append_assoc] at hafter
  have hmoved' := behindInsertion_ofPrefix before inserted hafter
  simp only [← List.append_assoc] at hmoved
  simp only [Extent.displace, insertion, if_neg hstart, if_neg hstop, hmoved, hmoved']

/-! ### Runs over both sources -/

/-- Whether two runs are behind the cut: the same text is left, or nothing is left to read. -/
structure IsPast (before inserted after : List Char) (c d : Config) : Prop where
  /-- What they know is the same, moved. -/
  moved : c.IsMoved (insertion before inserted after) d
  /-- What is left to read is the same. -/
  rest : c.lookahead = some none ∨ ∃ passed, after = passed ++ c.rest ∧ d.rest = c.rest ∧
    c.position = .ofPrefix (before ++ passed) ∧
      d.position = .ofPrefix (before ++ inserted ++ passed)

variable {c d c' : Config}

/-- A step that reads a token. -/
theorem step_of_token (hl : c.lookahead = none) {t : Token} {rest : List Char}
    (h : scan c.state.accepted c.position c.rest = .token t rest) :
    step c = .next { c with
      position := t.extent.stop, rest, lookahead := some (some t), last := some t } := by
  rw [step, hl]
  dsimp only
  rw [readNext, h]

/-- A step that finds the end of the input. -/
theorem step_of_atEnd (hl : c.lookahead = none)
    (h : scan c.state.accepted c.position c.rest = .atEnd) :
    step c = .next { c with lookahead := some none } := by
  rw [step, hl]
  dsimp only
  rw [readNext, h]

/-- What is read where both sources go on in the same way. -/
theorem next_of_scan_eq (hm : c.IsMoved (insertion before inserted after) d) (hv : IsValid c.stack)
    (hl : c.lookahead = none) {passed rest : List Char} (hafter : after = passed ++ rest)
    (hscan : scan c.state.accepted c.position c.rest =
      scan c.state.accepted (.ofPrefix (before ++ passed)) rest)
    (hscan' : scan c.state.accepted d.position d.rest =
      scan c.state.accepted (.ofPrefix (before ++ inserted ++ passed)) rest)
    (hstep : step c = .next c') :
    ∃ d', step d = .next d' ∧ IsPast before inserted after c' d' := by
  have hl' : d.lookahead = none := by
    rw [hm.lookahead, hl]
    rfl
  have heffect := step_effect hv
  rw [hstep] at heffect
  cases heffect with
  | @read t more _ hfound =>
    rw [hscan] at hfound
    obtain ⟨gap, hgap, hextent, hfound'⟩ :=
      scan_token_at hfound (.ofPrefix (before ++ inserted ++ passed))
    have hne : t.text ≠ [] := by
      obtain ⟨_, -, -, hfirst⟩ := scan_eq_token_iff.mp hfound
      exact (firstToken_eq_some hfirst).2
    have hafter' : after = passed ++ gap ++ t.text ++ more := by
      rw [hafter, hgap]
      simp
    -- the token that is found is the one that was found before, moved
    have htoken : (⟨t.terminal, t.text,
        (Position.ofPrefix (before ++ inserted ++ passed)).advance gap,
        (Position.ofPrefix (before ++ inserted ++ passed)).advance (gap ++ t.text)⟩ : Token) =
          t.displace (insertion before inserted after) := by
      have hmoved := displace_insertion_of_append before inserted hne hafter'
      rw [Token.displace, hextent]
      simp only [Position.advance_ofPrefix, ← List.append_assoc] at hmoved ⊢
      rw [hmoved]
    rw [htoken, ← hscan', ← hm.state_eq] at hfound'
    refine ⟨_, step_of_token hl' hfound', ⟨hm.stack, rfl⟩,
      Or.inr ⟨passed ++ gap ++ t.text, hafter', rfl, ?_, ?_⟩⟩
    · show t.extent.stop = _
      rw [hextent]
      simp only [Position.advance_ofPrefix, List.append_assoc]
    · show (t.displace (insertion before inserted after)).extent.stop = _
      rw [← htoken]
      simp only [Position.advance_ofPrefix, List.append_assoc]
  | readEnd _ hfound =>
    rw [hscan] at hfound
    have hended := scan_atEnd_at hfound (.ofPrefix (before ++ inserted ++ passed))
    rw [← hscan', ← hm.state_eq] at hended
    exact ⟨_, step_of_atEnd hl' hended, ⟨hm.stack, rfl⟩, Or.inl rfl⟩
  | reduce hsome => cases hl.symm.trans hsome
  | shift hsome => cases hl.symm.trans hsome

/-- **A step behind the cut** is made over both sources. -/
theorem IsPast.step (h : IsPast before inserted after c d) (hv : IsValid c.stack)
    (hstep : step c = .next c') :
    ∃ d', Syntax.step d = .next d' ∧ IsPast before inserted after c' d' := by
  by_cases hl : c.lookahead = none
  · rcases h.rest with hended | ⟨passed, hafter, hrest, hposition, hposition'⟩
    · cases hl.symm.trans hended
    · refine next_of_scan_eq h.moved hv hl hafter ?_ ?_ hstep
      · rw [hposition]
      · rw [hposition', hrest]
  · obtain ⟨d', hstep', hm, ⟨hrest, hposition⟩, hrest', hposition'⟩ :=
      next_of_isMoved h.moved hv hl hstep
    refine ⟨d', hstep', hm, ?_⟩
    rcases h.rest with hended | hpassed
    · -- only reductions follow the end of the input
      have heffect := step_effect hv
      rw [hstep] at heffect
      cases heffect with
      | read hnone => exact absurd hnone hl
      | readEnd hnone => exact absurd hnone hl
      | reduce => exact Or.inl hended
      | shift hsome => cases hended.symm.trans hsome
    · rw [hrest, hposition, hrest', hposition']
      exact Or.inr hpassed

/-- A run that is behind the cut. -/
theorem IsPast.run {fuel : Nat} (h : IsPast before inserted after c d) (hv : IsValid c.stack)
    {tree : Tree} (hrun : run fuel c = .ok tree) :
    Syntax.run fuel d = .ok (tree.displace (insertion before inserted after)) := by
  induction fuel generalizing c d with
  | zero => cases hrun
  | succ fuel ih =>
    rw [Syntax.run] at hrun ⊢
    cases hstep : Syntax.step c with
    | next c' =>
      obtain ⟨d', hstep', hpast⟩ := h.step hv hstep
      have hv' : IsValid c'.stack := by
        have heffect := step_effect hv
        rw [hstep] at heffect
        exact heffect.isValid hv
      rw [hstep] at hrun
      rw [hstep']
      exact ih hpast hv' hrun
    | done tree' =>
      rw [hstep] at hrun
      cases hrun
      rw [done_of_isMoved h.moved hv hstep]
    | failed reason =>
      rw [hstep] at hrun
      cases hrun

/-! ### Runs up to the cut -/

section

variable {m : Displacement} {after' : List Char}

/-- Whether another text may stand behind a cut, as far as the tokens before it are concerned. -/
structure IsChange (m : Displacement) (before after after' : List Char) : Prop where
  /-- What stands before the cut is not moved. -/
  stays : ∀ e : Extent, e.start.offset < e.stop.offset → e.stop.offset ≤ before.length →
    e.displace m = e
  /-- No token goes on behind the cut, unless it does so anyway. -/
  separates : after' = after ∨ ∃ s rest, after' = s :: rest ∧ isSeparator s = true

/-- A token before the cut is found whatever text stands behind it. -/
theorem IsChange.scan_eq (h : IsChange m before after after') {accepted : List Terminal}
    {p : Position} {t : Token} {left more : List Char}
    (hscan : scan accepted p (left ++ after) = .token t (more ++ after)) :
    scan accepted p (left ++ after') = .token t (more ++ after') := by
  rcases h.separates with rfl | ⟨s, rest, rfl, hs⟩
  · exact hscan
  · exact scan_of_append hs hscan rest

/-- Whether two runs are before the cut, with some text left up to it. -/
structure IsAhead (m : Displacement) (before after after' left : List Char) (c d : Config) :
    Prop where
  /-- What they know is the same, moved. -/
  moved : c.IsMoved m d
  /-- What is left to read of the one source. -/
  rest : c.rest = left ++ after
  /-- What is left to read of the other. -/
  rest' : d.rest = left ++ after'
  /-- The position is the same. -/
  position : d.position = c.position
  /-- It is that of what was read. -/
  passed : ∃ passed, before = passed ++ left ∧ c.position = .ofPrefix passed

/-- A step that reads nothing leaves both runs before the cut. -/
theorem IsAhead.step_of_known {left : List Char} (h : IsAhead m before after after' left c d)
    (hv : IsValid c.stack) (hl : c.lookahead ≠ none) (hstep : step c = .next c') :
    ∃ d', Syntax.step d = .next d' ∧ IsAhead m before after after' left c' d' := by
  obtain ⟨d', hstep', hm, ⟨hrest, hposition⟩, hrest', hposition'⟩ :=
    next_of_isMoved h.moved hv hl hstep
  refine ⟨d', hstep', hm, hrest.trans h.rest, hrest'.trans h.rest', ?_, ?_⟩
  · rw [hposition', hposition, h.position]
  · rw [hposition]
    exact h.passed

/-- **A step before the cut**: a token that ends there is read from both sources. -/
theorem IsAhead.step_of_token {left : List Char} (h : IsAhead m before after after' left c d)
    (hchange : IsChange m before after after') (hl : c.lookahead = none) {t : Token}
    {rest : List Char} (hscan : scan c.state.accepted c.position c.rest = .token t rest)
    (hle : t.extent.stop.offset ≤ before.length) :
    ∃ more d', Syntax.step d = .next d' ∧ IsAhead m before after after' more
      { c with position := t.extent.stop, rest, lookahead := some (some t), last := some t }
      d' := by
  obtain ⟨passed, hbefore, hposition⟩ := h.passed
  obtain ⟨gap, hsplit, hextent, -⟩ := scan_token_at hscan c.position
  -- the token lies within what is left before the cut
  have hlength : (gap ++ t.text).length ≤ left.length := by
    rw [hextent, Position.offset_advance, hposition, Position.ofPrefix_eq, hbefore,
      List.length_append] at hle
    simp only [List.length_append] at hle ⊢
    omega
  rw [h.rest, ← List.append_assoc] at hsplit
  obtain ⟨more, hleft⟩ : gap ++ t.text <+: left :=
    List.prefix_of_prefix_length_le ⟨rest, hsplit.symm⟩ (List.prefix_append left after) hlength
  have hrest : rest = more ++ after := by
    rw [← hleft, List.append_assoc] at hsplit
    exact (List.append_cancel_left hsplit).symm
  rw [h.rest, hrest] at hscan
  have hscan' := hchange.scan_eq hscan
  rw [← h.rest', ← h.position, ← h.moved.state_eq] at hscan'
  have hl' : d.lookahead = none := by
    rw [h.moved.lookahead, hl]
    rfl
  have hstays : t.displace m = t := by
    have hne : t.text ≠ [] := by
      obtain ⟨_, -, -, hfirst⟩ := scan_eq_token_iff.mp hscan
      exact (firstToken_eq_some hfirst).2
    have hlt : t.extent.start.offset < t.extent.stop.offset := by
      have hpos := List.length_pos_iff.mpr hne
      rw [hextent]
      simp only [Position.offset_advance, List.length_append]
      omega
    rw [Token.displace, hchange.stays _ hlt hle]
  refine ⟨more, _, Syntax.step_of_token hl' hscan', ⟨h.moved.stack, ?_⟩, hrest, rfl, rfl,
    passed ++ (gap ++ t.text), ?_, ?_⟩
  · show some (some t) = some (some (t.displace _))
    rw [hstays]
  · rw [hbefore, ← hleft, ← List.append_assoc]
  · show t.extent.stop = _
    rw [hextent, hposition]
    exact Position.advance_ofPrefix _ _

/-- Whether a cut with some text left before it is met by a run: only a gap is left, or a token is
still to be read behind which there is only a gap. -/
def IsMet (before : List Char) (fuel : Nat) (c : Config) (left : List Char) : Prop :=
  IsGap left ∨ ∃ t ∈ tokensFrom fuel c, ∃ front gap, before = front ++ gap ∧ IsGap gap ∧
    t.extent.stop.offset = front.length

/-- A run over a source meets the places between its tokens. -/
theorem IsBoundary.isMet (h : IsBoundary before after) :
    IsMet before (32 * ((before ++ after).length + 1)) (.initial (before ++ after)) before := by
  cases h with
  | first hgap => exact Or.inl hgap
  | behind ht hstop hgap => exact Or.inr ⟨_, ht, _, _, rfl, hgap, hstop⟩

/-- **A step towards the cut**: a run that has still to meet it has still to do so afterwards. -/
theorem IsAhead.step_of_due {left : List Char} (h : IsAhead m before after after' left c d)
    (hchange : IsChange m before after after') (hv : IsValid c.stack) (hl : c.lookahead = none)
    {fuel : Nat} {t : Token} (ht : t ∈ tokensFrom (fuel + 1) c) {front gap : List Char}
    (hbefore : before = front ++ gap) (hgap : IsGap gap)
    (hstop : t.extent.stop.offset = front.length) (hstep : step c = .next c') :
    ∃ more d', Syntax.step d = .next d' ∧ IsAhead m before after after' more c' d' ∧
      IsMet before fuel c' more := by
  have heffect := step_effect hv
  rw [hstep] at heffect
  have hv' := heffect.isValid hv
  rw [tokensFrom_of_next hstep, if_pos hl] at ht
  cases heffect with
  | @read t' rest _ hscan =>
    have hle : t'.extent.stop.offset ≤ front.length := by
      rw [← hstop]
      rcases List.mem_append.mp ht with hfirst | hlater
      · obtain rfl : t = t' := by simpa using hfirst
        exact Nat.le_refl _
      · exact offset_le_of_mem_tokensFrom hv' hlater
    have hle' : t'.extent.stop.offset ≤ before.length := by
      rw [hbefore, List.length_append]
      exact Nat.le_add_right_of_le hle
    obtain ⟨more, d', hstep', hahead⟩ := h.step_of_token hchange hl hscan hle'
    refine ⟨more, d', hstep', hahead, ?_⟩
    rcases List.mem_append.mp ht with hfirst | hlater
    · -- the token is read, and the gap is what is left before the cut
      obtain rfl : t = t' := by simpa using hfirst
      obtain ⟨passed, hsplit, hposition⟩ := hahead.passed
      have hlength : front.length = passed.length := by
        rw [← hstop, show t.extent.stop = .ofPrefix passed from hposition, Position.ofPrefix_eq]
      rw [hbefore] at hsplit
      obtain ⟨-, rfl⟩ := List.append_inj hsplit hlength
      exact Or.inl hgap
    · exact Or.inr ⟨t, hlater, front, gap, hbefore, hgap, hstop⟩
  | readEnd =>
    rw [tokensFrom_of_ended hv' rfl] at ht
    cases ht
  | reduce hsome => cases hl.symm.trans hsome
  | shift hsome => cases hl.symm.trans hsome

/-- What is made of both sources once a run is at the cut is the same. -/
def AgreeFrom (m : Displacement) (before after after' : List Char) : Prop :=
  ∀ {fuel : Nat} {left : List Char} {c d : Config} {tree : Tree},
    IsAhead m before after after' left c d → IsGap left → IsValid c.stack → c.lookahead = none →
      run fuel c = .ok tree → run fuel d = .ok (tree.displace m)

/-- **A run that meets the cut** makes the same of both sources if it does so from there on. -/
theorem IsAhead.run {fuel : Nat} {left : List Char} (h : IsAhead m before after after' left c d)
    (hchange : IsChange m before after after') (hagree : AgreeFrom m before after after')
    (hv : IsValid c.stack) (hmet : IsMet before fuel c left) {tree : Tree}
    (hrun : run fuel c = .ok tree) : Syntax.run fuel d = .ok (tree.displace m) := by
  induction fuel generalizing c d left with
  | zero => cases hrun
  | succ fuel ih =>
    have heffect := step_effect hv
    by_cases hl : c.lookahead = none
    · rcases hmet with hgap | ⟨t, ht, front, gap, hbefore, hgap, hstop⟩
      · exact hagree h hgap hv hl hrun
      · rw [Syntax.run] at hrun ⊢
        cases hstep : Syntax.step c with
        | next c' =>
          rw [hstep] at hrun heffect
          obtain ⟨more, d', hstep', hahead, hmet⟩ :=
            h.step_of_due hchange hv hl ht hbefore hgap hstop hstep
          rw [hstep']
          exact ih hahead (heffect.isValid hv) hmet hrun
        | done tree' =>
          rw [hstep] at heffect
          cases heffect with
          | acceptEmpty hsome => cases hl.symm.trans hsome
          | accept hsome => cases hl.symm.trans hsome
        | failed reason =>
          rw [hstep] at hrun
          cases hrun
    · rw [Syntax.run] at hrun ⊢
      cases hstep : Syntax.step c with
      | next c' =>
        rw [hstep] at hrun heffect
        obtain ⟨d', hstep', hahead⟩ := h.step_of_known hv hl hstep
        rw [hstep']
        rw [IsMet, tokensFrom_of_next hstep, if_neg hl, List.nil_append] at hmet
        exact ih hahead (heffect.isValid hv) hmet hrun
      | done tree' =>
        rw [hstep] at hrun
        cases hrun
        rw [done_of_isMoved h.moved hv hstep]
      | failed reason =>
        rw [hstep] at hrun
        cases hrun

/-- **The parse tree of a source with another text behind a cut.** -/
theorem parse_of_isChange (hchange : IsChange m before after after')
    (hagree : AgreeFrom m before after after') (hboundary : IsBoundary before after)
    (hlength : after.length ≤ after'.length) {tree : Tree}
    (h : parse (before ++ after) = .ok tree) :
    parse (before ++ after') = .ok (tree.displace m) := by
  have hahead : IsAhead m before after after' before (.initial (before ++ after))
      (.initial (before ++ after')) :=
    ⟨⟨rfl, rfl⟩, rfl, rfl, rfl, [], rfl, rfl⟩
  refine run_of_le ?_ (hahead.run hchange hagree isValid_nil hboundary.isMet h)
  simp only [List.length_append]
  omega

end

/-! ### Gaps put between tokens -/

/-- A gap does not concern the tokens before it. -/
theorem isChange_of_gap (hinserted : IsGap inserted) :
    IsChange (insertion before inserted after) before after (inserted ++ after) where
  stays _ hnonempty hle := displace_insertion_of_le hnonempty hle
  separates := by
    rcases hinserted.eq_nil_or_cons with rfl | ⟨s, rest, rfl, hs⟩
    · exact Or.inl rfl
    · exact Or.inr ⟨s, rest ++ after, rfl, hs⟩

/-- **A step over the cut**: with nothing but a gap before it, what is read stands behind it. -/
theorem IsAhead.step_of_gap {left : List Char}
    (h : IsAhead (insertion before inserted after) before after (inserted ++ after) left c d)
    (hinserted : IsGap inserted) (hgap : IsGap left) (hv : IsValid c.stack)
    (hl : c.lookahead = none) (hstep : step c = .next c') :
    ∃ d', Syntax.step d = .next d' ∧ IsPast before inserted after c' d' := by
  obtain ⟨passed, hbefore, hposition⟩ := h.passed
  refine next_of_scan_eq h.moved hv hl (List.nil_append after).symm ?_ ?_ hstep
  · rw [h.rest, scan_gap hgap, hposition, Position.advance_ofPrefix, List.append_nil, hbefore]
  · rw [h.rest', ← List.append_assoc, scan_gap (hgap.append hinserted), h.position, hposition,
      Position.advance_ofPrefix, List.append_nil, hbefore, List.append_assoc]

/-- With a gap put there, the same is made of what follows. -/
theorem agreeFrom_of_gap (hinserted : IsGap inserted) :
    AgreeFrom (insertion before inserted after) before after (inserted ++ after) := by
  intro fuel left c d tree h hgap hv hl hrun
  cases fuel with
  | zero => cases hrun
  | succ fuel =>
    have heffect := step_effect hv
    rw [run] at hrun ⊢
    cases hstep : step c with
    | next c' =>
      rw [hstep] at hrun heffect
      obtain ⟨d', hstep', hpast⟩ := h.step_of_gap hinserted hgap hv hl hstep
      rw [hstep']
      exact hpast.run (heffect.isValid hv) hrun
    | done tree' =>
      rw [hstep] at heffect
      cases heffect with
      | acceptEmpty hsome => cases hl.symm.trans hsome
      | accept hsome => cases hl.symm.trans hsome
    | failed reason =>
      rw [hstep] at hrun
      cases hrun

/-- **The parse tree of a source with a gap put between its tokens** is that of the source without,
with what stands behind the gap moved. -/
theorem parse_gap (hinserted : IsGap inserted) (hboundary : IsBoundary before after)
    {tree : Tree} (h : parse (before ++ after) = .ok tree) :
    parse (before ++ inserted ++ after) =
      .ok (tree.displace (insertion before inserted after)) := by
  rw [List.append_assoc]
  refine parse_of_isChange (isChange_of_gap hinserted) (agreeFrom_of_gap hinserted) hboundary ?_ h
  exact (List.suffix_append inserted after).length_le

/-- The parse tree of a source with a comment put between its tokens. -/
theorem parse_comment {comment : List Char} (hcomment : IsComment comment)
    (hboundary : IsBoundary before after) {tree : Tree} (h : parse (before ++ after) = .ok tree) :
    parse (before ++ comment ++ after) = .ok (tree.displace (insertion before comment after)) :=
  parse_gap hcomment.isGap hboundary h

end Errata.Syntax
