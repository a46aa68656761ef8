import Errata.Proofs.Syntax.Comment
import Errata.Proofs.Syntax.Parser

/-!
# The tokens of a source

The tokens of a source are those that the parser reads, one after the other. If it reads all of the
source, they lie in it from left to right, with nothing but blanks and comments between them.

* `tokens`: the tokens of a source.
* `exists_done_of_parse_tokens`: a property of what was read that every step preserves holds of a
  whole parse and its tokens.
* `IsLaidOut`: texts that consist of tokens with gaps in front of them.
* **`isLaidOut_of_parse`**: a source that is parsed consists of its tokens and of gaps, with a tail
  behind the last one.
* `IsLaidOut.pairwise`, `IsLaidOut.exists_append`: where the tokens lie.
-/

namespace Errata.Syntax

/-! ### What a run reads -/

/-- The tokens that a run reads, in order. -/
def tokensFrom : Nat → Config → List Token
  | 0, _ => []
  | fuel + 1, c =>
    match step c with
    | .next d => (if c.lookahead = none then d.lookahead.join.toList else []) ++ tokensFrom fuel d
    | _ => []

/-- The tokens of a source: those that the parser reads. -/
def tokens (source : List Char) : List Token :=
  tokensFrom (32 * (source.length + 1)) (.initial source)

/-- A position is behind as many characters as it has passed. -/
theorem Position.offset_advance (p : Position) (text : List Char) :
    (p.advance text).offset = p.offset + text.length := by
  induction text generalizing p with
  | nil => rfl
  | cons c text ih =>
    show ((p.next c).advance text).offset = _
    rw [ih, List.length_cons]
    unfold Position.next
    split <;> simp only [] <;> omega

/-- What is read next by a step, and what by the steps behind it. -/
theorem tokensFrom_of_next {fuel : Nat} {c d : Config} (h : step c = .next d) :
    tokensFrom (fuel + 1) c =
      (if c.lookahead = none then d.lookahead.join.toList else []) ++ tokensFrom fuel d := by
  rw [tokensFrom, h]

/-- Behind the end of the input nothing is read. -/
theorem tokensFrom_of_ended {c : Config} (hv : IsValid c.stack) (hl : c.lookahead = some none)
    (fuel : Nat) : tokensFrom fuel c = [] := by
  induction fuel generalizing c with
  | zero => rfl
  | succ fuel ih =>
    have heffect := step_effect hv
    cases hstep : step c with
    | done tree => rw [tokensFrom, hstep]
    | failed reason => rw [tokensFrom, hstep]
    | next d =>
      rw [hstep] at heffect
      have hd : d.lookahead = some none := by
        cases heffect with
        | read hnone => cases hl.symm.trans hnone
        | readEnd hnone => rfl
        | reduce => exact hl
        | shift hsome => cases hl.symm.trans hsome
      rw [tokensFrom_of_next hstep, ih (heffect.isValid hv) hd, hl]
      rfl

/-- A step does not go back in the text. -/
theorem Effect.offset_le {c d : Config} (h : Effect c (.next d)) :
    c.position.offset ≤ d.position.offset := by
  cases h with
  | read hl hscan =>
    obtain ⟨gap, -, hextent, -⟩ := scan_token_at hscan c.position
    rw [hextent, Position.offset_advance]
    exact Nat.le_add_right _ _
  | readEnd => exact Nat.le_refl _
  | reduce => exact Nat.le_refl _
  | shift => exact Nat.le_refl _

/-- A token that is still to be read ends behind the position. -/
theorem offset_le_of_mem_tokensFrom {fuel : Nat} {c : Config} (hv : IsValid c.stack) {t : Token}
    (ht : t ∈ tokensFrom fuel c) : c.position.offset ≤ t.extent.stop.offset := by
  induction fuel generalizing c with
  | zero => cases ht
  | succ fuel ih =>
    have heffect := step_effect hv
    cases hstep : step c with
    | done tree => simp [tokensFrom, hstep] at ht
    | failed reason => simp [tokensFrom, hstep] at ht
    | next d =>
      rw [hstep] at heffect
      rw [tokensFrom_of_next hstep] at ht
      rcases List.mem_append.mp ht with hfirst | hlater
      · split at hfirst
        · next hnone =>
          cases heffect with
          | @read t' rest hl hscan =>
            obtain rfl : t = t' := by simpa using hfirst
            exact (Effect.read hl hscan).offset_le
          | readEnd => simp at hfirst
          | reduce hl => cases hnone.symm.trans hl
          | shift hl => cases hnone.symm.trans hl
        · cases hfirst
      · exact heffect.offset_le.trans (ih (heffect.isValid hv) hlater)

/-- **What every step keeps of the tokens read so far** holds at the end of a run, of those that
were read before and of its own. -/
theorem exists_done_of_run_tokens {P : Config → List Token → Prop}
    (hP : ∀ {c d : Config} {ts : List Token}, IsValid c.stack → Effect c (.next d) → P c ts →
      P d (ts ++ if c.lookahead = none then d.lookahead.join.toList else []))
    {fuel : Nat} {c : Config} {ts : List Token} {tree : Tree} (hv : IsValid c.stack) (hc : P c ts)
    (h : run fuel c = .ok tree) :
    ∃ d, P d (ts ++ tokensFrom fuel c) ∧ Effect d (.done tree) := by
  induction fuel generalizing c ts with
  | zero => cases h
  | succ fuel ih =>
    have heffect := step_effect hv
    rw [run] at h
    split at h
    · next d hd =>
      rw [hd] at heffect
      rw [tokensFrom_of_next hd, ← List.append_assoc]
      exact ih (heffect.isValid hv) (hP hv heffect hc) h
    · next hd =>
      cases h
      rw [tokensFrom, hd]
      exact ⟨c, by rwa [List.append_nil], hd ▸ heffect⟩
    · cases h

/-- **What every step keeps of the tokens read so far** holds of a whole parse. -/
theorem exists_done_of_parse_tokens {P : Config → List Token → Prop}
    (hP : ∀ {c d : Config} {ts : List Token}, IsValid c.stack → Effect c (.next d) → P c ts →
      P d (ts ++ if c.lookahead = none then d.lookahead.join.toList else []))
    {source : List Char} {tree : Tree} (hc : P (.initial source) [])
    (h : parse source = .ok tree) : ∃ d, P d (tokens source) ∧ Effect d (.done tree) :=
  exists_done_of_run_tokens hP isValid_nil hc h

/-! ### Where tokens lie -/

/-- Whether a text consists of tokens, each with a gap in front of it. -/
inductive IsLaidOut : List Char → List Token → Prop where
  /-- Nothing. -/
  | nil : IsLaidOut [] []
  /-- Another gap and another token behind. -/
  | snoc {text gap : List Char} {ts : List Token} {t : Token} (h : IsLaidOut text ts)
      (hgap : IsGap gap) (hne : t.text ≠ [])
      (hextent : t.extent = ⟨.ofPrefix (text ++ gap), .ofPrefix (text ++ gap ++ t.text)⟩) :
      IsLaidOut (text ++ gap ++ t.text) (ts ++ [t])

/-- Whether the tokens read so far are laid out in what is before the position, and a tail is left
once the end of the input is known. -/
structure Config.IsLaidOut (source : List Char) (c : Config) (ts : List Token) : Prop where
  /-- They are laid out in what was read. -/
  read : ∃ passed, source = passed ++ c.rest ∧ c.position = .ofPrefix passed ∧
    Syntax.IsLaidOut passed ts
  /-- At the end of the input there is a tail. -/
  ended : c.lookahead = some none → IsTail c.rest

/-- **Every step keeps the tokens laid out.** -/
theorem Effect.isLaidOut {source : List Char} {c d : Config} {ts : List Token}
    (h : Effect c (.next d)) (hc : c.IsLaidOut source ts) :
    d.IsLaidOut source (ts ++ if c.lookahead = none then d.lookahead.join.toList else []) := by
  obtain ⟨passed, hsource, hposition, hlaid⟩ := hc.read
  cases h with
  | @read t rest hl hscan =>
    obtain ⟨gap, hgap, hrest, hfirst⟩ := scan_eq_token_iff.mp hscan
    have hextent := extent_of_firstToken hfirst
    rw [hposition, Position.advance_ofPrefix, Position.advance_ofPrefix] at hextent
    rw [if_pos hl]
    refine ⟨⟨passed ++ gap ++ t.text, ?_, ?_,
      .snoc hlaid hgap (firstToken_eq_some hfirst).2 hextent⟩, nofun⟩
    · rw [hsource, hrest]
      simp
    · rw [hextent]
  | readEnd hl hscan =>
    rw [if_pos hl]
    exact ⟨⟨passed, hsource, hposition, by simpa using hlaid⟩,
      fun _ => scan_eq_atEnd_iff.mp hscan⟩
  | reduce hl =>
    rw [if_neg (by simp [hl]), List.append_nil]
    exact ⟨⟨passed, hsource, hposition, hlaid⟩, hc.ended⟩
  | shift hl =>
    rw [if_neg (by simp [hl]), List.append_nil]
    exact ⟨⟨passed, hsource, hposition, hlaid⟩, nofun⟩

/-- **A source that is parsed** consists of its tokens and of gaps, with a tail behind the last
one. -/
theorem isLaidOut_of_parse {source : List Char} {tree : Tree} (h : parse source = .ok tree) :
    ∃ text tail, source = text ++ tail ∧ IsLaidOut text (tokens source) ∧ IsTail tail := by
  obtain ⟨d, ⟨⟨passed, hsource, -, hlaid⟩, hended⟩, heffect⟩ := exists_done_of_parse_tokens
    (P := Config.IsLaidOut source) (fun _ heffect hc => heffect.isLaidOut hc)
    ⟨⟨[], rfl, rfl, .nil⟩, nofun⟩ h
  have hl : d.lookahead = some none := by
    cases heffect with
    | acceptEmpty hl => exact hl
    | accept hl => exact hl
  exact ⟨passed, d.rest, hsource, hlaid, hended hl⟩

section

variable {text : List Char} {ts : List Token}

/-- A text that consists of tokens ends with the last one. -/
theorem IsLaidOut.stop_getLast? (h : IsLaidOut text ts) {t : Token} (ht : ts.getLast? = some t) :
    t.extent.stop.offset = text.length := by
  cases h with
  | nil => cases ht
  | snoc _ _ _ hextent =>
    rw [List.getLast?_concat] at ht
    rw [← Option.some.inj ht, hextent, Position.offset_ofPrefix]

/-- A text that consists of tokens is empty or ends with one of them. -/
theorem IsLaidOut.eq_nil_or_exists (h : IsLaidOut text ts) :
    text = [] ∨ ∃ t ∈ ts, t.extent.stop.offset = text.length := by
  cases h with
  | nil => exact Or.inl rfl
  | snoc _ _ _ hextent =>
    exact Or.inr ⟨_, List.mem_append_right _ (List.mem_singleton_self _),
      by rw [hextent, Position.offset_ofPrefix]⟩

/-- **Where a token lies**: behind a gap that starts the text or follows another token. -/
theorem IsLaidOut.exists_append (h : IsLaidOut text ts) {t : Token} (ht : t ∈ ts) :
    ∃ front gap after, text = front ++ gap ++ t.text ++ after ∧ IsGap gap ∧ t.text ≠ [] ∧
      t.extent = ⟨.ofPrefix (front ++ gap), .ofPrefix (front ++ gap ++ t.text)⟩ ∧
        (front = [] ∨ ∃ s ∈ ts, s.extent.stop.offset = front.length) := by
  induction h with
  | nil => cases ht
  | @snoc text gap ts last h hgap hne hextent ih =>
    rcases List.mem_append.mp ht with ht | ht
    · obtain ⟨front, gap', after, rfl, hgap', hne', hextent', hfront⟩ := ih ht
      refine ⟨front, gap', after ++ gap ++ last.text, by simp, hgap', hne', hextent', ?_⟩
      exact hfront.imp_right fun ⟨s, hs, hstop⟩ => ⟨s, List.mem_append_left _ hs, hstop⟩
    · obtain rfl := List.mem_singleton.mp ht
      refine ⟨text, gap, [], by simp, hgap, hne, hextent, ?_⟩
      exact h.eq_nil_or_exists.imp_right fun ⟨s, hs, hstop⟩ => ⟨s, List.mem_append_left _ hs, hstop⟩

/-- A token ends within the text. -/
theorem IsLaidOut.stop_le (h : IsLaidOut text ts) {t : Token} (ht : t ∈ ts) :
    t.extent.stop.offset ≤ text.length := by
  obtain ⟨front, gap, after, rfl, -, -, hextent, -⟩ := h.exists_append ht
  rw [hextent, Position.offset_ofPrefix]
  exact (List.prefix_append _ after).length_le

/-- **Tokens lie one behind the other.** -/
theorem IsLaidOut.pairwise (h : IsLaidOut text ts) :
    ts.Pairwise fun s t => s.extent.stop.offset ≤ t.extent.start.offset := by
  induction h with
  | nil => exact .nil
  | @snoc text gap ts last h hgap hne hextent ih =>
    refine List.pairwise_append.mpr ⟨ih, List.pairwise_singleton _ _, ?_⟩
    intro s hs t ht
    obtain rfl := List.mem_singleton.mp ht
    have hstop := h.stop_le hs
    rw [hextent, Position.offset_ofPrefix, List.length_append]
    omega

end

end Errata.Syntax
