import Errata.Proofs.Expression.Token

/-!
# Carriage returns

Tokens are cut from a text in which every carriage return, alone or before a line feed, has become a
line feed. Read one character at a time, the text itself leads to the same place: only after a
backslash in a string does a line feed still belong to the carriage return before it.

* `Region.IsOrdinary`: regions that are met in a text without carriage returns.
* **`run_universalNewlines`**: the text as it is written leads where it leads with line feeds only.
* `universalNewlines_eq_self_iff`: the texts that reading leaves as they are.
* **`exists_run_of_tokens`**: an expression whose tokens are complete has no string or bracket that
  is left open.
-/

namespace Errata.Expression

open Place

/-! ### Ordinary regions -/

/-- Whether a region is met in a text without carriage returns. -/
def Region.IsOrdinary : Region → Prop
  | code | continued | comment => True
  | opened quote | empty quote | body quote _ | escape quote _ | closing quote _ =>
    isQuote quote = true
  | returned _ => False

/-- A character outside strings and comments leads to an ordinary region. -/
theorem isOrdinary_outside (c : Char) : (Region.outside c).IsOrdinary := by
  unfold Region.outside
  split
  · trivial
  · split
    · next hquote => exact hquote
    · split <;> trivial

/-- A character in a string between single quotes leads to an ordinary region. -/
theorem isOrdinary_of_inside {quote c : Char} {next : Region} (hq : isQuote quote = true)
    (h : Region.inside quote c = some next) : next.IsOrdinary := by
  unfold Region.inside at h
  repeat' split at h
  all_goals cases h
  all_goals trivial

/-- A character in a string between triple quotes leads to an ordinary region. -/
theorem isOrdinary_insideTriple {quote : Char} (hq : isQuote quote = true) (c : Char)
    {closer : Region} (hcloser : closer.IsOrdinary) :
    (Region.insideTriple quote c closer).IsOrdinary := by
  unfold Region.insideTriple
  repeat' split
  all_goals first | exact hcloser | exact hq

/-- A text without carriage returns leads from ordinary regions to ordinary ones. -/
theorem isOrdinary_of_step {region next : Region} {c : Char} (hregion : region.IsOrdinary)
    (hc : c ≠ '\r') (h : region.step c = some next) : next.IsOrdinary := by
  cases region with
  | code =>
    cases h
    exact isOrdinary_outside c
  | continued =>
    simp only [Region.step] at h
    split at h
    · cases h
      trivial
    · cases h
  | comment =>
    cases h
    split <;> trivial
  | opened quote =>
    simp only [Region.step] at h
    split at h
    · cases h
      exact hregion
    · exact isOrdinary_of_inside hregion h
  | empty quote =>
    cases h
    split
    · exact hregion
    · exact isOrdinary_outside c
  | body quote triple =>
    cases triple with
    | false => exact isOrdinary_of_inside hregion h
    | true =>
      cases h
      exact isOrdinary_insideTriple hregion c hregion
  | escape quote triple =>
    cases h
    rw [if_neg fun hreturn => hc hreturn.1]
    exact hregion
  | returned quote => exact hregion.elim
  | closing quote second =>
    cases second with
    | false =>
      cases h
      exact isOrdinary_insideTriple hregion c hregion
    | true =>
      cases h
      exact isOrdinary_insideTriple hregion c trivial

/-! ### Line feeds for carriage returns -/

/-- After a backslash and a carriage return, only a line feed is read as in no other place of a
string. -/
theorem run_returned {quote c : Char} (hc : c ≠ '\n') (brackets rest : List Char) :
    run ⟨.returned quote, brackets⟩ (c :: rest) =
      run ⟨.body quote false, brackets⟩ (c :: rest) := by
  rw [run, run]
  simp [step, Region.step, Region.IsOutside, hc]

/-- A quote does not end a line. -/
theorem ne_of_isQuote {quote : Char} (h : isQuote quote = true) :
    '\n' ≠ quote ∧ '\r' ≠ quote := by
  constructor <;> rintro rfl <;> simp [isQuote] at h

/-- A string between single quotes does not go on after the end of a line. -/
theorem inside_newline {quote : Char} (h : isQuote quote = true) :
    Region.inside quote '\n' = none := by
  rw [Region.inside, if_neg (ne_of_isQuote h).1, if_neg (by decide), if_pos (by decide)]

/-- A string between triple quotes goes on after the end of a line. -/
theorem insideTriple_newline {quote : Char} (h : isQuote quote = true) (closer : Region) :
    Region.insideTriple quote '\n' closer = .body quote true ∧
      Region.insideTriple quote '\r' closer = .body quote true := by
  rw [Region.insideTriple, Region.insideTriple, if_neg (ne_of_isQuote h).1,
    if_neg (ne_of_isQuote h).2]
  exact ⟨rfl, rfl⟩

/-- A carriage return in an ordinary region leads where a line feed leads, and another line feed
changes nothing then, except after a backslash in a string between single quotes. -/
theorem step_return {s t : Place} (hs : s.region.IsOrdinary) (h : s.step '\n' = some t) :
    (s.step '\r' = some t ∧ t.step '\n' = some t) ∨
      ∃ quote, t = ⟨.body quote false, s.brackets⟩ ∧
        s.step '\r' = some ⟨.returned quote, s.brackets⟩ := by
  obtain ⟨region, brackets⟩ := s
  -- outside strings, and between triple quotes, the end of a line is like any other character
  have hcode : step ⟨region, brackets⟩ '\n' = some ⟨.code, brackets⟩ →
      step ⟨region, brackets⟩ '\r' = some ⟨.code, brackets⟩ →
      step ⟨region, brackets⟩ '\r' = some t ∧ t.step '\n' = some t := by
    intro hn hr
    obtain rfl := Option.some.inj (hn.symm.trans h)
    exact ⟨hr, rfl⟩
  have hbody : ∀ {quote : Char}, isQuote quote = true →
      step ⟨region, brackets⟩ '\n' = some ⟨.body quote true, brackets⟩ →
      step ⟨region, brackets⟩ '\r' = some ⟨.body quote true, brackets⟩ →
      step ⟨region, brackets⟩ '\r' = some t ∧ t.step '\n' = some t := by
    intro quote hq hn hr
    obtain rfl := Option.some.inj (hn.symm.trans h)
    exact ⟨hr, by simp [step, Region.step, Region.IsOutside, insideTriple_newline hq]⟩
  cases region with
  | code => exact Or.inl (hcode rfl rfl)
  | continued => exact Or.inl (hcode rfl rfl)
  | comment => exact Or.inl (hcode rfl rfl)
  | opened quote =>
    rw [step, Region.step, if_neg (ne_of_isQuote hs).1, inside_newline hs] at h
    cases h
  | empty quote =>
    have hstep : ∀ c, c ≠ quote → step ⟨.empty quote, brackets⟩ c = step ⟨.code, brackets⟩ c := by
      intro c hc
      simp [step, Region.step, Region.IsOutside, hc]
    exact Or.inl (hcode (hstep _ (ne_of_isQuote hs).1) (hstep _ (ne_of_isQuote hs).2))
  | body quote triple =>
    cases triple with
    | false =>
      rw [step, Region.step, inside_newline hs] at h
      cases h
    | true =>
      refine Or.inl (hbody hs ?_ ?_) <;>
        simp [step, Region.step, Region.IsOutside, insideTriple_newline hs]
  | escape quote triple =>
    cases triple with
    | false => exact Or.inr ⟨quote, (Option.some.inj h).symm, rfl⟩
    | true => exact Or.inl (hbody hs rfl rfl)
  | returned quote => exact hs.elim
  | closing quote second =>
    refine Or.inl (hbody hs ?_ ?_) <;> cases second <;>
      simp [step, Region.step, Region.IsOutside, insideTriple_newline hs]

/-- A text without carriage returns leads from ordinary places to ordinary ones. -/
theorem isOrdinary_of_place_step {s t : Place} {c : Char} (hs : s.region.IsOrdinary)
    (hc : c ≠ '\r') (h : s.step c = some t) : t.region.IsOrdinary := by
  unfold step at h
  split at h
  · cases h
  · next region hregion =>
    have hordinary := isOrdinary_of_step hs hc hregion
    split at h
    · obtain ⟨brackets, -, rfl⟩ := Option.map_eq_some_iff.mp h
      exact hordinary
    · cases h
      exact hordinary

/-- **The text as it is written leads where it leads with line feeds only**, if that is between
tokens. -/
theorem run_universalNewlines {s t : Place} {text : List Char} (hs : s.region.IsOrdinary)
    (ht : t.region.Settles []) (h : s.run (universalNewlines text) = some t) :
    s.run text = some t := by
  fun_induction universalNewlines text generalizing s with
  | case1 => exact h
  | case2 rest ih =>
    obtain ⟨u, hu, hrest⟩ := Option.bind_eq_some_iff.mp h
    have hu' := isOrdinary_of_place_step hs (by decide) hu
    have hrun := ih hu' hrest
    rw [run]
    rcases step_return hs hu with ⟨hreturn, hagain⟩ | ⟨quote, rfl, hreturn⟩
    · rw [hreturn, Option.bind_some, run, hagain]
      exact hrun
    · rw [hreturn]
      exact hrun
  | case3 rest hrest ih =>
    obtain ⟨u, hu, hmore⟩ := Option.bind_eq_some_iff.mp h
    have hrun := ih (isOrdinary_of_place_step hs (by decide) hu) hmore
    rw [run]
    rcases step_return hs hu with ⟨hreturn, -⟩ | ⟨quote, rfl, hreturn⟩
    · rw [hreturn]
      exact hrun
    · rw [hreturn]
      cases rest with
      | nil =>
        cases hrun
        exact ht.elim
      | cons c rest =>
        have hc : c ≠ '\n' := fun heq => hrest rest (by rw [heq])
        exact (run_returned hc _ _).trans hrun
  | case4 c rest hpair hreturn ih =>
    obtain ⟨u, hu, hmore⟩ := Option.bind_eq_some_iff.mp h
    rw [run, hu]
    exact ih (isOrdinary_of_place_step hs hreturn hu) hmore

/-- No carriage return is left among line feeds. -/
theorem not_mem_universalNewlines (text : List Char) : '\r' ∉ universalNewlines text := by
  fun_induction universalNewlines text with
  | case1 => exact List.not_mem_nil
  | case2 rest ih => simpa using ih
  | case3 rest hrest ih => simpa using ih
  | case4 c rest hpair hreturn ih =>
    simp only [List.mem_cons, not_or]
    exact ⟨fun heq => hreturn heq.symm, ih⟩

/-- **The texts that are read as they are** are those without a carriage return. -/
theorem universalNewlines_eq_self_iff {text : List Char} :
    universalNewlines text = text ↔ '\r' ∉ text := by
  constructor
  · exact fun h => h ▸ not_mem_universalNewlines text
  · intro h
    fun_induction universalNewlines text with
    | case1 => rfl
    | case2 rest ih => simp at h
    | case3 rest hrest ih => simp at h
    | case4 c rest hpair hreturn ih => rw [ih (List.not_mem_of_not_mem_cons h)]

/-- A text without carriage returns leads from ordinary places to ordinary ones. -/
theorem isOrdinary_of_run {s t : Place} {text : List Char} (hs : s.region.IsOrdinary)
    (hr : '\r' ∉ text) (h : s.run text = some t) : t.region.IsOrdinary := by
  induction text generalizing s with
  | nil =>
    cases h
    exact hs
  | cons c text ih =>
    simp only [List.mem_cons, not_or] at hr
    obtain ⟨u, hu, hrest⟩ := Option.bind_eq_some_iff.mp h
    exact ih (isOrdinary_of_place_step hs (Ne.symm hr.1) hu) hr.2 hrest

/-- **An expression whose tokens are complete** has no string or bracket that is left open. -/
theorem exists_run_of_tokens {text : List Char} (h : IsComplete (tokens text)) :
    ∃ last : Region, start.run text = some ⟨last, []⟩ ∧ last.Settles [] ∧ last.IsOrdinary := by
  have hcode : Region.code.Settles (universalNewlines text) := trivial
  obtain ⟨last, hrun, hlast⟩ := exists_of_tokensFrom (not_mem_universalNewlines text) hcode
    (Nat.lt_succ_self _) h
  have hordinary := isOrdinary_of_run (s := start) trivial (not_mem_universalNewlines text) hrun
  exact ⟨last, run_universalNewlines trivial hlast hrun, hlast, hordinary⟩

end Errata.Expression
