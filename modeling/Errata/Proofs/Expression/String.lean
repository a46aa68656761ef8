import Errata.Proofs.Expression.Place

/-!
# Strings are passed over

The tokens of an expression are made from strings as a whole. Read one character at a time, a string
leads back outside: after its closing quotes no brackets are open but those before it. An empty
string shows only by what follows it.

* `Region.Settles`: places between tokens.
* `run_settled`: between tokens reading goes on as it does outside strings and comments.
* **`exists_of_scanString`**: a string leads to a place between tokens.
-/

namespace Errata.Expression

open Place

/-! ### Between tokens -/

/-- Whether a region leads outside strings and comments, in view of the text that follows. -/
def Region.Settles (rest : List Char) : Region → Prop
  | code => True
  | comment => ∀ c, rest.head? = some c → isNewline c = true
  | empty quote => rest.head? ≠ some quote
  | _ => False

/-- A character that ends a line is plain. -/
theorem isPlain_newline {c : Char} (h : isNewline c = true) : IsPlain c :=
  isPlain_of (p := isNewline) (by decide) h

/-- **Between tokens reading goes on** as it does outside strings and comments. -/
theorem run_settled {region : Region} {c : Char} {rest : List Char}
    (h : region.Settles (c :: rest)) (brackets : List Char) :
    run ⟨region, brackets⟩ (c :: rest) = run ⟨.code, brackets⟩ (c :: rest) := by
  cases region with
  | code => rfl
  | comment =>
    have hc : isNewline c = true := h c rfl
    rw [run, run, step_plain (isPlain_newline hc)]
    simp [step, Region.step, Region.IsOutside, hc]
  | empty quote =>
    have hc : c ≠ quote := fun heq => h (congrArg some heq)
    simp [run, step, Region.step, Region.IsOutside, hc]
  | _ => exact h.elim

/-! ### In a string -/

/-- A character in a string or a comment opens and closes no brackets. -/
theorem run_inside {region t : Region} {c : Char} (hin : ¬region.IsOutside c)
    (h : region.step c = some t) (brackets rest : List Char) :
    run ⟨region, brackets⟩ (c :: rest) = run ⟨t, brackets⟩ rest := by
  rw [run, show step ⟨region, brackets⟩ c = some ⟨t, brackets⟩ by simp [step, h, hin]]
  rfl

/-- A quote is no backslash. -/
theorem ne_backslash_of_isQuote {quote : Char} (h : isQuote quote = true) : quote ≠ '\\' := by
  rintro rfl
  revert h
  decide

/-- A backslash that no character follows ends no string, and one that some character follows takes
that along: any other character is no backslash. -/
theorem ne_backslash {c : Char} {rest : List Char} (hlast : c = '\\' → rest = [] → False)
    (hmore : ∀ d more, c = '\\' → rest = d :: more → False) : c ≠ '\\' := by
  intro hc
  cases rest with
  | nil => exact hlast hc rfl
  | cons d more => exact hmore d more hc rfl

/-- What a string is read from, one character longer. -/
theorem exists_of_map_cons {p : List Char} {o : Option (List Char × List Char)}
    {body behind : List Char}
    (h : o.map (fun (body, rest) => (p ++ body, rest)) = some (body, behind)) :
    ∃ body', o = some (body', behind) := by
  obtain ⟨⟨body', behind'⟩, ho, heq⟩ := Option.map_eq_some_iff.mp h
  obtain ⟨-, rfl⟩ := Prod.mk.inj heq
  exact ⟨body', ho⟩

section

variable {quote : Char} (hq : isQuote quote = true)
include hq

/-- The rest of a string between single quotes leads outside. -/
theorem exists_of_stringBody {text body behind : List Char} (hr : '\r' ∉ text)
    (h : stringBody quote false text = some (body, behind)) :
    ∃ passed, text = passed ++ behind ∧
      ∀ brackets, run ⟨.body quote false, brackets⟩ passed = some ⟨.code, brackets⟩ := by
  have hslash := ne_backslash_of_isQuote hq
  fun_induction stringBody quote false text generalizing body with
  | case1 => cases h
  | case2 => cases h
  | case3 c rest ih =>
    obtain ⟨body', hrest⟩ := exists_of_map_cons (p := ['\\', c]) h
    simp only [List.mem_cons, not_or] at hr
    obtain ⟨passed, rfl, hrun⟩ := ih hr.2.2 hrest
    refine ⟨'\\' :: c :: passed, rfl, fun brackets => ?_⟩
    rw [run_inside (t := .escape quote false) (by simp [Region.IsOutside])
        (by simp [Region.step, Region.inside, hslash.symm]),
      run_inside (t := .body quote false) (by simp [Region.IsOutside])
        (by simp [Region.step, Ne.symm hr.2.1])]
    exact hrun brackets
  | case4 => contradiction
  | case5 => contradiction
  | case6 rest =>
    obtain ⟨-, rfl⟩ := Prod.mk.inj (Option.some.inj h)
    refine ⟨[quote], rfl, fun brackets => ?_⟩
    exact run_inside (by simp [Region.IsOutside]) (by simp [Region.step, Region.inside]) _ _
  | case7 => cases h
  | case8 c rest hlast hmore _ hc hnewline ih =>
    obtain ⟨body', hrest⟩ := exists_of_map_cons (p := [c]) h
    simp only [List.mem_cons, not_or] at hr
    obtain ⟨passed, rfl, hrun⟩ := ih hr.2 hrest
    refine ⟨c :: passed, rfl, fun brackets => ?_⟩
    rw [run_inside (t := .body quote false) (by simp [Region.IsOutside])
      (by simp [Region.step, Region.inside, isNewline, hc, ne_backslash hlast hmore, hnewline,
        Ne.symm hr.1])]
    exact hrun brackets

/-- Whether reading is in a string between triple quotes whose closing quotes have not begun: one or
two quotes before are none of them, because too few follow. -/
def Region.IsWithin (quote : Char) (rest : List Char) : Region → Prop
  | body q true => q = quote
  | closing q false => q = quote ∧ [quote, quote].isPrefixOf rest = false
  | closing q true => q = quote ∧ rest.head? ≠ some quote
  | _ => False

omit hq in
/-- The closing quotes have not begun where no quote was read. -/
theorem isWithin_body (quote : Char) (rest : List Char) :
    (Region.body quote true).IsWithin quote rest := rfl

omit hq in
/-- In a string between triple quotes, any character but a quote leads on. -/
theorem run_within {region : Region} {c : Char} {rest : List Char}
    (h : region.IsWithin quote (c :: rest)) (hc : c ≠ quote) (brackets more : List Char) :
    run ⟨region, brackets⟩ (c :: more) =
      run ⟨if c = '\\' then .escape quote true else .body quote true, brackets⟩ more := by
  have hregion : ¬region.IsOutside c ∧
      region.step c = some (if c = '\\' then .escape quote true else .body quote true) := by
    unfold Region.IsWithin at h
    split at h
    · subst h
      simp [Region.IsOutside, Region.step, Region.insideTriple, hc]
    · obtain ⟨rfl, -⟩ := h
      simp [Region.IsOutside, Region.step, Region.insideTriple, hc]
    · obtain ⟨rfl, -⟩ := h
      simp [Region.IsOutside, Region.step, Region.insideTriple, hc]
    · exact h.elim
  exact run_inside hregion.1 hregion.2 brackets more

omit hq in
/-- In a string between triple quotes, a quote that does not begin the closing quotes leads on. -/
theorem exists_within_quote {region : Region} {rest : List Char}
    (h : region.IsWithin quote (quote :: rest)) (hrest : [quote, quote].isPrefixOf rest = false) :
    ∃ next : Region, next.IsWithin quote rest ∧
      ∀ brackets more, run ⟨region, brackets⟩ (quote :: more) = run ⟨next, brackets⟩ more := by
  unfold Region.IsWithin at h
  split at h
  · subst h
    exact ⟨.closing _ false, ⟨rfl, hrest⟩, fun brackets more =>
      run_inside (by simp [Region.IsOutside]) (by simp [Region.step, Region.insideTriple]) _ _⟩
  · obtain ⟨rfl, hfront⟩ := h
    refine ⟨.closing _ true, ⟨rfl, fun hhead => ?_⟩, fun brackets more =>
      run_inside (by simp [Region.IsOutside]) (by simp [Region.step, Region.insideTriple]) _ _⟩
    obtain ⟨more, rfl⟩ := List.head?_eq_some_iff.mp hhead
    simp at hfront
  · exact absurd rfl h.2
  · exact h.elim

/-- The rest of a string between triple quotes leads outside. -/
theorem exists_of_tripleBody {text body behind : List Char} (hr : '\r' ∉ text)
    (h : stringBody quote true text = some (body, behind)) {region : Region}
    (hin : region.IsWithin quote text) :
    ∃ passed, text = passed ++ behind ∧
      ∀ brackets, run ⟨region, brackets⟩ passed = some ⟨.code, brackets⟩ := by
  have hslash := ne_backslash_of_isQuote hq
  fun_induction stringBody quote true text generalizing body region with
  | case1 => cases h
  | case2 => cases h
  | case3 c rest ih =>
    obtain ⟨body', hrest⟩ := exists_of_map_cons (p := ['\\', c]) h
    simp only [List.mem_cons, not_or] at hr
    obtain ⟨passed, rfl, hrun⟩ := ih hr.2.2 hrest (isWithin_body _ _)
    refine ⟨'\\' :: c :: passed, rfl, fun brackets => ?_⟩
    rw [run_within hin hslash.symm, if_pos rfl,
      run_inside (t := .body quote true) (by simp [Region.IsOutside])
        (by simp [Region.step])]
    exact hrun brackets
  | case4 c rest hlast hmore _ hclose =>
    obtain ⟨-, rfl⟩ := Prod.mk.inj (Option.some.inj h)
    obtain ⟨rfl, hfront⟩ := hclose
    obtain ⟨more, rfl⟩ := List.isPrefixOf_iff_prefix.mp hfront
    refine ⟨[c, c, c], rfl, fun brackets => ?_⟩
    -- the closing quotes have not begun before the first of them
    have hregion : region = .body c true := by
      unfold Region.IsWithin at hin
      split at hin
      · rw [hin]
      · simp at hin
      · simp at hin
      · exact hin.elim
    rw [hregion,
      run_inside (t := .closing c false) (by simp [Region.IsOutside])
        (by simp [Region.step, Region.insideTriple]),
      run_inside (t := .closing c true) (by simp [Region.IsOutside])
        (by simp [Region.step, Region.insideTriple]),
      run_inside (t := .code) (by simp [Region.IsOutside])
        (by simp [Region.step, Region.insideTriple])]
    rfl
  | case5 c rest hlast hmore _ hclose ih =>
    obtain ⟨body', hrest⟩ := exists_of_map_cons (p := [c]) h
    simp only [List.mem_cons, not_or] at hr
    by_cases hc : c = quote
    · subst hc
      have hfront : [c, c].isPrefixOf rest = false :=
        Bool.eq_false_iff.mpr fun hp => hclose ⟨rfl, hp⟩
      obtain ⟨next, hnext, hstep⟩ := exists_within_quote hin hfront
      obtain ⟨passed, rfl, hrun⟩ := ih hr.2 hrest hnext
      exact ⟨c :: passed, rfl, fun brackets => (hstep brackets passed).trans (hrun brackets)⟩
    · obtain ⟨passed, rfl, hrun⟩ := ih hr.2 hrest (isWithin_body _ _)
      refine ⟨c :: passed, rfl, fun brackets => ?_⟩
      rw [run_within hin hc, if_neg (ne_backslash hlast hmore)]
      exact hrun brackets
  | case6 => contradiction
  | case7 => contradiction
  | case8 => contradiction

/-- A quote outside strings and comments opens a string. -/
theorem run_quote (brackets more : List Char) :
    run ⟨.code, brackets⟩ (quote :: more) = run ⟨.opened quote, brackets⟩ more := by
  have hquote : quote = '"' ∨ quote = '\'' := by simpa [isQuote] using hq
  rcases hquote with rfl | rfl <;> rfl

/-- A quote right after the first one ends a string between single quotes. -/
theorem stringBody_quote (rest : List Char) :
    stringBody quote false (quote :: rest) = some ([], rest) := by
  have hquote : quote = '"' ∨ quote = '\'' := by simpa [isQuote] using hq
  rcases hquote with rfl | rfl <;> simp [stringBody]

/-- **A string leads to a place between tokens**, where those brackets are open that were open
before. -/
theorem exists_of_scanString {line : Nat} {text body behind : List Char} (hr : '\r' ∉ text)
    (h : scanString line quote text = .ok (body, behind)) :
    ∃ passed region, quote :: text = passed ++ behind ∧ passed ≠ [] ∧ region.Settles behind ∧
      ∀ brackets, run ⟨.code, brackets⟩ passed = some ⟨region, brackets⟩ := by
  unfold scanString at h
  split at h
  · next hfront =>
    obtain ⟨rest, rfl⟩ := List.isPrefixOf_iff_prefix.mp hfront
    split at h
    · next parts hparts =>
      cases h
      have hr' : '\r' ∉ rest := by simp_all
      obtain ⟨passed, hpassed, hrun⟩ :=
        exists_of_tripleBody hq hr' hparts (isWithin_body _ _)
      refine ⟨quote :: quote :: quote :: passed, .code, ?_, List.cons_ne_nil _ _, trivial,
        fun brackets => ?_⟩
      · show quote :: quote :: quote :: rest = _
        rw [show rest = passed ++ behind from hpassed]
        rfl
      · rw [run_quote hq, run_inside (t := .empty quote) (by simp [Region.IsOutside])
            (by simp [Region.step]),
          run_inside (t := .body quote true) (by simp [Region.IsOutside])
            (by simp [Region.step])]
        exact hrun brackets
    · cases h
  · next hfront =>
    split at h
    · next parts hparts =>
      cases h
      by_cases hhead : text.head? = some quote
      · -- the string is empty: the quote after the first one closes it
        obtain ⟨rest, rfl⟩ := List.head?_eq_some_iff.mp hhead
        obtain ⟨-, rfl⟩ :=
          Prod.mk.inj (Option.some.inj ((stringBody_quote hq rest).symm.trans hparts))
        refine ⟨[quote, quote], .empty quote, rfl, List.cons_ne_nil _ _, ?_, fun brackets => ?_⟩
        · intro hthird
          obtain ⟨more, rfl⟩ := List.head?_eq_some_iff.mp hthird
          simp at hfront
        · rw [run_quote hq]
          exact run_inside (by simp [Region.IsOutside]) (by simp [Region.step]) _ _
      · obtain ⟨passed, rfl, hrun⟩ := exists_of_stringBody hq hr hparts
        cases passed with
        | nil => simp [run] at hrun
        | cons c passed =>
          have hc : c ≠ quote := fun heq => hhead (congrArg some heq)
          refine ⟨quote :: c :: passed, .code, rfl, List.cons_ne_nil _ _, trivial,
            fun brackets => ?_⟩
          rw [run_quote hq, ← hrun brackets, run, run]
          simp [step, Region.step, Region.IsOutside, hc]
    · cases h

end

end Errata.Expression
