import Errata.Proofs.Text.Blank
import Mathlib.Data.List.Infix

/-!
# Words joined by blanks

A text is put in one line when its words are joined by single blanks. Character by character this
keeps all that is not white space, and puts one blank for white space between words. So what stands
in a text still stands there when the text is put in one line.

* `joined`: a text in one line.
* `joined_cons_of_blank`, `joined_cons_cons`, `joined_cons_gap`: a text in one line, character by
  character.
* **`joined_infix_append`**: a part of a text stands in the whole, both in one line.
* `collapse`: a text with a blank for each run of white space.
* **`collapse_append`**: a text in two parts that is not cut within a run.
* **`joined_eq_collapse`**: a text in one line has a blank for each run.
-/

namespace Errata

/-- The words of a text, joined by single blanks. -/
def joined (text : List Char) : List Char :=
  [' '].intercalate (words text)

/-! ### Words, character by character -/

/-- A character in front of one of its sort belongs to the same run. -/
theorem exists_splitBy_cons {α : Type} {r : α → α → Bool} {a b : α} (h : r a b = true)
    (rest : List α) :
    ∃ more runs, (b :: rest).splitBy r = (b :: more) :: runs ∧
      (a :: b :: rest).splitBy r = (a :: b :: more) :: runs := by
  have hne : b :: rest ≠ [] := List.cons_ne_nil b rest
  obtain ⟨run, runs, hruns⟩ := List.exists_cons_of_ne_nil (List.splitBy_ne_nil.mpr hne)
  have hmem : run ∈ (b :: rest).splitBy r := hruns ▸ List.mem_cons_self
  obtain ⟨first, more, rfl⟩ := List.exists_cons_of_ne_nil (List.ne_nil_of_mem_splitBy hmem)
  have hflatten := List.flatten_splitBy r (b :: rest)
  rw [hruns, List.flatten_cons, List.cons_append] at hflatten
  obtain ⟨rfl, hrest⟩ := List.cons.inj hflatten
  refine ⟨more, runs, hruns, ?_⟩
  have hnil := List.nil_notMem_splitBy r (first :: rest)
  have hcut := List.isChain_getLast_head_splitBy r (first :: rest)
  rw [hruns] at hnil hcut
  have hwhole : a :: first :: rest = ((a :: first :: more) :: runs).flatten := by
    rw [List.flatten_cons, List.cons_append, List.cons_append, hrest]
  rw [hwhole]
  apply List.splitBy_flatten
  · intro hin
    rcases List.mem_cons.mp hin with hin | hin
    · cases hin
    · exact hnil (List.mem_cons_of_mem _ hin)
  · intro m hm
    rcases List.mem_cons.mp hm with rfl | hm
    · exact List.IsChain.cons_cons h (List.isChain_of_mem_splitBy hmem)
    · exact List.isChain_of_mem_splitBy (hruns ▸ List.mem_cons_of_mem _ hm)
  · cases runs with
    | nil => exact List.isChain_singleton _
    | cons second runs =>
      rw [List.isChain_cons_cons] at hcut ⊢
      obtain ⟨⟨hlast, hhead, hsort⟩, hcut⟩ := hcut
      exact ⟨⟨List.cons_ne_nil _ _, hhead, by rw [List.getLast_cons hlast]; exact hsort⟩, hcut⟩

/-- White space in front does not change the words. -/
theorem words_cons_of_blank {c : Char} (hc : Unicode.isBlank c = true) (rest : List Char) :
    words (c :: rest) = words rest := by
  cases rest with
  | nil => simp [words, List.splitBy, List.splitBy.loop, hc]
  | cons d rest =>
    cases hd : Unicode.isBlank d with
    | false =>
      have hcut : ∀ x ∈ [c].getLast?, sameSort x d = false := by
        intro x hx
        obtain rfl : c = x := by simpa using hx
        rw [sameSort, hc, hd]
        rfl
      have hsingle : [c].splitBy sameSort = [[c]] := rfl
      have hsplit := List.splitBy_append_cons rest hcut
      rw [List.singleton_append] at hsplit
      rw [words_eq, words_eq, hsplit, hsingle, List.singleton_append]
      exact List.filter_cons_of_neg (by simp [hc])
    | true =>
      have hsame : sameSort c d = true := by
        rw [sameSort, hc, hd]
        rfl
      obtain ⟨more, runs, hruns, hsplit⟩ := exists_splitBy_cons hsame rest
      rw [words_eq, words_eq, hruns, hsplit, List.filter_cons_of_neg (by simp [hc]),
        List.filter_cons_of_neg (by simp [hd])]

/-- A character in front of a word belongs to it. -/
theorem exists_words_cons_cons {c d : Char} (hc : Unicode.isBlank c = false)
    (hd : Unicode.isBlank d = false) (rest : List Char) :
    ∃ word others, words (d :: rest) = word :: others ∧
      words (c :: d :: rest) = (c :: word) :: others := by
  have hsame : sameSort c d = true := by
    rw [sameSort, hc, hd]
    rfl
  obtain ⟨more, runs, hruns, hsplit⟩ := exists_splitBy_cons hsame rest
  have hmem : d :: more ∈ (d :: rest).splitBy sameSort := hruns ▸ List.mem_cons_self
  have hmore : ∀ e ∈ d :: more, Unicode.isBlank e = false := by
    intro e he
    rw [sameSort_of_mem_splitBy hmem he List.mem_cons_self, hd]
  refine ⟨d :: more, runs.filter fun run => !run.any Unicode.isBlank, ?_, ?_⟩
  · rw [words_eq, hruns]
    exact List.filter_cons_of_pos (by simpa using hmore)
  · rw [words_eq, hsplit]
    exact List.filter_cons_of_pos (by simpa using ⟨hc, by simpa using hmore⟩)

/-! ### Joined texts, character by character -/

/-- White space in front is dropped. -/
theorem joined_cons_of_blank {c : Char} (hc : Unicode.isBlank c = true) (rest : List Char) :
    joined (c :: rest) = joined rest := by
  rw [joined, joined, words_cons_of_blank hc]

/-- One character. -/
theorem joined_singleton {c : Char} (hc : Unicode.isBlank c = false) : joined [c] = [c] := by
  simp [joined, words, List.splitBy, List.splitBy.loop, hc]

/-- A character in front of a word. -/
theorem joined_cons_cons {c d : Char} (hc : Unicode.isBlank c = false)
    (hd : Unicode.isBlank d = false) (rest : List Char) :
    joined (c :: d :: rest) = c :: joined (d :: rest) := by
  obtain ⟨word, others, hword, hwords⟩ := exists_words_cons_cons hc hd rest
  rw [joined, joined, hword, hwords]
  cases others with
  | nil => rfl
  | cons second others =>
    rw [List.intercalate_cons_cons, List.intercalate_cons_cons]
    rfl

/-- Nothing is left of a text exactly if it has no words. -/
theorem joined_eq_nil_iff {text : List Char} : joined text = [] ↔ words text = [] := by
  constructor
  · intro h
    cases hwords : words text with
    | nil => rfl
    | cons word others =>
      have hword : word ∈ words text := hwords ▸ List.mem_cons_self
      have hne := List.ne_nil_of_mem_splitBy (List.mem_filter.mp hword).1
      rw [joined, hwords] at h
      cases others with
      | nil => exact absurd (by simpa using h) hne
      | cons second others =>
        rw [List.intercalate_cons_cons] at h
        simp at h
  · intro h
    rw [joined, h]
    rfl

/-- A character in front of white space. -/
theorem joined_cons_gap {c d : Char} (hc : Unicode.isBlank c = false)
    (hd : Unicode.isBlank d = true) (rest : List Char) :
    joined (c :: d :: rest) =
      c :: if joined (d :: rest) = [] then [] else ' ' :: joined (d :: rest) := by
  have hwords : words (c :: d :: rest) = [c] :: words (d :: rest) :=
    words_append_blank rest (List.cons_ne_nil c []) (by simpa using hc) hd
  simp only [joined_eq_nil_iff]
  rw [joined, joined, hwords]
  cases words (d :: rest) with
  | nil => rfl
  | cons word others =>
    rw [List.intercalate_cons_cons]
    rfl

/-! ### Parts of texts -/

/-- The front of a text stands in front when both are put in one line. -/
theorem joined_prefix_append (front back : List Char) :
    joined front <+: joined (front ++ back) := by
  induction front with
  | nil => exact List.nil_prefix
  | cons c front ih =>
    rw [List.cons_append]
    cases hc : Unicode.isBlank c with
    | true =>
      rw [joined_cons_of_blank hc, joined_cons_of_blank hc]
      exact ih
    | false =>
      cases front with
      | nil =>
        rw [joined_singleton hc, List.nil_append]
        cases back with
        | nil => rw [joined_singleton hc]
        | cons d back =>
          cases hd : Unicode.isBlank d with
          | true =>
            rw [joined_cons_gap hc hd]
            exact ⟨_, rfl⟩
          | false =>
            rw [joined_cons_cons hc hd]
            exact ⟨_, rfl⟩
      | cons d front =>
        rw [List.cons_append] at ih ⊢
        cases hd : Unicode.isBlank d with
        | true =>
          rw [joined_cons_gap hc hd, joined_cons_gap hc hd, List.prefix_cons_inj]
          split
          · exact List.nil_prefix
          · next hsome =>
            have hmore : joined (d :: (front ++ back)) ≠ [] := by
              intro hnil
              rw [hnil, List.prefix_nil] at ih
              exact hsome ih
            rw [if_neg hmore, List.prefix_cons_inj]
            exact ih
        | false =>
          rw [joined_cons_cons hc hd, joined_cons_cons hc hd, List.prefix_cons_inj]
          exact ih

/-- The rest of a text stands at the end when both are put in one line. -/
theorem joined_suffix_append (front back : List Char) :
    joined back <:+ joined (front ++ back) := by
  induction front with
  | nil => exact List.suffix_rfl
  | cons c front ih =>
    refine ih.trans ?_
    rw [List.cons_append]
    cases hc : Unicode.isBlank c with
    | true => rw [joined_cons_of_blank hc]
    | false =>
      cases front ++ back with
      | nil => exact List.nil_suffix
      | cons d rest =>
        cases hd : Unicode.isBlank d with
        | true =>
          rw [joined_cons_gap hc hd]
          split
          · next hnil =>
            rw [hnil]
            exact List.nil_suffix
          · exact ⟨[c, ' '], rfl⟩
        | false =>
          rw [joined_cons_cons hc hd]
          exact List.suffix_cons c _

/-- **A part of a text** stands in the whole, both in one line. -/
theorem joined_infix_append (front part back : List Char) :
    joined part <:+: joined (front ++ part ++ back) := by
  rw [List.append_assoc]
  exact (joined_prefix_append part back).isInfix.trans
    (joined_suffix_append front (part ++ back)).isInfix

/-! ### Runs of white space -/

/-- A text with a blank in the place of each run of white space. -/
def collapse : List Char → List Char
  | [] => []
  | c :: rest =>
    if Unicode.isBlank c then
      if rest.head?.any Unicode.isBlank then collapse rest else ' ' :: collapse rest
    else c :: collapse rest

/-- Nothing. -/
@[simp] theorem collapse_nil : collapse [] = [] := rfl

/-- A character that is no white space is kept. -/
theorem collapse_cons {c : Char} (hc : Unicode.isBlank c = false) (rest : List Char) :
    collapse (c :: rest) = c :: collapse rest := by
  rw [collapse, if_neg (by simp [hc])]

/-- White space in front of white space is dropped. -/
theorem collapse_cons_cons {c d : Char} (hc : Unicode.isBlank c = true)
    (hd : Unicode.isBlank d = true) (rest : List Char) :
    collapse (c :: d :: rest) = collapse (d :: rest) := by
  rw [collapse, if_pos hc, if_pos (by simpa using hd)]

/-- The last white space of a run becomes a blank. -/
theorem collapse_cons_of_head {c : Char} (hc : Unicode.isBlank c = true) {rest : List Char}
    (hrest : ∀ d ∈ rest.head?, Unicode.isBlank d = false) :
    collapse (c :: rest) = ' ' :: collapse rest := by
  rw [collapse, if_pos hc, if_neg]
  rw [Bool.not_eq_true, Option.any_eq_false]
  exact fun d hd => by simpa using hrest d hd

/-- **White space in front of a text** gives a blank in front of the rest, unless that starts with
one. -/
theorem exists_collapse_cons {c : Char} (hc : Unicode.isBlank c = true) (rest : List Char) :
    ∃ more, collapse (c :: rest) = ' ' :: more ∧
      (collapse rest = more ∨ collapse rest = ' ' :: more) := by
  induction rest generalizing c with
  | nil => exact ⟨[], collapse_cons_of_head hc nofun, Or.inl rfl⟩
  | cons d rest ih =>
    cases hd : Unicode.isBlank d with
    | false =>
      refine ⟨collapse (d :: rest), collapse_cons_of_head hc ?_, Or.inl rfl⟩
      simpa using hd
    | true =>
      obtain ⟨more, hmore, -⟩ := ih hd
      exact ⟨more, (collapse_cons_cons hc hd rest).trans hmore, Or.inr hmore⟩

/-- A text starts with the same character as before, or with a blank in the place of white space. -/
theorem head?_collapse (text : List Char) :
    (collapse text).head? = text.head?.map fun c => if Unicode.isBlank c then ' ' else c := by
  cases text with
  | nil => rfl
  | cons c rest =>
    cases hc : Unicode.isBlank c with
    | false => simp [collapse_cons hc, hc]
    | true =>
      obtain ⟨more, hmore, -⟩ := exists_collapse_cons hc rest
      simp [hmore, hc]

/-- A text without white space is kept. -/
theorem collapse_eq_self {text : List Char} (h : ∀ c ∈ text, Unicode.isBlank c = false) :
    collapse text = text := by
  induction text with
  | nil => rfl
  | cons c rest ih =>
    obtain ⟨hc, hrest⟩ := List.forall_mem_cons.mp h
    rw [collapse_cons hc, ih hrest]

/-- The only white space that is left is the blank. -/
theorem eq_blank_of_mem_collapse {text : List Char} {c : Char} (h : c ∈ collapse text)
    (hc : Unicode.isBlank c = true) : c = ' ' := by
  induction text with
  | nil => cases h
  | cons d rest ih =>
    cases hd : Unicode.isBlank d with
    | false =>
      rw [collapse_cons hd, List.mem_cons] at h
      rcases h with rfl | h
      · cases hc.symm.trans hd
      · exact ih h
    | true =>
      obtain ⟨more, hmore, hrest⟩ := exists_collapse_cons hd rest
      rw [hmore, List.mem_cons] at h
      refine h.elim id fun h => ih ?_
      rcases hrest with hrest | hrest <;> rw [hrest]
      · exact h
      · exact List.mem_cons_of_mem _ h

/-- **A text in two parts** that is not cut within a run of white space. -/
theorem collapse_append {front back : List Char}
    (h : ∀ c ∈ front.getLast?, Unicode.isBlank c = true →
      ∀ d ∈ back.head?, Unicode.isBlank d = false) :
    collapse (front ++ back) = collapse front ++ collapse back := by
  induction front with
  | nil => rfl
  | cons c front ih =>
    cases front with
    | nil =>
      cases hc : Unicode.isBlank c with
      | false => rw [List.singleton_append, collapse_cons hc, collapse_cons hc]; rfl
      | true =>
        rw [List.singleton_append, collapse_cons_of_head hc (h c rfl hc),
          collapse_cons_of_head hc (by simp)]
        rfl
    | cons d front =>
      have hrest := ih (by simpa using h)
      rw [List.cons_append] at hrest ⊢
      rw [List.cons_append]
      cases hc : Unicode.isBlank c with
      | false => rw [collapse_cons hc, collapse_cons hc, hrest, List.cons_append]
      | true =>
        cases hd : Unicode.isBlank d with
        | false =>
          rw [collapse_cons_of_head hc (by simpa using hd),
            collapse_cons_of_head hc (by simpa using hd), hrest, List.cons_append]
        | true => rw [collapse_cons_cons hc hd, collapse_cons_cons hc hd, hrest]

/-- Behind its first white space, a text that does not end with white space is put in one line. -/
theorem collapse_eq_joined {text : List Char}
    (hlast : ∀ c ∈ text.getLast?, Unicode.isBlank c = false) :
    collapse text = if text.head?.any Unicode.isBlank then ' ' :: joined text else joined text := by
  induction text with
  | nil => rfl
  | cons c rest ih =>
    cases rest with
    | nil =>
      have hc := hlast c rfl
      simp [collapse_cons hc, joined_singleton hc, hc]
    | cons d rest =>
      have hrest := ih (by simpa using hlast)
      cases hc : Unicode.isBlank c with
      | true =>
        cases hd : Unicode.isBlank d with
        | true =>
          rw [collapse_cons_cons hc hd, hrest, joined_cons_of_blank hc]
          simp [hc, hd]
        | false =>
          rw [collapse_cons_of_head hc (by simpa using hd), hrest, joined_cons_of_blank hc]
          simp [hc, hd]
      | false =>
        rw [collapse_cons hc, hrest]
        cases hd : Unicode.isBlank d with
        | true =>
          have hlast' := List.getLast?_eq_some_getLast (List.cons_ne_nil d rest)
          have hwords : joined (d :: rest) ≠ [] := fun hnil =>
            words_ne_nil (List.mem_of_getLast? hlast') (hlast _ hlast') (joined_eq_nil_iff.mp hnil)
          rw [joined_cons_gap hc hd, if_neg hwords]
          simp [hc, hd]
        | false =>
          rw [joined_cons_cons hc hd]
          simp [hc, hd]

/-- **A text in one line**, if it neither starts nor ends with white space. -/
theorem joined_eq_collapse {text : List Char}
    (hhead : ∀ c ∈ text.head?, Unicode.isBlank c = false)
    (hlast : ∀ c ∈ text.getLast?, Unicode.isBlank c = false) : joined text = collapse text := by
  rw [collapse_eq_joined hlast, if_neg]
  rw [Bool.not_eq_true, Option.any_eq_false]
  exact fun c hc => by simpa using hhead c hc

end Errata
