import Errata.Text.Lines
import Mathlib.Data.List.DropRight
import Mathlib.Data.List.SplitBy

/-!
# Stripped lists and words

Stripping takes elements of one sort off both ends of a list, and none of another. The words of a
text are what is left when it is cut at white space.

* `IsStripped`: lists that stripping leaves as they are.
* **`isStripped_stripBy`**: a list is stripped once and for all.
* `countP_stripBy`, `mem_stripBy`: stripping keeps the elements of the other sort.
* `exists_append_stripBy`, **`stripBy_append`**: what stripping takes off, and what it leaves.
* `of_isBlank`: what holds of white space, read off its ranges.
* `words_append_blank`: **a word in front** of white space is the first word.
* `words_ne_nil`: a text that is not all white space has words.
-/

namespace Errata

variable {α β : Type} (p : α → Bool)

/-- Whether stripping leaves a list as it is. -/
def IsStripped (l : List α) : Prop :=
  stripBy p l = l

/-- Stripping takes elements off one end, and then off the other. -/
theorem stripBy_eq (l : List α) : stripBy p l = (l.dropWhile p).rdropWhile p := rfl

/-- What a prefix of a list starts with does not have the property either. -/
theorem dropWhile_eq_self_of_prefix {l l' : List α} (h : l' <+: l) (hl : l.dropWhile p = l) :
    l'.dropWhile p = l' := by
  cases l' with
  | nil => rfl
  | cons a l' =>
    obtain ⟨more, rfl⟩ := h
    rw [List.cons_append, List.dropWhile_cons] at hl
    rw [List.dropWhile_cons]
    split at hl
    · have hlength := (List.dropWhile_suffix (l := l' ++ more) p).length_le
      rw [hl] at hlength
      simp only [List.length_cons, List.length_append] at hlength
      omega
    · next ha => rw [if_neg ha]

/-- **A list is stripped once and for all.** -/
theorem isStripped_stripBy (l : List α) : IsStripped p (stripBy p l) := by
  rw [IsStripped, stripBy_eq p (stripBy p l), stripBy_eq p l,
    dropWhile_eq_self_of_prefix p (List.rdropWhile_prefix p (l.dropWhile p))
      (List.dropWhile_idempotent p l)]
  exact List.rdropWhile_idempotent p _

/-- A list without elements of the sort is stripped. -/
theorem isStripped_of_forall {l : List α} (h : ∀ a ∈ l, p a = false) : IsStripped p l := by
  have hdrop : ∀ {l' : List α}, (∀ a ∈ l', p a = false) → l'.dropWhile p = l' := by
    intro l' h'
    cases l' with
    | nil => rfl
    | cons a l' => exact List.dropWhile_cons_of_neg (by simp [h' a])
  rw [IsStripped, stripBy, hdrop h, hdrop (by simpa using h), List.reverse_reverse]

/-- An element of the sort in front is taken off. -/
theorem stripBy_cons_of_pos {a : α} (h : p a = true) (l : List α) :
    stripBy p (a :: l) = stripBy p l := by
  rw [stripBy, List.dropWhile_cons_of_pos h, stripBy]

/-- Stripping before or after a change of the elements that keeps their sort. -/
theorem stripBy_map (f : β → α) (l : List β) :
    stripBy p (l.map f) = (stripBy (p ∘ f) l).map f := by
  simp [stripBy, List.dropWhile_map, ← List.map_reverse]

/-- **Stripping keeps the elements of the other sort.** -/
theorem countP_stripBy (l : List α) :
    (stripBy p l).countP (fun a => !p a) = l.countP fun a => !p a := by
  have hdrop : ∀ l' : List α, (l'.dropWhile p).countP (fun a => !p a) =
      l'.countP fun a => !p a := by
    intro l'
    conv_rhs => rw [← List.takeWhile_append_dropWhile (p := p) (l := l'), List.countP_append]
    have htake : (l'.takeWhile p).countP (fun a => !p a) = 0 := by
      rw [List.countP_eq_zero]
      intro a ha
      simp [List.mem_takeWhile_imp ha]
    rw [htake, Nat.zero_add]
  rw [stripBy, List.countP_reverse, hdrop, List.countP_reverse, hdrop]

/-- An element of the other sort is kept. -/
theorem mem_stripBy {l : List α} {a : α} (h : a ∈ l) (ha : p a = false) : a ∈ stripBy p l := by
  have hdrop : ∀ {l' : List α}, a ∈ l' → a ∈ l'.dropWhile p := by
    intro l' hm
    rw [← List.takeWhile_append_dropWhile (p := p) (l := l'), List.mem_append] at hm
    refine hm.resolve_left fun htake => ?_
    rw [List.mem_takeWhile_imp htake] at ha
    cases ha
  rw [stripBy, List.mem_reverse]
  exact hdrop (List.mem_reverse.mpr (hdrop h))

/-- What stripping takes off stands at either end. -/
theorem exists_append_stripBy (l : List α) :
    ∃ front back, l = front ++ stripBy p l ++ back ∧
      (∀ a ∈ front, p a = true) ∧ ∀ a ∈ back, p a = true := by
  refine ⟨l.takeWhile p, (l.dropWhile p).rtakeWhile p, ?_, fun a => List.mem_takeWhile_imp,
    fun a => List.mem_rtakeWhile_imp⟩
  rw [stripBy_eq, List.append_assoc, List.rdropWhile_append_rtakeWhile,
    List.takeWhile_append_dropWhile]

/-- **What stands around a list** that neither starts nor ends with an element of the sort is taken
off. -/
theorem stripBy_append {front back body : List α} (hfront : ∀ a ∈ front, p a = true)
    (hback : ∀ a ∈ back, p a = true) (hne : body ≠ [])
    (hhead : ∀ a ∈ body.head?, p a = false) (hlast : ∀ a ∈ body.getLast?, p a = false) :
    stripBy p (front ++ body ++ back) = body := by
  induction front with
  | nil =>
    obtain ⟨a, rest, rfl⟩ := List.exists_cons_of_ne_nil hne
    have hdrop : (a :: rest ++ back).dropWhile p = a :: rest ++ back :=
      List.dropWhile_cons_of_neg (by simp [hhead a rfl])
    rw [List.nil_append, stripBy_eq, hdrop]
    induction back using List.reverseRecOn with
    | nil =>
      rw [List.append_nil, List.rdropWhile_eq_self_iff]
      intro hl
      simp [hlast _ (List.getLast?_eq_some_getLast hl)]
    | append_singleton back b ih =>
      rw [← List.append_assoc, List.rdropWhile_concat_pos _ _ _ (hback b (by simp))]
      refine ih (fun c hc => hback c (by simp [hc])) ?_
      exact List.dropWhile_cons_of_neg (by simp [hhead a rfl])
  | cons a front ih =>
    obtain ⟨ha, hfront⟩ := List.forall_mem_cons.mp hfront
    rw [List.cons_append, List.cons_append, stripBy_cons_of_pos p ha]
    exact ih hfront

/-- The numbers in ranges, one by one. -/
def Unicode.Ranges.numbers (ranges : Unicode.Ranges) : List Nat :=
  ranges.flatMap fun range => List.range' range.1 (range.2 + 1 - range.1)

/-- A number in ranges is one of those that they list. -/
theorem Unicode.Ranges.mem_numbers {ranges : Unicode.Ranges} {n : Nat}
    (h : ranges.contains n = true) : n ∈ ranges.numbers := by
  induction ranges with
  | nil => cases h
  | cons range ranges ih =>
    obtain ⟨lo, hi⟩ := range
    rw [numbers, List.flatMap_cons, List.mem_append]
    rw [Unicode.Ranges.contains] at h
    split at h
    · refine Or.inl (List.mem_range'_1.mpr ?_)
      have hlo : lo ≤ n := by simpa using h
      omega
    · exact Or.inr (ih h)

/-- What holds of white space, one code point after the other. -/
theorem of_isBlank {holds : Nat → Bool} (h : Unicode.blankRanges.numbers.all holds = true)
    {c : Char} (hc : Unicode.isBlank c = true) : holds c.toNat = true :=
  List.all_eq_true.mp h _ (Unicode.Ranges.mem_numbers hc)

/-! ### Words -/

/-- Whether two characters are both white space, or neither of them is. -/
def sameSort (a b : Char) : Bool :=
  Unicode.isBlank a == Unicode.isBlank b

/-- Words are runs of characters of one sort. -/
theorem words_eq (chars : List Char) :
    words chars = (chars.splitBy sameSort).filter fun run => !run.any Unicode.isBlank := rfl

/-- All characters of a run are of one sort. -/
theorem sameSort_of_mem_splitBy {chars run : List Char} (hrun : run ∈ chars.splitBy sameSort)
    {a b : Char} (ha : a ∈ run) (hb : b ∈ run) : Unicode.isBlank a = Unicode.isBlank b := by
  have hchain := List.isChain_of_mem_splitBy hrun
  have hpairs : (run.map Unicode.isBlank).Pairwise Eq :=
    List.isChain_iff_pairwise.mp ((List.isChain_map Unicode.isBlank).mpr
      (hchain.imp fun _ _ h => eq_of_beq h))
  exact hpairs.forall_of_forall (fun _ _ => rfl) (List.mem_map_of_mem ha) (List.mem_map_of_mem hb)

/-- What holds no white space is one run. -/
theorem splitBy_word {word : List Char} (hne : word ≠ [])
    (hword : ∀ c ∈ word, Unicode.isBlank c = false) : word.splitBy sameSort = [word] := by
  refine List.splitBy_of_isChain hne (List.Pairwise.isChain ?_)
  refine List.pairwise_of_forall_mem_list fun c hc d hd => ?_
  rw [sameSort, hword c hc, hword d hd]
  rfl

/-- What holds no white space is one word. -/
theorem words_word {word : List Char} (hne : word ≠ [])
    (hword : ∀ c ∈ word, Unicode.isBlank c = false) : words word = [word] := by
  rw [words_eq, splitBy_word hne hword]
  exact List.filter_cons_of_pos (by simpa using hword)

/-- **A word in front** of white space is the first word. -/
theorem words_append_blank {word : List Char} (rest : List Char) {b : Char} (hne : word ≠ [])
    (hword : ∀ c ∈ word, Unicode.isBlank c = false) (hb : Unicode.isBlank b = true) :
    words (word ++ b :: rest) = word :: words (b :: rest) := by
  have hcut : ∀ x ∈ word.getLast?, sameSort x b = false := by
    intro x hx
    rw [sameSort, hword x (List.mem_of_mem_getLast? hx), hb]
    rfl
  rw [words_eq, List.splitBy_append_cons rest hcut, splitBy_word hne hword, List.singleton_append,
    words_eq]
  exact List.filter_cons_of_pos (by simpa using hword)

/-- **A text that is not all white space has words.** -/
theorem words_ne_nil {chars : List Char} {c : Char} (hc : c ∈ chars)
    (hblank : Unicode.isBlank c = false) : words chars ≠ [] := by
  rw [← List.flatten_splitBy sameSort chars] at hc
  obtain ⟨run, hrun, hc⟩ := List.mem_flatten.mp hc
  have hkept : (!run.any Unicode.isBlank) = true := by
    rw [Bool.not_eq_true', List.any_eq_false]
    intro d hd
    rw [sameSort_of_mem_splitBy hrun hd hc, hblank]
    exact Bool.false_ne_true
  exact List.ne_nil_of_mem (List.mem_filter.mpr ⟨hrun, hkept⟩)

end Errata
