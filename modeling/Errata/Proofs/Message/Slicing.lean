import Errata.Proofs.Message.Escape

/-!
# Decoding part by part

The index of a decoded literal cuts the literal at the ends of its pieces, so that decoding the
part between two cuts yields the part of the text between the same two positions. Decoding that
fails does so at the first place at which it could: everything before is decoded on its own, and
what is behind fails in the same way on its own.

* `Decoded.Indexes`: the index leads from every part of the text to the part of the literal that
  decodes to it.
* `Invalid.IsFirstIn`: the escape is where decoding the literal comes to an end.
* **`decode_isFaithful`**: decoding any literal comes to one or the other.
-/

namespace Errata.Escape

/-! ### Where pieces start -/

section Boundaries

variable {start : Nat} {widths : List Nat}

/-- There is one position more than there are parts. -/
theorem length_boundaries : (boundaries start widths).length = widths.length + 1 := by
  induction widths generalizing start with
  | nil => rfl
  | cons width widths ih => simp [boundaries, ih]

/-- The first part starts at the start. -/
theorem head?_boundaries : (boundaries start widths).head? = some start := by
  cases widths <;> rfl

/-- The last position is behind all parts. -/
theorem getLast?_boundaries : (boundaries start widths).getLast? = some (start + widths.sum) := by
  rw [List.getLast?_eq_getElem?, length_boundaries, Nat.add_sub_cancel,
    getElem?_boundaries start (Nat.le_refl _), List.take_length]

/-- No part starts before the start. -/
theorem le_of_mem_boundaries {n : Nat} (h : n ∈ boundaries start widths) : start ≤ n := by
  obtain ⟨i, hi⟩ := List.getElem?_of_mem h
  have hlt : i < widths.length + 1 := by
    have hbound := (List.getElem?_eq_some_iff.mp hi).1
    rwa [length_boundaries] at hbound
  rw [getElem?_boundaries start (Nat.le_of_lt_succ hlt)] at hi
  cases hi
  exact Nat.le_add_right _ _

/-- Parts that are not empty start one behind the other. -/
theorem pairwise_boundaries (h : ∀ width ∈ widths, 0 < width) :
    (boundaries start widths).Pairwise (· < ·) := by
  induction widths generalizing start with
  | nil => exact List.pairwise_singleton _ _
  | cons width widths ih =>
    obtain ⟨hwidth, hwidths⟩ := List.forall_mem_cons.mp h
    refine List.pairwise_cons.mpr ⟨fun n hn => ?_, ih hwidths⟩
    have hle := le_of_mem_boundaries hn
    omega

end Boundaries

/-- Spelled pieces are not empty. -/
theorem width_pos_of_spells {ws : List (List Char)} {ps : List Piece}
    (h : List.Forall₂ Spells ws ps) : ∀ width ∈ ps.map Piece.width, 0 < width := by
  induction h with
  | nil => simp
  | cons hw _ ih =>
    refine List.forall_mem_cons.mpr ⟨?_, ih⟩
    rw [← hw.length_eq]
    exact List.length_pos_iff.mpr hw.ne_nil

/-! ### Decoded literals -/

/-- Whether the index of a decoded literal leads from every part of its text to the part of the
literal that decodes to it. -/
structure Decoded.Indexes (d : Decoded) (raw : List Char) : Prop where
  /-- It has a position for each code point and one behind the last. -/
  length_eq : d.index.length = d.text.length + 1
  /-- It starts where the literal does. -/
  head_eq : d.index.head? = some 0
  /-- Each position lies behind the one before. -/
  pairwise_lt : d.index.Pairwise (· < ·)
  /-- It ends where the literal does. -/
  getLast_eq : d.index.getLast? = some raw.length
  /-- What stands between two of its positions decodes to the text between the two. -/
  decode_extract : ∀ {i j a b : Nat}, i ≤ j → d.index[i]? = some a → d.index[j]? = some b →
    ∃ e, decode (raw.extract a b) = .ok e ∧ e.text = d.text.extract i j

/-- What stands between two positions of the index decodes to the text between the two. -/
theorem exists_decode_extract {raw : List Char} {d : Decoded} (h : decode raw = .ok d)
    {i j a b : Nat} (hij : i ≤ j) (hj : j ≤ d.text.length) (ha : d.index[i]? = some a)
    (hb : d.index[j]? = some b) :
    ∃ e, decode (raw.extract a b) = .ok e ∧ e.text = d.text.extract i j := by
  have htext : d.text = d.text.take i ++ d.text.extract i j ++ d.text.drop j := by
    rw [List.extract_eq_take_drop, List.append_assoc]
    conv_lhs =>
      rw [← List.take_append_drop i d.text, ← List.take_append_drop (j - i) (d.text.drop i),
        List.drop_drop, Nat.add_sub_cancel' hij]
  obtain ⟨front, middle, back, rfl, hfront, hmiddle, -, e, he, hetext⟩ :=
    exists_raw_of_decode h htext
  have hi : (d.text.take i).length = i := List.length_take_of_le (Nat.le_trans hij hj)
  have hij' : (d.text.take i ++ d.text.extract i j).length = j := by
    rw [List.length_append, hi, List.extract_eq_take_drop, List.length_take_of_le]
    · omega
    · rw [List.length_drop]
      omega
  rw [hi, ha] at hfront
  rw [hij', hb] at hmiddle
  cases hfront
  cases hmiddle
  refine ⟨e, ?_, hetext⟩
  rw [List.extract_eq_take_drop, List.append_assoc, List.drop_left, List.length_append,
    Nat.add_sub_cancel_left, List.take_left, he]

/-- **The index of a decoded literal** leads from every part of the text back to its literal. -/
theorem Decoded.indexes_of_decode {raw : List Char} {d : Decoded} (h : decode raw = .ok d) :
    d.Indexes raw := by
  obtain ⟨ws, ps, hws, hraw, hd⟩ := decode_eq_ok_iff.mp h
  have hindex : d.index = boundaries 0 (ps.map Piece.width) := by rw [← hd]; rfl
  have htext : d.text = ps.map Piece.value := by rw [← hd]; rfl
  have hlength : d.index.length = d.text.length + 1 := by
    rw [hindex, htext, length_boundaries, List.length_map, List.length_map]
  refine ⟨hlength, ?_, ?_, ?_, ?_⟩
  · rw [hindex, head?_boundaries]
  · rw [hindex]
    exact pairwise_boundaries (width_pos_of_spells hws)
  · rw [hindex, getLast?_boundaries, Nat.zero_add, ← length_flatten_of_spells hws, hraw]
  · intro i j a b hij ha hb
    have hj := (List.getElem?_eq_some_iff.mp hb).1
    exact exists_decode_extract h hij (by omega) ha hb

/-! ### Literals that are not decoded -/

/-- Whether an invalid escape is the first in a literal. -/
structure Invalid.IsFirstIn (e : Invalid) (raw : List Char) : Prop where
  /-- What stands before it is decoded on its own. -/
  decode_take : ∃ d, decode (raw.take e.offset) = .ok d
  /-- It starts with a backslash. -/
  getElem_eq : raw[e.offset]? = some '\\'
  /-- It is not empty. -/
  ne_nil : e.escape ≠ []
  /-- It is what stands at its position. -/
  prefix_drop : e.escape <+: raw.drop e.offset
  /-- From there on decoding fails with it at once. -/
  decode_drop : decode (raw.drop e.offset) = .error ⟨e.escape, 0⟩

/-- An escape that stands for nothing starts with a backslash. -/
theorem StartsInvalid.head?_eq {escape back : List Char} (h : StartsInvalid escape back) :
    escape.head? = some '\\' := by
  obtain ⟨c, rest, rfl⟩ := List.exists_cons_of_ne_nil h.ne_nil
  by_cases hc : c = '\\'
  · rw [hc]
    rfl
  · -- any other character is a piece by itself, and an escape behind it starts further on
    have heq := h.pieces_eq 0
    rw [List.cons_append, ← List.singleton_append, (Spells.plain hc).pieces_append,
      Outcome.map_eq_error_iff] at heq
    obtain ⟨ws, -, -, -, -, hoffset, -⟩ := exists_append_of_pieces_error heq
    simp only [List.length_singleton] at hoffset
    omega

/-- **Decoding fails at the first invalid escape.** -/
theorem Invalid.isFirstIn_of_decode {raw : List Char} {e : Invalid} (h : decode raw = .error e) :
    e.IsFirstIn raw := by
  obtain ⟨ws, ps, back, hws, rfl, hoffset, he⟩ :=
    exists_append_of_pieces_error (Outcome.map_eq_error_iff.mp h)
  rw [Nat.zero_add] at hoffset
  have htake : (ws.flatten ++ (e.escape ++ back)).take e.offset = ws.flatten := by
    rw [hoffset, List.take_left]
  have hdrop : (ws.flatten ++ (e.escape ++ back)).drop e.offset = e.escape ++ back := by
    rw [hoffset, List.drop_left]
  refine ⟨⟨.ofPieces ps, ?_⟩, ?_, he.ne_nil, ?_, ?_⟩
  · rw [htake]
    exact decode_eq_ok_iff.mpr ⟨ws, ps, hws, rfl, rfl⟩
  · rw [← List.head?_drop, hdrop, List.head?_append, he.head?_eq]
    rfl
  · rw [hdrop]
    exact List.prefix_append _ _
  · rw [hdrop, decode, he.pieces_eq]
    rfl

/-! ### Every literal -/

/-- Whether what decoding a literal comes to is in step with the literal. -/
def IsFaithful (raw : List Char) : Except Invalid Decoded → Prop
  | .ok d => d.Indexes raw
  | .error e => e.IsFirstIn raw

/-- **Decoding keeps in step with the literal.** If it succeeds, the index leads from each part of
the text to the part of the literal that decodes to it, and if it fails, it does so at the first
invalid escape. -/
theorem decode_isFaithful (raw : List Char) : IsFaithful raw (decode raw) := by
  cases h : decode raw with
  | ok d => exact Decoded.indexes_of_decode h
  | error e => exact Invalid.isFirstIn_of_decode h

end Errata.Escape
