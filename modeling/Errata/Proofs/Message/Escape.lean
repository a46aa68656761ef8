import Errata.Message.Escape
import Errata.Proofs.Outcome
import Errata.Proofs.Syntax.Scanner
import Errata.Proofs.Text.Hexadecimal
import Mathlib.Algebra.GroupWithZero.Nat
import Mathlib.Data.List.Forall2

/-!
# What pieces are spelled like

A literal decodes into pieces, and each piece is spelled by a stretch of the literal that means the
same wherever it stands. So a part of the decoded text leads back to a part of the literal, and that
part decodes to it on its own.

* `Spells`: how a piece is spelled.
* **`pieces_eq_ok_iff`**: the pieces of a literal are those it is put together from.
* **`exists_raw_of_decode`**: a part of the decoded text comes from a part of the literal, whose
  ends the index gives.
* `exists_append_of_decode_error`: an invalid escape is a part of the literal.
* `IsPaired`: literals in which every backslash takes the next character along, such as those
  between the quotes of a token (`isPaired_of_stringBody`). **They do not end in the middle of an
  escape** (`escape_ne_of_isPaired`).
-/

namespace Errata.Escape

/-! ### Spellings -/

/-- How a piece is spelled. -/
inductive Spells : List Char → Piece → Prop
  /-- By the character it stands for. -/
  | plain {c : Char} (h : c ≠ '\\') : Spells [c] ⟨1, .char c⟩
  /-- By a backslash and a letter. -/
  | simple {kind c : Char} (h : simple? kind = some c) : Spells ['\\', kind] ⟨2, .char c⟩
  /-- By a backslash, a letter and digits. -/
  | numeric {kind : Char} {count : Nat} {digits : List Char} {value : CodePoint}
      (hs : simple? kind = none) (hc : digitCount? kind = some count)
      (hn : numeric? count digits = some value) :
      Spells ('\\' :: kind :: digits) ⟨2 + count, value⟩

/-- A numeric escape has as many digits as its letter asks for. -/
theorem length_of_numeric? {count : Nat} {digits : List Char} {value : CodePoint}
    (h : numeric? count digits = some value) : digits.length = count := by
  unfold numeric? at h
  split at h
  · cases h
  · next hlen => exact not_not.mp hlen

/-- The width of a piece is the length of its spelling. -/
theorem Spells.length_eq {w : List Char} {p : Piece} (h : Spells w p) : w.length = p.width := by
  cases h with
  | plain h => rfl
  | simple h => rfl
  | numeric hs hc hn =>
    have := length_of_numeric? hn
    simp only [List.length_cons]
    omega

/-- No spelling is empty. -/
theorem Spells.ne_nil {w : List Char} {p : Piece} (h : Spells w p) : w ≠ [] := by
  cases h <;> exact List.cons_ne_nil _ _

/-- A spelling makes its piece, whatever stands behind it. -/
theorem Spells.pieces_append {w : List Char} {p : Piece} (h : Spells w p) (offset : Nat)
    (rest : List Char) :
    pieces offset (w ++ rest) = (pieces (offset + w.length) rest).map (p :: ·) := by
  cases h with
  | plain hc =>
    rw [List.singleton_append, pieces]
    · cases pieces (offset + 1) rest <;> simp [bind, Except.bind, pure, Except.pure, Except.map]
    · rintro kind more heq
      exact absurd heq hc
    · rintro heq
      exact absurd heq hc
  | simple hk =>
    rw [List.cons_append, List.cons_append, List.nil_append, pieces, hk]
    cases pieces (offset + 2) rest <;>
      simp [bind, Except.bind, pure, Except.pure, Except.map]
  | @numeric kind count digits value hs hc hn =>
    have hlen := length_of_numeric? hn
    have htake : (digits ++ rest).take count = digits := by rw [← hlen, List.take_left]
    have hdrop : (digits ++ rest).drop count = rest := by rw [← hlen, List.drop_left]
    have hoffset : offset + ('\\' :: kind :: digits).length = offset + 2 + count := by
      simp only [List.length_cons]
      omega
    rw [List.cons_append, List.cons_append, pieces, hs, hc]
    simp only [htake, hdrop, hn, hoffset]
    cases pieces (offset + 2 + count) rest <;>
      simp [bind, Except.bind, pure, Except.pure, Except.map]

/-- Whether a literal starts with an escape that stands for nothing. -/
structure StartsInvalid (escape back : List Char) : Prop where
  /-- The escape is not empty. -/
  ne_nil : escape ≠ []
  /-- A backslash is taken alone only at the end. -/
  eq_nil_of_lone : escape = ['\\'] → back = []
  /-- It is the first invalid escape. -/
  pieces_eq : ∀ offset, pieces offset (escape ++ back) = .error ⟨escape, offset⟩

/-- A literal is empty, or starts with the spelling of a piece or with an invalid escape. -/
theorem cases_raw (raw : List Char) :
    raw = [] ∨ (∃ w p rest, Spells w p ∧ raw = w ++ rest) ∨
      ∃ escape back, StartsInvalid escape back ∧ raw = escape ++ back := by
  rcases raw with _ | ⟨c, rest⟩
  · exact Or.inl rfl
  · refine Or.inr ?_
    by_cases hc : c = '\\'
    · subst hc
      rcases rest with _ | ⟨kind, rest⟩
      · refine Or.inr ⟨['\\'], [], ⟨List.cons_ne_nil _ _, fun _ => rfl, fun offset => ?_⟩, rfl⟩
        simp [pieces, throw, throwThe, MonadExceptOf.throw]
      · cases hs : simple? kind with
        | some c => exact Or.inl ⟨['\\', kind], _, rest, .simple hs, rfl⟩
        | none =>
          cases hd : digitCount? kind with
          | none =>
            refine Or.inr ⟨['\\', kind], rest, ⟨List.cons_ne_nil _ _, by simp, fun offset => ?_⟩,
              rfl⟩
            simp [pieces, hs, hd, throw, throwThe, MonadExceptOf.throw]
          | some count =>
            cases hn : numeric? count (rest.take count) with
            | some value =>
              refine Or.inl ⟨'\\' :: kind :: rest.take count, _, rest.drop count,
                .numeric hs hd hn, ?_⟩
              rw [List.cons_append, List.cons_append, List.take_append_drop]
            | none =>
              have hraw : '\\' :: kind :: rest =
                  ('\\' :: kind :: rest.take count) ++ rest.drop count := by
                rw [List.cons_append, List.cons_append, List.take_append_drop]
              refine Or.inr ⟨'\\' :: kind :: rest.take count, rest.drop count,
                ⟨List.cons_ne_nil _ _, by simp, fun offset => ?_⟩, hraw⟩
              rw [← hraw]
              simp [pieces, hs, hd, hn, throw, throwThe, MonadExceptOf.throw]
    · exact Or.inl ⟨[c], _, rest, .plain hc, rfl⟩

/-- Induction on the pieces of a literal, up to its end or to its first invalid escape. -/
@[elab_as_elim]
theorem raw_induction {motive : List Char → Prop} (nil : motive [])
    (piece : ∀ w p rest, Spells w p → motive rest → motive (w ++ rest))
    (invalid : ∀ escape back, StartsInvalid escape back → motive (escape ++ back))
    (raw : List Char) : motive raw := by
  induction h : raw.length using Nat.strongRecOn generalizing raw with
  | ind n ih =>
    rcases cases_raw raw with rfl | ⟨w, p, rest, hw, rfl⟩ | ⟨escape, back, he, rfl⟩
    · exact nil
    · have hpos := List.length_pos_iff.mpr hw.ne_nil
      rw [List.length_append] at h
      exact piece w p rest hw (ih rest.length (by omega) rest rfl)
    · exact invalid escape back he

/-- **The pieces of a literal** are those it is put together from. -/
theorem pieces_eq_ok_iff {offset : Nat} {raw : List Char} {ps : List Piece} :
    pieces offset raw = .ok ps ↔ ∃ ws, List.Forall₂ Spells ws ps ∧ ws.flatten = raw := by
  constructor
  · intro h
    induction raw using raw_induction generalizing offset ps with
    | nil =>
      rw [pieces] at h
      cases h
      exact ⟨[], .nil, rfl⟩
    | piece w p rest hw ih =>
      rw [hw.pieces_append] at h
      obtain ⟨qs, hqs, rfl⟩ := Outcome.map_eq_ok_iff.mp h
      obtain ⟨ws, hws, rfl⟩ := ih hqs
      exact ⟨w :: ws, .cons hw hws, rfl⟩
    | invalid escape back he =>
      rw [he.pieces_eq] at h
      cases h
  · rintro ⟨ws, hws, rfl⟩
    induction hws generalizing offset with
    | nil =>
      rw [List.flatten_nil, pieces]
      rfl
    | cons hw _ ih =>
      rw [List.flatten_cons, hw.pieces_append, ih]
      rfl

/-! ### Decoded text and its literal -/

/-- The position at which a part starts is the sum of the widths before it. -/
theorem getElem?_boundaries (start : Nat) {widths : List Nat} {i : Nat} (h : i ≤ widths.length) :
    (boundaries start widths)[i]? = some (start + (widths.take i).sum) := by
  induction widths generalizing start i with
  | nil =>
    obtain rfl : i = 0 := Nat.le_zero.mp h
    rfl
  | cons width widths ih =>
    cases i with
    | zero => rfl
    | succ i =>
      rw [boundaries, List.getElem?_cons_succ, ih _ (Nat.le_of_succ_le_succ h), List.take_succ_cons,
        List.sum_cons, Nat.add_assoc]

/-- Spellings are as long as their pieces are wide. -/
theorem length_flatten_of_spells {ws : List (List Char)} {ps : List Piece}
    (h : List.Forall₂ Spells ws ps) : ws.flatten.length = (ps.map Piece.width).sum := by
  induction h with
  | nil => rfl
  | cons hw _ ih => simp [hw.length_eq, ih]

/-- The spellings of pieces in two parts. -/
theorem exists_append_of_spells {ws : List (List Char)} {ps qs : List Piece}
    (h : List.Forall₂ Spells ws (ps ++ qs)) :
    ∃ us vs, ws = us ++ vs ∧ List.Forall₂ Spells us ps ∧ List.Forall₂ Spells vs qs :=
  ⟨_, _, (List.take_append_drop ps.length ws).symm, List.forall₂_take_append ws ps qs h,
    List.forall₂_drop_append ws ps qs h⟩

/-- A literal is decoded if it is put together from spellings. -/
theorem decode_eq_ok_iff {raw : List Char} {d : Decoded} :
    decode raw = .ok d ↔
      ∃ ws ps, List.Forall₂ Spells ws ps ∧ ws.flatten = raw ∧ Decoded.ofPieces ps = d := by
  rw [decode, Outcome.map_eq_ok_iff]
  constructor
  · rintro ⟨ps, hps, rfl⟩
    obtain ⟨ws, hws, hraw⟩ := pieces_eq_ok_iff.mp hps
    exact ⟨ws, ps, hws, hraw, rfl⟩
  · rintro ⟨ws, ps, hws, hraw, rfl⟩
    exact ⟨ps, pieces_eq_ok_iff.mpr ⟨ws, hws, hraw⟩, rfl⟩

/-- **A part of the decoded text** comes from a part of the literal that decodes to it on its own.
The index gives both its ends. -/
theorem exists_raw_of_decode {raw : List Char} {d : Decoded} (h : decode raw = .ok d)
    {before part after : Text} (ht : d.text = before ++ part ++ after) :
    ∃ front middle back, raw = front ++ middle ++ back ∧
      d.index[before.length]? = some front.length ∧
      d.index[(before ++ part).length]? = some (front ++ middle).length ∧
      (part ≠ [] → middle ≠ []) ∧
      ∃ e, decode middle = .ok e ∧ e.text = part := by
  obtain ⟨ws, ps, hws, rfl, rfl⟩ := decode_eq_ok_iff.mp h
  obtain ⟨ps₁₂, ps₃, rfl, hps, -⟩ := List.map_eq_append_iff.mp ht
  obtain ⟨ps₁, ps₂, rfl, rfl, rfl⟩ := List.map_eq_append_iff.mp hps
  obtain ⟨ws₁₂, ws₃, rfl, hws₁₂, hws₃⟩ := exists_append_of_spells hws
  obtain ⟨ws₁, ws₂, rfl, hws₁, hws₂⟩ := exists_append_of_spells hws₁₂
  have hindex : ∀ {us : List (List Char)} {qs rs : List Piece}, List.Forall₂ Spells us qs →
      (Decoded.ofPieces (qs ++ rs)).index[(qs.map Piece.value).length]? =
        some us.flatten.length := by
    intro us qs rs hus
    rw [Decoded.ofPieces, List.length_map, getElem?_boundaries 0 (by simp),
      length_flatten_of_spells hus, List.map_append, List.take_left' (List.length_map _),
      Nat.zero_add]
  refine ⟨ws₁.flatten, ws₂.flatten, ws₃.flatten, by simp, ?_, ?_, ?_, _,
    decode_eq_ok_iff.mpr ⟨ws₂, ps₂, hws₂, rfl, rfl⟩, rfl⟩
  · rw [List.append_assoc]
    exact hindex hws₁
  · rw [← List.map_append, ← List.flatten_append]
    exact hindex hws₁₂
  · intro hne
    cases hws₂ with
    | nil => exact absurd rfl hne
    | cons hw _ => simp [hw.ne_nil]

/-! ### Invalid escapes -/

/-- An invalid escape is a part of the literal, behind pieces that are spelled. -/
theorem exists_append_of_pieces_error {offset : Nat} {raw : List Char} {e : Invalid}
    (h : pieces offset raw = .error e) :
    ∃ ws ps back, List.Forall₂ Spells ws ps ∧ raw = ws.flatten ++ (e.escape ++ back) ∧
      e.offset = offset + ws.flatten.length ∧ StartsInvalid e.escape back := by
  induction raw using raw_induction generalizing offset with
  | nil =>
    rw [pieces] at h
    cases h
  | piece w p rest hw ih =>
    rw [hw.pieces_append, Outcome.map_eq_error_iff] at h
    obtain ⟨ws, ps, back, hws, rfl, hoffset, he⟩ := ih h
    refine ⟨w :: ws, p :: ps, back, .cons hw hws, by simp, ?_, he⟩
    rw [hoffset, List.flatten_cons, List.length_append, Nat.add_assoc]
  | invalid escape back he =>
    rw [he.pieces_eq] at h
    cases h
    exact ⟨[], [], back, .nil, rfl, rfl, he⟩

/-- An invalid escape is a part of the literal, and not empty. -/
theorem exists_append_of_decode_error {raw : List Char} {e : Invalid}
    (h : decode raw = .error e) :
    ∃ front back, raw = front ++ e.escape ++ back ∧ e.offset = front.length ∧ e.escape ≠ [] := by
  obtain ⟨ws, ps, back, -, hraw, hoffset, he⟩ :=
    exists_append_of_pieces_error (Outcome.map_eq_error_iff.mp h)
  exact ⟨ws.flatten, back, by rw [hraw, List.append_assoc], by rw [hoffset, Nat.zero_add],
    he.ne_nil⟩

/-! ### Literals of tokens -/

/-- Whether every backslash of a literal takes the next character along. -/
inductive IsPaired : List Char → Prop
  /-- There is none. -/
  | nil : IsPaired []
  /-- A backslash and the character it takes along. -/
  | escape {c : Char} {rest : List Char} (h : IsPaired rest) : IsPaired ('\\' :: c :: rest)
  /-- Any other character. -/
  | plain {c : Char} {rest : List Char} (hc : c ≠ '\\') (h : IsPaired rest) : IsPaired (c :: rest)

/-- Between the quotes of a token every backslash takes the next character along. -/
theorem isPaired_of_stringBody {chars body rest : List Char}
    (h : Syntax.stringBody chars = some (body, rest)) :
    ∃ raw, body = raw ++ ['"'] ∧ IsPaired raw := by
  fun_induction Syntax.stringBody chars generalizing body with
  | case1 => cases h
  | case2 =>
    cases h
    exact ⟨[], rfl, .nil⟩
  | case3 => cases h
  | case4 c rest' _ ih =>
    obtain ⟨⟨more, after⟩, hm, heq⟩ := Option.map_eq_some_iff.mp h
    cases heq
    obtain ⟨raw, rfl, hraw⟩ := ih hm
    exact ⟨'\\' :: c :: raw, rfl, .escape hraw⟩
  | case5 => cases h
  | case6 c rest' _ _ hc ih =>
    obtain ⟨⟨more, after⟩, hm, heq⟩ := Option.map_eq_some_iff.mp h
    cases heq
    obtain ⟨raw, rfl, hraw⟩ := ih hm
    exact ⟨c :: raw, rfl, .plain (not_or.mp hc).2 hraw⟩

/-- A character other than the backslash takes none along. -/
theorem IsPaired.of_plain {c : Char} {rest : List Char} (h : IsPaired (c :: rest))
    (hc : c ≠ '\\') : IsPaired rest := by
  cases h with
  | escape h => exact absurd rfl hc
  | plain _ h => exact h

/-- Behind a backslash and a character every backslash takes the next character along. -/
theorem IsPaired.of_escape {c : Char} {rest : List Char} (h : IsPaired ('\\' :: c :: rest)) :
    IsPaired rest := by
  cases h with
  | escape h => exact h
  | plain hc _ => exact absurd rfl hc

/-- Characters other than the backslash take none along. -/
theorem IsPaired.of_append {digits rest : List Char} (h : IsPaired (digits ++ rest))
    (hd : '\\' ∉ digits) : IsPaired rest := by
  induction digits with
  | nil => exact h
  | cons c digits ih =>
    obtain ⟨hc, hd⟩ := not_or.mp (mt List.mem_cons.mpr hd)
    exact ih (h.of_plain (Ne.symm hc)) hd

/-- A lone backslash takes nothing along. -/
theorem not_isPaired_lone : ¬IsPaired ['\\'] := by
  rintro (_ | _ | ⟨hc, -⟩)
  exact hc rfl

/-- The digits of a numeric escape hold no backslash. -/
theorem notMem_of_numeric? {count : Nat} {digits : List Char} {value : CodePoint}
    (h : numeric? count digits = some value) : '\\' ∉ digits := by
  unfold numeric? at h
  split at h
  · cases h
  · split at h
    · next n hn =>
      exact (Hexadecimal.numeral?_eq_some_iff.mp hn).notMem (by decide) (by decide)
        (by decide)
    · cases h

/-- Behind the spelling of a piece every backslash takes the next character along. -/
theorem IsPaired.of_spells {w rest : List Char} {p : Piece} (h : IsPaired (w ++ rest))
    (hw : Spells w p) : IsPaired rest := by
  cases hw with
  | plain hc => exact h.of_plain hc
  | simple hk => exact h.of_escape
  | numeric hs hc hn => exact h.of_escape.of_append (notMem_of_numeric? hn)

/-- Behind the spellings of pieces every backslash takes the next character along. -/
theorem IsPaired.of_forall_spells {ws : List (List Char)} {ps : List Piece} {rest : List Char}
    (h : IsPaired (ws.flatten ++ rest)) (hws : List.Forall₂ Spells ws ps) : IsPaired rest := by
  induction hws with
  | nil => exact h
  | cons hw _ ih =>
    rw [List.flatten_cons, List.append_assoc] at h
    exact ih (h.of_spells hw)

/-- **Where every backslash takes a character along**, decoding never comes to a backslash at the
end. -/
theorem escape_ne_of_isPaired {raw : List Char} (hraw : IsPaired raw) {e : Invalid}
    (h : decode raw = .error e) : e.escape ≠ ['\\'] := by
  intro hlone
  obtain ⟨ws, ps, back, hws, rfl, -, he⟩ :=
    exists_append_of_pieces_error (Outcome.map_eq_error_iff.mp h)
  have hback := hraw.of_forall_spells hws
  rw [he.eq_nil_of_lone hlone, hlone] at hback
  exact not_isPaired_lone hback

end Errata.Escape
