import Errata.Proofs.Text.Blank
import Errata.Text.Hexadecimal

/-!
# The grammar of hexadecimal numerals

Reading a numeral with a value that grows digit by digit accepts a grammar that says nothing of
values or of the order of reading: white space, a sign, a radix mark, digits and white space again,
of which only the digits have to be there.

* `IsMagnitude`: one or more digits, with at most one low line between two of them.
* `IsNumeral`: what may stand around them.
* **`numeral?_eq_some_iff`**: what is read as a numeral.
* `asciiDigit?`, **`numeral?_of_ascii`**: digits as they are documented, and what they are read as.
-/

namespace Errata.Hexadecimal

/-- The number with the given digits, behind digits that amount to `value`. -/
def number (value : Nat) (ds : List Nat) : Nat :=
  ds.foldl (fun n d => 16 * n + d) value

/-! ### Digits -/

/-- Whether characters go on with digits, a low line in front of some of them. -/
inductive GoesOn : List Char → List Nat → Prop
  /-- There are no more. -/
  | nil : GoesOn [] []
  /-- A digit. -/
  | digit {c : Char} {d : Nat} {chars : List Char} {ds : List Nat} (h : digit? c = some d)
      (more : GoesOn chars ds) : GoesOn (c :: chars) (d :: ds)
  /-- A low line and a digit. -/
  | lowLine {c : Char} {d : Nat} {chars : List Char} {ds : List Nat} (h : digit? c = some d)
      (more : GoesOn chars ds) : GoesOn ('_' :: c :: chars) (d :: ds)

/-- Whether characters are the digits of a number. -/
inductive IsMagnitude : List Char → Nat → Prop
  /-- A digit, and what goes on with digits. -/
  | digits {c : Char} {d : Nat} {chars : List Char} {ds : List Nat} (h : digit? c = some d)
      (more : GoesOn chars ds) : IsMagnitude (c :: chars) (number d ds)

/-- The low line is no digit. -/
theorem digit?_lowLine : digit? '_' = none := by decide

/-- **Digits are read to the end** if nothing else is there. -/
theorem digits?_eq_some_iff {value n : Nat} {chars : List Char} :
    digits? value chars = some n ↔ ∃ ds, GoesOn chars ds ∧ number value ds = n := by
  constructor
  · intro h
    fun_induction digits? value chars with
    | case1 value =>
      cases h
      exact ⟨[], .nil, rfl⟩
    | case2 value c rest ih =>
      obtain ⟨d, hd, hrest⟩ := Option.bind_eq_some_iff.mp h
      obtain ⟨ds, hds, hn⟩ := ih d hrest
      exact ⟨d :: ds, .lowLine hd hds, hn⟩
    | case3 value c rest _ ih =>
      obtain ⟨d, hd, hrest⟩ := Option.bind_eq_some_iff.mp h
      obtain ⟨ds, hds, hn⟩ := ih d hrest
      exact ⟨d :: ds, .digit hd hds, hn⟩
  · rintro ⟨ds, hds, rfl⟩
    induction hds generalizing value with
    | nil => rfl
    | @digit c d rest ds hd _ ih =>
      have hc : c ≠ '_' := by
        rintro rfl
        rw [digit?_lowLine] at hd
        cases hd
      rw [digits?]
      · rw [hd]
        exact ih
      · rintro c' rest' rfl
        exact absurd rfl hc
    | lowLine hd _ ih =>
      rw [digits?, hd]
      exact ih

/-- What is read as a magnitude. -/
theorem magnitude?_eq_some_iff {chars : List Char} {n : Nat} :
    magnitude? chars = some n ↔ IsMagnitude chars n := by
  constructor
  · intro h
    cases chars with
    | nil => cases h
    | cons c rest =>
      obtain ⟨d, hd, hrest⟩ := Option.bind_eq_some_iff.mp h
      obtain ⟨ds, hds, rfl⟩ := digits?_eq_some_iff.mp hrest
      exact .digits hd hds
  · rintro ⟨hd, hds⟩
    rw [magnitude?, hd]
    exact digits?_eq_some_iff.mpr ⟨_, hds, rfl⟩

/-- A digit in front of what ends with a digit, or of nothing, ends with one too. -/
theorem getLast?_cons_of_digit {c : Char} {d : Nat} (hd : digit? c = some d) {rest : List Char}
    (h : ∀ c ∈ rest.getLast?, ∃ d, digit? c = some d) :
    ∀ a ∈ (c :: rest).getLast?, ∃ d, digit? a = some d := by
  rw [List.getLast?_cons]
  cases hlast : rest.getLast? with
  | none => simpa using ⟨d, hd⟩
  | some last => simpa [hlast] using h

/-- Digits go on up to a digit. -/
theorem GoesOn.getLast?_eq {chars : List Char} {ds : List Nat} (h : GoesOn chars ds) :
    ∀ c ∈ chars.getLast?, ∃ d, digit? c = some d := by
  induction h with
  | nil => simp
  | digit hd _ ih => exact getLast?_cons_of_digit hd ih
  | lowLine hd _ ih =>
    rw [List.getLast?_cons_cons]
    exact getLast?_cons_of_digit hd ih

/-- The digits of a number end with a digit. -/
theorem IsMagnitude.getLast?_eq {chars : List Char} {n : Nat} (h : IsMagnitude chars n) :
    ∀ c ∈ chars.getLast?, ∃ d, digit? c = some d := by
  obtain ⟨hd, more⟩ := h
  exact (GoesOn.digit hd more).getLast?_eq

/-- The digits of a number start with a digit. -/
theorem IsMagnitude.exists_cons {chars : List Char} {n : Nat} (h : IsMagnitude chars n) :
    ∃ c rest d, chars = c :: rest ∧ digit? c = some d := by
  obtain ⟨hd, -⟩ := h
  exact ⟨_, _, _, rfl, hd⟩

/-! ### Marks, signs and white space -/

/-- What may stand in front of digits to say that they are hexadecimal: nothing, or a zero of any
script, a letter, and possibly a low line. -/
inductive IsRadixMark : List Char → Prop
  /-- Nothing. -/
  | nil : IsRadixMark []
  /-- A zero and a letter. -/
  | mark {zero letter : Char} (hzero : digit? zero = some 0)
      (hletter : letter = 'x' ∨ letter = 'X') : IsRadixMark [zero, letter]
  /-- A zero, a letter and a low line. -/
  | lowLine {zero letter : Char} (hzero : digit? zero = some 0)
      (hletter : letter = 'x' ∨ letter = 'X') : IsRadixMark [zero, letter, '_']

/-- Digits do not start with a low line. -/
theorem IsMagnitude.ne_lowLine {chars : List Char} {n : Nat} (h : IsMagnitude chars n)
    (rest : List Char) : chars ≠ '_' :: rest := by
  rintro rfl
  obtain ⟨c, rest', d, heq, hd⟩ := h.exists_cons
  cases heq
  rw [digit?_lowLine] at hd
  cases hd

/-- Digits do not start with a radix mark. -/
theorem IsMagnitude.ne_mark {zero letter : Char} {rest : List Char} {n : Nat}
    (h : IsMagnitude (zero :: letter :: rest) n) : ¬(letter = 'x' ∨ letter = 'X') := by
  have hnone : digit? 'x' = none ∧ digit? 'X' = none := by decide
  obtain ⟨hd, more⟩ := h
  rintro (rfl | rfl) <;> cases more with
  | digit hd' _ => simp [hnone] at hd'

/-- What is read as a numeral without a sign. -/
theorem unsigned?_eq_some_iff {chars : List Char} {n : Nat} :
    unsigned? chars = some n ↔
      ∃ mark body, IsRadixMark mark ∧ chars = mark ++ body ∧ IsMagnitude body n := by
  constructor
  · intro h
    unfold unsigned? at h
    split at h
    · next zero letter rest =>
      split at h
      · next hmark =>
        split at h
        · next body =>
          exact ⟨[zero, letter, '_'], body, .lowLine hmark.1 hmark.2, rfl,
            magnitude?_eq_some_iff.mp h⟩
        · exact ⟨[zero, letter], rest, .mark hmark.1 hmark.2, rfl, magnitude?_eq_some_iff.mp h⟩
      · exact ⟨[], _, .nil, rfl, magnitude?_eq_some_iff.mp h⟩
    · exact ⟨[], _, .nil, rfl, magnitude?_eq_some_iff.mp h⟩
  · rintro ⟨mark, body, hmark, rfl, hbody⟩
    have hread := magnitude?_eq_some_iff.mpr hbody
    cases hmark with
    | nil =>
      rw [List.nil_append]
      unfold unsigned?
      split
      · rw [if_neg fun hmark => hbody.ne_mark hmark.2, hread]
      · exact hread
    | mark hzero hletter =>
      rw [List.cons_append, List.cons_append, List.nil_append, unsigned?,
        if_pos ⟨hzero, hletter⟩]
      · exact hread
      · exact hbody.ne_lowLine
    | lowLine hzero hletter =>
      rw [List.cons_append, List.cons_append, List.cons_append, List.nil_append, unsigned?,
        if_pos ⟨hzero, hletter⟩, hread]

/-- The signs, and what they make of a magnitude. -/
def signs (n : Nat) : List (List Char × Int) :=
  [([], n), (['+'], n), (['-'], -n)]

/-- Whether characters are a numeral for a number. -/
structure IsNumeral (chars : List Char) (z : Int) : Prop where
  /-- They are white space, a sign, a radix mark, digits and white space. -/
  exists_parts : ∃ front sign mark body back n,
    chars = front ++ (sign ++ mark ++ body) ++ back ∧ (∀ c ∈ front, isPadding c = true) ∧
      (sign, z) ∈ signs n ∧ IsRadixMark mark ∧ IsMagnitude body n ∧
      ∀ c ∈ back, isPadding c = true

/-- White space is no digit. -/
theorem isPadding_of_digit? {c : Char} {d : Nat} (h : digit? c = some d) : isPadding c = false := by
  have hblanks :
      Unicode.blankRanges.numbers.all (fun n => digit? (Char.ofNat n) = none) = true := by
    decide
  by_contra hpadding
  have hblank : Unicode.isBlank c = true := by
    rw [Bool.not_eq_false, isPadding, Bool.and_eq_true] at hpadding
    exact hpadding.1
  have hnone := of_isBlank hblanks hblank
  rw [Char.ofNat_toNat, h] at hnone
  cases of_decide_eq_true hnone

/-- A numeral without the white space around it starts and ends with what is no white space. -/
theorem ends_of_parts {sign mark body : List Char} {n : Nat} {z : Int} (hsign : (sign, z) ∈ signs n)
    (hmark : IsRadixMark mark) (hbody : IsMagnitude body n) :
    sign ++ mark ++ body ≠ [] ∧ (∀ c ∈ (sign ++ mark ++ body).head?, isPadding c = false) ∧
      ∀ c ∈ (sign ++ mark ++ body).getLast?, isPadding c = false := by
  obtain ⟨first, rest, d, rfl, hd⟩ := hbody.exists_cons
  have hlast := hbody.getLast?_eq
  have hfirst := isPadding_of_digit? hd
  have hplain : isPadding '+' = false ∧ isPadding '-' = false := by decide
  refine ⟨by simp, fun c hc => ?_, fun c hc => ?_⟩
  · have hbare : ∀ c ∈ (mark ++ (first :: rest)).head?, isPadding c = false := by
      cases hmark with
      | nil => simp [hfirst]
      | mark hzero _ => simp [isPadding_of_digit? hzero]
      | lowLine hzero _ => simp [isPadding_of_digit? hzero]
    simp only [signs, List.mem_cons, Prod.mk.injEq, List.not_mem_nil, or_false] at hsign
    rcases hsign with ⟨rfl, -⟩ | ⟨rfl, -⟩ | ⟨rfl, -⟩
    · exact hbare c hc
    · simp only [List.cons_append, List.head?_cons, Option.mem_some_iff] at hc
      exact hc ▸ hplain.1
    · simp only [List.cons_append, List.head?_cons, Option.mem_some_iff] at hc
      exact hc ▸ hplain.2
  · rw [List.getLast?_append_of_ne_nil _ (List.cons_ne_nil _ _)] at hc
    obtain ⟨d', hd'⟩ := hlast c hc
    exact isPadding_of_digit? hd'

/-- Neither a radix mark nor a digit starts with a sign. -/
theorem head?_ne_sign {mark body : List Char} {n : Nat} (hmark : IsRadixMark mark)
    (hbody : IsMagnitude body n) (rest : List Char) :
    mark ++ body ≠ '-' :: rest ∧ mark ++ body ≠ '+' :: rest := by
  have hnone : digit? '-' = none ∧ digit? '+' = none := by decide
  obtain ⟨first, rest', d, rfl, hd⟩ := hbody.exists_cons
  obtain ⟨c, chars, d', hc, hd'⟩ : ∃ c chars d', mark ++ first :: rest' = c :: chars ∧
      digit? c = some d' := by
    cases hmark with
    | nil => exact ⟨first, rest', d, rfl, hd⟩
    | mark hzero _ => exact ⟨_, _, 0, rfl, hzero⟩
    | lowLine hzero _ => exact ⟨_, _, 0, rfl, hzero⟩
  rw [hc]
  refine ⟨?_, ?_⟩ <;> intro heq <;> cases heq <;> simp [hnone] at hd'

/-- **What is read as a numeral.** -/
theorem numeral?_eq_some_iff {chars : List Char} {z : Int} :
    numeral? chars = some z ↔ IsNumeral chars z := by
  constructor
  · intro h
    obtain ⟨front, back, hchars, hfront, hback⟩ := exists_append_stripBy isPadding chars
    have hparts : ∀ {sign body : List Char} {n : Nat}, stripBy isPadding chars = sign ++ body →
        (sign, z) ∈ signs n → unsigned? body = some n → IsNumeral chars z := by
      intro sign body n hbody hsign hn
      obtain ⟨mark, digits, hmark, rfl, hdigits⟩ := unsigned?_eq_some_iff.mp hn
      refine ⟨front, sign, mark, digits, back, n, ?_, hfront, hsign, hmark, hdigits, hback⟩
      rw [List.append_assoc sign, ← hbody, ← hchars]
    unfold numeral? at h
    dsimp only at h
    split at h
    · next rest heq =>
      obtain ⟨i, hi, rfl⟩ := Option.map_eq_some_iff.mp h
      obtain ⟨n, hn, hi⟩ := Option.bind_eq_some_iff.mp hi
      cases hi
      exact hparts (show _ = ['-'] ++ rest from heq) (by simp [signs]) hn
    · next rest heq =>
      obtain ⟨n, hn, rfl⟩ := Option.map_eq_some_iff.mp h
      exact hparts (show _ = ['+'] ++ rest from heq) (by simp [signs]) hn
    · obtain ⟨n, hn, rfl⟩ := Option.map_eq_some_iff.mp h
      exact hparts (List.nil_append _).symm (by simp [signs]) hn
  · rintro ⟨front, sign, mark, body, back, n, rfl, hfront, hsign, hmark, hbody, hback⟩
    obtain ⟨hne, hhead, hlast⟩ := ends_of_parts hsign hmark hbody
    have hread := unsigned?_eq_some_iff.mpr ⟨mark, body, hmark, rfl, hbody⟩
    have htrimmed := stripBy_append isPadding hfront hback hne hhead hlast
    unfold numeral?
    dsimp only
    rw [stripBy] at htrimmed
    rw [htrimmed, List.append_assoc]
    simp only [signs, List.mem_cons, Prod.mk.injEq, List.not_mem_nil, or_false] at hsign
    rcases hsign with ⟨rfl, rfl⟩ | ⟨rfl, rfl⟩ | ⟨rfl, rfl⟩
    · rw [List.nil_append]
      split
      · next rest heq => exact absurd heq (head?_ne_sign hmark hbody rest).1
      · next rest heq => exact absurd heq (head?_ne_sign hmark hbody rest).2
      · rw [hread]
        rfl
    · simp only [List.singleton_append, hread]
      rfl
    · simp only [List.singleton_append, hread]
      rfl

/-! ### The characters of a numeral -/

/-- Digits that go on are digits and low lines. -/
theorem GoesOn.forall_mem {chars : List Char} {ds : List Nat} (h : GoesOn chars ds) :
    ∀ c ∈ chars, c = '_' ∨ ∃ d, digit? c = some d := by
  induction h with
  | nil => simp
  | digit hd _ ih => exact List.forall_mem_cons.mpr ⟨Or.inr ⟨_, hd⟩, ih⟩
  | lowLine hd _ ih =>
    exact List.forall_mem_cons.mpr ⟨Or.inl rfl, List.forall_mem_cons.mpr ⟨Or.inr ⟨_, hd⟩, ih⟩⟩

/-- **The characters of a numeral** are white space, digits, and those of signs and radix marks. -/
theorem IsNumeral.notMem {chars : List Char} {z : Int} (h : IsNumeral chars z) {c : Char}
    (hpadding : isPadding c = false) (hdigit : digit? c = none)
    (hplain : c ∉ ['+', '-', 'x', 'X', '_']) : c ∉ chars := by
  obtain ⟨front, sign, mark, body, back, n, rfl, hfront, hsign, hmark, hbody, hback⟩ := h
  have hnot : ∀ {l : List Char}, (∀ a ∈ l, isPadding a = true) → c ∉ l := by
    intro l hl hc
    rw [hl c hc] at hpadding
    cases hpadding
  have hsign' : c ∉ sign := by
    simp only [signs, List.mem_cons, Prod.mk.injEq, List.not_mem_nil, or_false] at hsign
    rcases hsign with ⟨rfl, -⟩ | ⟨rfl, -⟩ | ⟨rfl, -⟩ <;> simp_all
  have hmark' : c ∉ mark := by
    have hne : ∀ {a : Char} {d : Nat}, digit? a = some d → c ≠ a := by
      rintro a d ha rfl
      rw [hdigit] at ha
      cases ha
    cases hmark with
    | nil => exact List.not_mem_nil
    | mark hzero hletter => rcases hletter with rfl | rfl <;> simp_all [hne hzero]
    | lowLine hzero hletter => rcases hletter with rfl | rfl <;> simp_all [hne hzero]
  have hbody' : c ∉ body := by
    obtain ⟨hd, more⟩ := hbody
    intro hc
    rcases (GoesOn.digit hd more).forall_mem c hc with rfl | ⟨d, hd'⟩
    · simp at hplain
    · rw [hdigit] at hd'
      cases hd'
  simp [hnot hfront, hsign', hmark', hbody', hnot hback]

/-! ### Digits as they are documented -/

/-- The value of a hexadecimal digit in the narrow sense. -/
def asciiDigit? (c : Char) : Option Nat :=
  if '0' ≤ c ∧ c ≤ '9' then some (c.toNat - '0'.toNat)
  else if 'a' ≤ c ∧ c ≤ 'f' then some (c.toNat - 'a'.toNat + 10)
  else if 'A' ≤ c ∧ c ≤ 'F' then some (c.toNat - 'A'.toNat + 10)
  else none

/-- A documented digit is a digit, and of the same value. -/
theorem digit?_of_asciiDigit? {c : Char} {d : Nat} (h : asciiDigit? c = some d) :
    digit? c = some d := by
  have hall : (List.range 128).all (fun n =>
      (asciiDigit? (Char.ofNat n)).all fun d => digit? (Char.ofNat n) = some d) = true := by
    decide
  have hlt : c.toNat < 128 := by
    unfold asciiDigit? at h
    split_ifs at h with hdecimal hlower hupper
    · exact Nat.lt_of_le_of_lt hdecimal.2 (by decide)
    · exact Nat.lt_of_le_of_lt hlower.2 (by decide)
    · exact Nat.lt_of_le_of_lt hupper.2 (by decide)
  have hc := List.all_eq_true.mp hall _ (List.mem_range.mpr hlt)
  rw [Char.ofNat_toNat, h] at hc
  exact of_decide_eq_true hc

/-- Documented digits go on with digits. -/
theorem goesOn_of_ascii {chars : List Char} {ds : List Nat}
    (h : List.Forall₂ (fun c d => asciiDigit? c = some d) chars ds) : GoesOn chars ds := by
  induction h with
  | nil => exact .nil
  | cons hd _ ih => exact .digit (digit?_of_asciiDigit? hd) ih

/-- **Documented digits** are read as the number that they are the digits of. -/
theorem numeral?_of_ascii {chars : List Char} {ds : List Nat} (hne : chars ≠ [])
    (h : List.Forall₂ (fun c d => asciiDigit? c = some d) chars ds) :
    numeral? chars = some (number 0 ds : Int) := by
  cases h with
  | nil => exact absurd rfl hne
  | @cons c d rest ds hd hmore =>
    have hdigits := IsMagnitude.digits (digit?_of_asciiDigit? hd) (goesOn_of_ascii hmore)
    refine numeral?_eq_some_iff.mpr ⟨[], [], [], c :: rest, [], number d ds, ?_, nofun, ?_, ?_,
      hdigits, nofun⟩
    · simp
    · simp [signs, number]
    · exact .nil

end Errata.Hexadecimal
