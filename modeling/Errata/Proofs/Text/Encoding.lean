import Errata.Text.Encoding
import Mathlib.Tactic.SplitIfs

/-!
# Text that is stored and read back

What is encoded is decoded as it was: the first byte of a character tells how many follow, and those
lie within the bounds that the first one sets.

* `continuations?_two` and so on: what the first byte of a character tells.
* `decodeFrom_utf8EncodeChar`: **one character is decoded** as it was encoded.
* **`decode_encode`**: so is a whole text.
-/

namespace Errata.Bytes

/-! ### First bytes -/

section

variable {n : Nat}

/-- A byte is less than another one if its number is. -/
theorem ofNat_lt_iff (hn : n < 256) (b : UInt8) : UInt8.ofNat n < b ↔ n < b.toNat := by
  rw [UInt8.lt_iff_toNat_lt, UInt8.toNat_ofNat_of_lt' hn]

/-- A byte is another one if its number is that of the other one. -/
theorem ofNat_eq_iff (hn : n < 256) (b : UInt8) : UInt8.ofNat n = b ↔ n = b.toNat := by
  rw [← UInt8.toNat_inj, UInt8.toNat_ofNat_of_lt' hn]

/-- A byte of the lower half stands alone. -/
theorem continuations?_one (h : n < 0x80) :
    continuations? (UInt8.ofNat n) = some (0, 0x80, 0xBF) := by
  have hn : n < 256 := by omega
  simp [continuations?, ofNat_lt_iff hn, h]

/-- The first of two bytes. -/
theorem continuations?_two (h : n < 0xE0) (hlow : 0xC2 ≤ n) :
    continuations? (UInt8.ofNat n) = some (1, 0x80, 0xBF) := by
  have hn : n < 256 := by omega
  have hone : ¬n < 128 := by omega
  simp [continuations?, ofNat_lt_iff hn, h, hone, Nat.not_lt.mpr hlow]

/-- The first of three bytes. -/
theorem continuations?_three (h : n < 0xF0) (hlow : 0xE0 ≤ n) :
    continuations? (UInt8.ofNat n) =
      some (2, if n = 0xE0 then 0xA0 else 0x80, if n = 0xED then 0x9F else 0xBF) := by
  have hn : n < 256 := by omega
  have hone : ¬n < 128 := by omega
  have hnone : ¬n < 194 := by omega
  simp [continuations?, ofNat_lt_iff hn, ofNat_eq_iff hn, h, hone, hnone, Nat.not_lt.mpr hlow]

/-- The first of four bytes. -/
theorem continuations?_four (h : n < 0xF5) (hlow : 0xF0 ≤ n) :
    continuations? (UInt8.ofNat n) =
      some (3, if n = 0xF0 then 0x90 else 0x80, if n = 0xF4 then 0x8F else 0xBF) := by
  have hn : n < 256 := by omega
  have hone : ¬n < 128 := by omega
  have hnone : ¬n < 194 := by omega
  have htwo : ¬n < 224 := by omega
  simp [continuations?, ofNat_lt_iff hn, ofNat_eq_iff hn, h, hone, hnone, htwo,
    Nat.not_lt.mpr hlow]

end

/-! ### Further bytes -/

/-- A byte within the bounds goes on with an encoding. -/
theorem continueWith_cons {low high : UInt8} {n : Nat} (hlow : low.toNat ≤ n)
    (hhigh : n ≤ high.toNat) (value used count : Nat) (rest : List UInt8) :
    continueWith low high value used (count + 1) (UInt8.ofNat n :: rest) =
      continueWith 0x80 0xBF (64 * value + n % 64) (used + 1) count rest := by
  have hn : (UInt8.ofNat n).toNat = n :=
    UInt8.toNat_ofNat_of_lt' (Nat.lt_of_le_of_lt hhigh high.toNat_lt)
  rw [continueWith, if_pos, hn]
  rw [UInt8.le_iff_toNat_le, UInt8.le_iff_toNat_le, hn]
  exact ⟨hlow, hhigh⟩

/-- A byte without bounds of its own goes on with an encoding. -/
theorem continueWith_next {n : Nat} (h : n < 64) (value used count : Nat) (rest : List UInt8) :
    continueWith 0x80 0xBF value used (count + 1) (UInt8.ofNat (n + 128) :: rest) =
      continueWith 0x80 0xBF (64 * value + n) (used + 1) count rest := by
  rw [continueWith_cons (by simp) (by simp; omega), show (n + 128) % 64 = n by omega]

/-- **A character is read off** if its first byte tells how it goes on, and it goes on like that. -/
theorem decodeFrom_cons {first low high : UInt8} {count value : Nat} {more rest : List UInt8}
    (hfirst : continuations? first = some (count, low, high))
    (hmore : continueWith low high (leadValue count first) 1 count more = .ok (value, rest))
    (position : Nat) :
    decodeFrom position (first :: more) =
      (decodeFrom (position + (more.length - rest.length) + 1) rest).map
        (Char.ofNat value :: ·) := by
  rw [decodeFrom]
  split
  · next h =>
    rw [hfirst] at h
    cases h
  · next h =>
    rw [hfirst] at h
    cases h
    split
    · next h =>
      rw [hmore] at h
      cases h
    · next h =>
      rw [hmore] at h
      cases h
      rfl

/-! ### Texts -/

/-- **One character is decoded** as it was encoded. -/
theorem decodeFrom_utf8EncodeChar (position : Nat) (c : Char) (rest : List UInt8) :
    ∃ position', decodeFrom position (String.utf8EncodeChar c ++ rest) =
      (decodeFrom position' rest).map (c :: ·) := by
  have hvalid : c.toNat < 0xD800 ∨ 0xDFFF < c.toNat ∧ c.toNat < 0x110000 := c.valid
  have hread : ∀ {first low high : UInt8} {count value : Nat} {more : List UInt8},
      continuations? first = some (count, low, high) →
      continueWith low high (leadValue count first) 1 count more = .ok (value, rest) →
      value = c.toNat →
      ∃ position', decodeFrom position (first :: more) =
        (decodeFrom position' rest).map (c :: ·) := by
    rintro first low high count _ more hfirst hmore rfl
    have hcons := decodeFrom_cons hfirst hmore position
    rw [Char.ofNat_toNat] at hcons
    exact ⟨_, hcons⟩
  have hbyte : ∀ {n : Nat}, n < 256 → (UInt8.ofNat n).toNat = n := fun h =>
    UInt8.toNat_ofNat_of_lt' h
  unfold String.utf8EncodeChar
  rw [show c.val.toNat = c.toNat from rfl]
  generalize c.toNat = v at hvalid hread ⊢
  -- one case for each number of bytes
  dsimp only
  split_ifs with h₁ h₂ h₃
  · refine hread (continuations?_one (by omega)) ?_ rfl
    rw [leadValue, hbyte (by omega)]
    rfl
  · apply hread (continuations?_two (by omega) (by omega))
    · exact continueWith_next (by omega) _ _ _ _
    · rw [leadValue, hbyte (by omega)]
      omega
  · apply hread (continuations?_three (by omega) (by omega))
    · refine (continueWith_cons ?_ ?_ _ _ _ _).trans ?_
      · split
        · simp
          omega
        · simp
      · split
        · simp
          omega
        · simp
          omega
      · exact continueWith_next (by omega) _ _ _ _
    · rw [leadValue, hbyte (by omega)]
      omega
  · apply hread (continuations?_four (by omega) (by omega))
    · refine (continueWith_cons ?_ ?_ _ _ _ _).trans ?_
      · split
        · simp
          omega
        · simp
      · split
        · simp
          omega
        · simp
          omega
      · refine (continueWith_next (by omega) _ _ _ _).trans ?_
        exact continueWith_next (by omega) _ _ _ _
    · simp only [leadValue]
      rw [hbyte (by omega)]
      omega

/-- **A text is decoded** as it was encoded. -/
theorem decode_encode (chars : List Char) : decode (encode chars) = .ok chars := by
  have hfrom : ∀ position, decodeFrom position (encode chars) = .ok chars := by
    induction chars with
    | nil => exact fun position => by rw [encode, List.flatMap_nil, decodeFrom]
    | cons c chars ih =>
      intro position
      obtain ⟨position', hread⟩ := decodeFrom_utf8EncodeChar position c (encode chars)
      rw [encode, List.flatMap_cons]
      exact hread.trans (by rw [ih]; rfl)
  exact hfrom 0

end Errata.Bytes
