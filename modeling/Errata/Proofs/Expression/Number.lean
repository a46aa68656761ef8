import Errata.Proofs.Expression.Place
import Errata.Proofs.Outcome

/-!
# Numbers are passed over

A number consists of digits, letters, low lines, points and signs, none of which starts a string, a
comment or a bracket. So reading a number leaves every place outside strings and comments as it is.

* **`passes_scan`**, **`passes_fraction`**: numbers are passed over.
-/

namespace Errata.Expression.Number

/-- A digit is plain. -/
theorem isPlain_digit {c : Char} (h : isDigit c = true) : IsPlain c :=
  isPlain_of (p := isDigit) (by decide) h

/-- What may follow a number is passed over up to where it starts. -/
theorem passes_close {kind : String} {text behind : List Char}
    (h : close kind text = .ok behind) : Passes text behind := by
  unfold close at h
  split at h
  · cases h
    exact .refl []
  · split at h
    · cases h
    · cases h
      exact .refl _

/-- The digits after a digit are passed over. -/
theorem passes_decimalTail {text behind : List Char} (h : decimalTail text = .ok behind) :
    Passes text behind := by
  fun_induction decimalTail text with
  | case1 c rest hc ih => exact .cons (by decide) (.cons (isPlain_digit hc) (ih h))
  | case2 => cases h
  | case3 => cases h
  | case4 c rest _ _ hc ih => exact .cons (isPlain_digit hc) (ih h)
  | case5 => cases h; exact .refl _
  | case6 => cases h; exact .refl _

/-- The mark of an imaginary number is passed over. -/
theorem passes_imaginary {text behind : List Char} (h : imaginary text = .ok behind) :
    Passes text behind := by
  unfold imaginary at h
  split at h
  · split at h
    · next hmark =>
      refine .cons ?_ (passes_close h)
      rcases hmark with rfl | rfl <;> decide
    · exact passes_close h
  · cases h
    exact .refl []

/-- Digits with what may follow them are passed over. -/
theorem passes_decimalTail_bind {text behind : List Char}
    {next : List Char → Except String (List Char)}
    (hnext : ∀ {text behind}, next text = .ok behind → Passes text behind)
    (h : decimalTail text >>= next = .ok behind) : Passes text behind := by
  obtain ⟨middle, hmiddle, hbehind⟩ := Outcome.bind_eq_ok_iff.mp h
  exact (passes_decimalTail hmiddle).trans (hnext hbehind)

/-- An exponent is passed over. If what follows the letter is no exponent, the letter is not part of
the number. -/
theorem passes_exponentDigits {e : Char} (he : IsPlain e) {text behind : List Char}
    (h : exponentDigits e text = .ok behind) : Passes (e :: text) behind := by
  unfold exponentDigits at h
  split at h
  · split at h
    · next hsign =>
      split at h
      · split at h
        · next hd =>
          exact .cons he (.cons (by rcases hsign with rfl | rfl <;> decide)
            (.cons (isPlain_digit hd) (passes_decimalTail_bind passes_imaginary h)))
        · cases h
      · cases h
    · split at h
      · next hc =>
        exact .cons he (.cons (isPlain_digit hc) (passes_decimalTail_bind passes_imaginary h))
      · exact passes_close h
  · exact passes_close h

/-- What follows a whole number and its fraction is passed over. -/
theorem passes_exponent {text behind : List Char} (h : exponent text = .ok behind) :
    Passes text behind := by
  unfold exponent at h
  split at h
  · split at h
    · next he => exact passes_exponentDigits (by rcases he with rfl | rfl <;> decide) h
    · exact passes_imaginary h
  · cases h
    exact .refl []

/-- **A fraction is passed over.** -/
theorem passes_fraction {text behind : List Char} (h : fraction text = .ok behind) :
    Passes text behind := by
  unfold fraction at h
  split at h
  · split at h
    · next hc => exact .cons (isPlain_digit hc) (passes_decimalTail_bind passes_exponent h)
    · exact passes_exponent h
  · cases h
    exact .refl []

/-- What follows a whole number is passed over. -/
theorem passes_point {text behind : List Char} (h : point text = .ok behind) :
    Passes text behind := by
  unfold point at h
  split at h
  · exact .cons (by decide) (passes_fraction h)
  · exact passes_exponent h

/-- Zeros at the start of a number are passed over. -/
theorem passes_zeros {text behind : List Char} (h : zeros text = .ok behind) :
    Passes text behind := by
  fun_induction zeros text with
  | case1 rest ih => exact .cons (by decide) (.cons (by decide) (ih h))
  | case2 c rest _ hc => cases h; exact .cons (by decide) (.refl _)
  | case3 => cases h
  | case4 => cases h
  | case5 rest ih => exact .cons (by decide) (ih h)
  | case6 => cases h; exact .refl _

/-- What follows zeros is passed over. -/
theorem passes_afterZeros {text behind : List Char} (h : afterZeros text = .ok behind) :
    Passes text behind := by
  unfold afterZeros at h
  split at h
  · split at h
    · next hc =>
      refine .cons (isPlain_digit hc) (passes_decimalTail_bind (fun {text behind} h => ?_) h)
      split at h
      · exact passes_point h
      · cases h
    · exact passes_point h
  · cases h
    exact .refl []

/-- A number with a radix mark is passed over. -/
theorem passes_radixTail {kind : String} {isRadixDigit : Char → Bool}
    (hradix : (marks.all fun c => !isRadixDigit c) = true) {expect : Expect}
    {text behind : List Char} (h : radixTail kind isRadixDigit expect text = .ok behind) :
    Passes text behind := by
  fun_induction radixTail kind isRadixDigit expect text with
  | case1 expect c rest hmark ih => exact .cons (by rw [hmark.1]; decide) (ih h)
  | case2 expect c rest _ hc ih => exact .cons (isPlain_of hradix hc) (ih h)
  | case3 => cases h
  | case4 => exact passes_close h
  | case5 => cases h
  | case6 => cases h; exact .refl []
  | case7 => cases h

/-- **A number is passed over.** -/
theorem passes_scan {c : Char} {text behind : List Char} (h : scan c text = .ok behind) :
    Passes text behind := by
  unfold scan at h
  split at h
  · split at h
    · split at h
      · next hmark =>
        exact .cons (by rcases hmark with rfl | rfl <;> decide) (passes_radixTail (by decide) h)
      · split at h
        · next hmark =>
          exact .cons (by rcases hmark with rfl | rfl <;> decide) (passes_radixTail (by decide) h)
        · split at h
          · next hmark =>
            exact .cons (by rcases hmark with rfl | rfl <;> decide)
              (passes_radixTail (by decide) h)
          · obtain ⟨middle, hmiddle, hbehind⟩ := Outcome.bind_eq_ok_iff.mp h
            exact (passes_zeros hmiddle).trans (passes_afterZeros hbehind)
    · cases h
      exact .refl []
  · exact passes_decimalTail_bind passes_point h

end Errata.Expression.Number
