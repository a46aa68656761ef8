import Errata.Format.Spec

/-!
# Formatted strings and integers

How a string or an integer is written when a specification asks for more than its plain form. An
integer may be written in a base, as a character, or in one of the forms of floating-point
numbers; in the last case it is first rounded to 53 binary digits.

## Main definitions

* `Numeral.digits`: the digits of a number in a base.
* `Numeral.roundToUnit`, `Numeral.roundToDigits`: rounding.
* `Numeral.significand?`: the integer nearest to a number among those that a floating-point number
  with 53 binary digits can be.
* `formatText`: a string.
* `formatInteger`: an integer or a truth value.
-/

/-! ## Numerals

Natural numbers written in a base, and rounded to a number of digits. One rule of rounding serves
both the binary digits that a floating-point number keeps and the decimal digits that a format asks
for: the nearest number with that many digits, and of two nearest ones the one whose last digit is
even.
-/

namespace Errata.Numeral

/-- The digits of a number, in lower case, the most significant first. -/
def digits (base n : Nat) : List Char :=
  Nat.toDigits base n

/-- The number of digits of a number. -/
def length (base n : Nat) : Nat :=
  (digits base n).length

/-- How many times `unit` fits into `n`, rounded to the nearest; a half goes to the even side. -/
def roundToUnit (unit n : Nat) : Nat :=
  let quotient := n / unit
  let rest := n % unit
  if 2 * rest < unit then quotient
  else if unit < 2 * rest then quotient + 1
  else quotient + quotient % 2

/-- The nearest number that has at most `count` digits before its trailing zeros. -/
def roundToDigits (base count n : Nat) : Nat :=
  let unit := Nat.pow base (length base n - count)
  roundToUnit unit n * unit

/-- The nearest integer that is a floating-point number of 53 binary digits, or `none` if there is
no such number because the integer has more than 1024 binary digits. -/
def significand? (n : Nat) : Option Nat :=
  let rounded := roundToDigits 2 53 n
  if rounded < Nat.pow 2 1024 then some rounded else none

/-- The first `count` significant decimal digits of a number, rounded, and the exponent of the
first. Zeros are added where the number is shorter. -/
def scientific (count n : Nat) : List Char × Nat :=
  let written := digits 10 (roundToDigits 10 count n)
  ((written ++ List.replicate count '0').take count, written.length - 1)

/-- Puts a separator between groups of `size` digits, counted from the last digit. -/
def separated (size : Nat) (separator : Char) : List Char → List Char
  | [] => []
  | [c] => [c]
  | c :: rest =>
    if rest.length % size = 0 then c :: separator :: separated size separator rest
    else c :: separated size separator rest

/-- How many digits have to be written so that, with separators, they take up at least `width`
characters. -/
def digitsForWidth (size width : Nat) : Nat :=
  size * (width / (size + 1)) + max 1 (width % (size + 1))

/-- Puts zeros in front of digits until there are `count`. -/
def padded (count : Nat) (written : List Char) : List Char :=
  List.replicate (count - written.length) '0' ++ written

end Errata.Numeral

/-! ## Formatted strings and integers -/

namespace Errata.Format

open Spec (Fault Part)

/-! ### Strings -/

/-- Fills a text up to a width. The fill stands before, after or around it. -/
def fillUp (fill : CodePoint) (alignment : Spec.Alignment) (width : Nat) (text : Text) : Text :=
  let missing := width - text.length
  match alignment with
  | .left => text ++ List.replicate missing fill
  | .right | .afterSign => List.replicate missing fill ++ text
  | .center =>
    List.replicate (missing / 2) fill ++ text ++ List.replicate (missing - missing / 2) fill

/-- Writes a string. The specification must not be empty. -/
def formatText (specification : Text) (text : Text) : Except Fault Text := do
  let s ← Spec.read .text specification
  if s.letter ≠ .char 's' then throw (.unknownLetter s.letter .text)
  if s.sign = some .space then throw (.notForText .space)
  if s.sign.isSome then throw (.notForText .sign)
  if s.noNegativeZero then throw (.notForText .noNegativeZero)
  if s.alternate then throw (.notForText .alternate)
  if s.alignment = .afterSign then throw (.notForText .afterSign)
  let shown :=
    match s.precision with
    | some count => text.take count
    | none => text
  return fillUp s.fill s.alignment (s.width.getD 0) shown

/-! ### Numbers -/

/-- The parts of a written number. -/
structure Parts where
  /-- Whether it is negative. -/
  isNegative : Bool
  /-- What stands between the sign and the digits. -/
  mark : List Char := []
  /-- The digits that may be separated into groups. -/
  digits : List Char
  /-- What follows them. -/
  tail : Text := []

/-- The sign of a number. -/
def signOf (sign : Option Spec.Sign) (isNegative : Bool) : List Char :=
  if isNegative then ['-']
  else
    match sign with
    | some .plus => ['+']
    | some .space => [' ']
    | _ => []

/-- The digits in groups of `size`, with zeros in front so that they take up `width` characters. -/
def groupedDigits (size : Nat) (separator : Option Spec.Separator) (width : Nat)
    (digits : List Char) : List Char :=
  match digits, separator with
  | [], _ => []
  | _, none => Numeral.padded width digits
  | _, some s =>
    Numeral.separated size s.char (Numeral.padded (Numeral.digitsForWidth size width) digits)

/-- Puts the parts of a number together. Filling up with zeros behind the sign adds digits, and so
separators too. -/
def layOut (s : Spec) (size : Nat) (p : Parts) : Text :=
  let sign := Text.ofChars (signOf s.sign p.isNegative ++ p.mark)
  let taken := sign.length + p.tail.length
  let width := s.width.getD 0
  let digitWidth :=
    if s.fill = .char '0' ∧ s.alignment = .afterSign then width - taken else 0
  let body := Text.ofChars (groupedDigits size s.separator digitWidth p.digits) ++ p.tail
  match s.alignment with
  | .afterSign => sign ++ fillUp s.fill .right (width - sign.length) body
  | alignment => fillUp s.fill alignment width (sign ++ body)

/-- The bases an integer can be written in, by their letters, with their marks. -/
def base? : CodePoint → Option (Nat × Char)
  | .char 'b' => some (2, 'b')
  | .char 'o' => some (8, 'o')
  | .char 'x' => some (16, 'x')
  | .char 'X' => some (16, 'X')
  | _ => none

/-- Writes an integer in the base that the letter asks for. -/
def formatDigits (s : Spec) (n : Int) : Text :=
  match base? s.letter with
  | none => layOut s 3 { isNegative := n < 0, digits := Numeral.digits 10 n.natAbs }
  | some (base, letter) =>
    let written := Numeral.digits base n.natAbs
    let digits := if letter = 'X' then written.map Char.toUpper else written
    layOut s 4
      { isNegative := n < 0
        mark := if s.alternate then ['0', letter] else []
        digits }

/-- Writes an integer as the character of that number. -/
def formatCharacter (s : Spec) (n : Int) : Except Fault Text := do
  if s.sign.isSome then throw (.notForCharacter .sign)
  if s.alternate then throw (.notForCharacter .alternate)
  if n < -9223372036854775808 ∨ 9223372036854775807 < n then throw .tooLargeForCodePoint
  if n < 0 then throw .noCodePoint
  let some c := CodePoint.ofNat? n.toNat | throw .noCodePoint
  return layOut s 3 { isNegative := false, digits := [], tail := [c] }

/-! ### Notations of floating-point numbers -/

/-- The forms of floating-point numbers. -/
inductive FloatForm where
  /-- One digit before the point, and an exponent. -/
  | exponent
  /-- All digits before the point. -/
  | fixed
  /-- The shorter of the two, without trailing zeros. -/
  | general
  /-- In hundredths. -/
  | percent
deriving DecidableEq, Repr

/-- The form a letter asks for, and whether its own letters are upper case. -/
def floatForm? : CodePoint → Option (FloatForm × Bool)
  | .char 'e' => some (.exponent, false)
  | .char 'E' => some (.exponent, true)
  | .char 'f' => some (.fixed, false)
  | .char 'F' => some (.fixed, true)
  | .char 'g' => some (.general, false)
  | .char 'G' => some (.general, true)
  | .char '%' => some (.percent, false)
  | _ => none

/-- The digits after the point, with the point unless there are none. -/
def fraction (alternate : Bool) (digits : List Char) : List Char :=
  if digits.isEmpty && !alternate then [] else '.' :: digits

/-- An exponent of at least two digits. -/
def exponentPart (isUpper : Bool) (exponent : Nat) : List Char :=
  (if isUpper then 'E' else 'e') :: '+' :: Numeral.padded 2 (Numeral.digits 10 exponent)

/-- The digits before the point, and what follows them, in the form with one digit before the
point. -/
def exponentForm (alternate isUpper : Bool) (digits : List Char) (exponent : Nat) :
    List Char × List Char :=
  (digits.take 1, fraction alternate (digits.drop 1) ++ exponentPart isUpper exponent)

/-- The digits without their trailing zeros. -/
def withoutTrailingZeros (digits : List Char) : List Char :=
  (digits.reverse.dropWhile (· = '0')).reverse

/-- The digits before the point, and what follows them, of a number that is an integer. -/
def decimalParts (form : FloatForm) (alternate isUpper : Bool) (precision n : Nat) :
    List Char × List Char :=
  match form with
  | .exponent =>
    let (digits, exponent) := Numeral.scientific (precision + 1) n
    exponentForm alternate isUpper digits exponent
  | .fixed | .percent =>
    (Numeral.digits 10 n, fraction alternate (List.replicate precision '0'))
  | .general =>
    let count := max 1 precision
    let (digits, exponent) := Numeral.scientific count n
    let trim (l : List Char) := if alternate then l else withoutTrailingZeros l
    if exponent < count then
      (digits.take (exponent + 1), fraction alternate (trim (digits.drop (exponent + 1))))
    else
      exponentForm alternate isUpper (digits.take 1 ++ trim (digits.drop 1)) exponent

/-- Writes an integer in a form of floating-point numbers. A hundredfold that is too large for a
floating-point number is infinite. -/
def formatFloat (s : Spec) (form : FloatForm) (isUpper : Bool) (n : Int) : Except Fault Text := do
  let some value := Numeral.significand? n.natAbs | throw .tooLargeForFloat
  let tail : Text := if form = .percent then [.char '%'] else []
  let shown := if form = .percent then Numeral.significand? (100 * value) else some value
  match shown with
  | none =>
    return layOut s 3 { isNegative := n < 0, digits := [], tail := Text.ofString "inf" ++ tail }
  | some value =>
    let (whole, rest) := decimalParts form s.alternate isUpper (s.precision.getD 6) value
    return layOut s 3 { isNegative := n < 0, digits := whole, tail := Text.ofChars rest ++ tail }

/-- Writes an integer, or a truth value as one. The specification must not be empty. -/
def formatInteger (subject : Spec.Subject) (specification : Text) (n : Int) :
    Except Fault Text := do
  let s ← Spec.read subject specification
  match floatForm? s.letter with
  | some (form, isUpper) => formatFloat s form isUpper n
  | none =>
    if s.letter = .char 'c' ∨ s.letter = .char 'd' ∨ s.letter = .char 'n' ∨
        (base? s.letter).isSome then
      if s.precision.isSome then throw (.notForInteger .precision)
      if s.noNegativeZero then throw (.notForInteger .noNegativeZero)
      if s.letter = .char 'c' then formatCharacter s n else return formatDigits s n
    else
      throw (.unknownLetter s.letter subject)

end Errata.Format
