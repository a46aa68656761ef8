import Errata.Unicode.Ranges

/-!
# Hexadecimal numerals

The numerals that may follow the letter of a numeric escape. A numeral may be surrounded by
white space and may have a sign and the radix mark `0x`; one low line may stand between two
digits and after the radix mark. The decimal digits of every script count as digits, and so does
the zero of every script in the radix mark.
-/

namespace Errata.Hexadecimal

/-- The white space that may surround a numeral: that of the wide sense, without the control
characters that separate files, groups, records and units. -/
def isPadding (c : Char) : Bool :=
  Unicode.isBlank c && !(0x1C ≤ c.toNat && c.toNat ≤ 0x1F)

/-- The value of a digit. -/
def digit? (c : Char) : Option Nat :=
  if 'a' ≤ c ∧ c ≤ 'f' then some (c.toNat - 'a'.toNat + 10)
  else if 'A' ≤ c ∧ c ≤ 'F' then some (c.toNat - 'A'.toNat + 10)
  else Unicode.digitValue? c

/-- Reads digits to the end, `value` being what the digits so far amount to. A low line is
allowed between two digits only. -/
def digits? (value : Nat) : List Char → Option Nat
  | [] => some value
  | '_' :: c :: rest => do digits? (16 * value + (← digit? c)) rest
  | c :: rest => do digits? (16 * value + (← digit? c)) rest

/-- Reads one or more digits. -/
def magnitude? : List Char → Option Nat
  | [] => none
  | c :: rest => do digits? (← digit? c) rest

/-- Reads a numeral without a sign, with or without its radix mark. -/
def unsigned? : List Char → Option Nat
  | zero :: mark :: rest =>
    if digit? zero = some 0 ∧ (mark = 'x' ∨ mark = 'X') then
      match rest with
      | '_' :: rest => magnitude? rest
      | rest => magnitude? rest
    else
      magnitude? (zero :: mark :: rest)
  | chars => magnitude? chars

/-- Reads a numeral. -/
def numeral? (chars : List Char) : Option Int :=
  let trimmed := ((chars.dropWhile isPadding).reverse.dropWhile isPadding).reverse
  match trimmed with
  | '-' :: rest => (unsigned? rest).map fun n => -(n : Int)
  | '+' :: rest => (unsigned? rest).map Int.ofNat
  | rest => (unsigned? rest).map Int.ofNat

end Errata.Hexadecimal
