import Errata.Text.CodePoint
import Errata.Unicode.Ranges

/-!
# Format specifications

What may follow the colon in a replacement field: `*^+#010,.3f`. In this order, and each part may be
left out: the alignment with the character to fill up with; the sign; `z` for no negative zero; `#`
for the alternate form; a zero to fill up with zeros; the width; the separator of thousands; the
precision; the letter of the presentation.

## Main definitions

* `Spec`: a specification.
* `Spec.Fault`: what can be wrong with one, by itself or for the value it is applied to.
* `Spec.read`: reads a specification.
-/

namespace Errata

/-- Where a value stands in a field that is wider. -/
inductive Spec.Alignment where
  /-- At the start. -/
  | left
  /-- At the end. -/
  | right
  /-- In the middle. -/
  | center
  /-- At the end, but its sign at the start. -/
  | afterSign
deriving DecidableEq, Repr

/-- What is written before a number that is not negative. -/
inductive Spec.Sign where
  /-- A plus sign. -/
  | plus
  /-- A space. -/
  | space
  /-- Nothing. -/
  | minus
deriving DecidableEq, Repr

/-- What separates groups of digits. -/
inductive Spec.Separator where
  /-- A comma. -/
  | comma
  /-- A low line. -/
  | lowLine
deriving DecidableEq, Repr

/-- The character of a separator. -/
def Spec.Separator.char : Spec.Separator → Char
  | comma => ','
  | lowLine => '_'

/-- A format specification. -/
structure Spec where
  /-- The code point to fill up with. -/
  fill : CodePoint
  /-- Where the value stands. -/
  alignment : Spec.Alignment
  /-- What is written before numbers that are not negative, if it is said. -/
  sign : Option Spec.Sign
  /-- Whether there is no negative zero. -/
  noNegativeZero : Bool
  /-- Whether the alternate form is asked for. -/
  alternate : Bool
  /-- The width. -/
  width : Option Nat
  /-- The separator of groups of digits. -/
  separator : Option Spec.Separator
  /-- The precision. -/
  precision : Option Nat
  /-- The letter of the presentation. -/
  letter : CodePoint
deriving DecidableEq, Repr

namespace Spec

/-- The values that specifications are read for. -/
inductive Subject where
  /-- A string. -/
  | text
  /-- An integer. -/
  | integer
  /-- A truth value, which is written as an integer. -/
  | truth
deriving DecidableEq, Repr

/-- The word for what a specification is applied to. -/
def Subject.word : Subject → String
  | text => "str"
  | integer => "int"
  | truth => "bool"

/-- The parts of a specification that one kind of value does not admit. -/
inductive Part where
  /-- The sign, given as a space. -/
  | space
  /-- The sign. -/
  | sign
  /-- The mark for no negative zero. -/
  | noNegativeZero
  /-- The mark for the alternate form. -/
  | alternate
  /-- The alignment between sign and digits. -/
  | afterSign
  /-- The precision. -/
  | precision
deriving DecidableEq, Repr

/-- The wording for a part. -/
def Part.words : Part → String
  | space => "Space not allowed"
  | sign => "Sign not allowed"
  | noNegativeZero => "Negative zero coercion (z) not allowed"
  | alternate => "Alternate form (#) not allowed"
  | afterSign => "'=' alignment not allowed"
  | precision => "Precision not allowed"

/-- What can be wrong with a specification. -/
inductive Fault where
  /-- A number in it is too large. -/
  | tooManyDigits
  /-- No digits follow the point. -/
  | missingPrecision
  /-- Both separators are given. -/
  | bothSeparators
  /-- The separator does not go with the letter. -/
  | separatorWithLetter (separator : Separator) (letter : CodePoint)
  /-- More than a letter is left at the end. -/
  | malformed (spec : Text) (subject : Subject)
  /-- The letter means nothing for the value. -/
  | unknownLetter (letter : CodePoint) (subject : Subject)
  /-- A string does not admit a part. -/
  | notForText (part : Part)
  /-- An integer does not admit a part. -/
  | notForInteger (part : Part)
  /-- An integer that is written as a character does not admit a part. -/
  | notForCharacter (part : Part)
  /-- There is no code point of that number. -/
  | noCodePoint
  /-- The number is too large for the number of a code point. -/
  | tooLargeForCodePoint
  /-- The number is too large for a floating-point number. -/
  | tooLargeForFloat
deriving DecidableEq, Repr

/-- A letter as it is named in a fault: by its number unless it is a visible ASCII character. -/
def letterName (letter : CodePoint) : Text :=
  if 32 < letter.toNat ∧ letter.toNat < 128 then [letter]
  else Text.ofString "\\x" ++ Text.ofChars (Nat.toDigits 16 letter.toNat)

/-- The wording of a fault. -/
def Fault.message : Fault → Text
  | tooManyDigits => Text.ofString "Too many decimal digits in format string"
  | missingPrecision => Text.ofString "Format specifier missing precision"
  | bothSeparators => Text.ofString "Cannot specify both ',' and '_'."
  | separatorWithLetter separator letter =>
    Text.ofString "Cannot specify '" ++ [.char separator.char] ++ Text.ofString "' with '" ++
      letterName letter ++ Text.ofString "'."
  | malformed spec subject =>
    Text.ofString "Invalid format specifier '" ++ spec ++
      Text.ofString ("' for object of type '" ++ subject.word ++ "'")
  | unknownLetter letter subject =>
    Text.ofString "Unknown format code '" ++ letterName letter ++
      Text.ofString ("' for object of type '" ++ subject.word ++ "'")
  | notForText part => Text.ofString (part.words ++ " in string format specifier")
  | notForInteger part => Text.ofString (part.words ++ " in integer format specifier")
  | notForCharacter part =>
    Text.ofString (part.words ++ " with integer format specifier 'c'")
  | noCodePoint => Text.ofString "%c arg not in range(0x110000)"
  | tooLargeForCodePoint => Text.ofString "Python int too large to convert to C long"
  | tooLargeForFloat => Text.ofString "int too large to convert to float"

/-! ### Reading -/

/-- The alignment a code point stands for. -/
def alignment? : CodePoint → Option Alignment
  | .char '<' => some .left
  | .char '>' => some .right
  | .char '^' => some .center
  | .char '=' => some .afterSign
  | _ => none

/-- The sign a code point stands for. -/
def sign? : CodePoint → Option Sign
  | .char '+' => some .plus
  | .char ' ' => some .space
  | .char '-' => some .minus
  | _ => none

/-- Takes a mark off the front of a text, if it is there. -/
def mark (c : Char) : Text → Bool × Text
  | [] => (false, [])
  | x :: rest => if x = .char c then (true, rest) else (false, x :: rest)

/-- The largest number that may occur in a specification. -/
def largest : Nat := 9223372036854775807

/-- The value of a decimal digit of any script. -/
def digit? : CodePoint → Option Nat
  | .char c => Unicode.digitValue? c
  | .surrogate _ => none

/-- Reads digits on from a value, up to the first code point that is no digit. -/
def digitsFrom (value : Nat) : Text → Except Fault (Nat × Text)
  | [] => .ok (value, [])
  | c :: rest =>
    match digit? c with
    | none => .ok (value, c :: rest)
    | some d =>
      if value > (largest - d) / 10 then .error .tooManyDigits
      else digitsFrom (10 * value + d) rest

/-- Reads a number, if the text starts with a digit. -/
def number? (text : Text) : Except Fault (Option Nat × Text) :=
  match text with
  | [] => .ok (none, [])
  | c :: _ =>
    if (digit? c).isSome then (digitsFrom 0 text).map fun (n, rest) => (some n, rest)
    else .ok (none, text)

/-- The code point to fill up with, if it is given, and the alignment. -/
def fillAndAlignment : Text → Option CodePoint × Option Alignment × Text
  | fill :: c :: rest =>
    match alignment? c with
    | some a => (some fill, some a, rest)
    | none =>
      match alignment? fill with
      | some a => (none, some a, c :: rest)
      | none => (none, none, fill :: c :: rest)
  | [c] =>
    match alignment? c with
    | some a => (none, some a, [])
    | none => (none, none, [c])
  | [] => (none, none, [])

/-- The separator, if it is given. -/
def separator? (text : Text) : Except Fault (Option Separator × Text) :=
  let (comma, text) := mark ',' text
  let (lowLine, text) := mark '_' text
  if comma && lowLine then .error .bothSeparators
  else if lowLine && (mark ',' text).1 then .error .bothSeparators
  else if comma then .ok (some .comma, text)
  else if lowLine then .ok (some .lowLine, text)
  else .ok (none, text)

/-- The precision, if it is given. -/
def precision? (text : Text) : Except Fault (Option Nat × Text) :=
  match mark '.' text with
  | (false, text) => .ok (none, text)
  | (true, text) =>
    match number? text with
    | .error fault => .error fault
    | .ok (none, _) => .error .missingPrecision
    | .ok (some n, rest) => .ok (some n, rest)

/-- Whether a separator goes with a letter. -/
def allowsSeparator (separator : Separator) (letter : CodePoint) : Bool :=
  let letters :=
    match separator with
    | .comma => "defgEG%F"
    | .lowLine => "defgEG%FboxX"
  match letter with
  | .char c => letters.toList.contains c
  | .surrogate _ => false

/-- The sign in front of a text, if it is given. -/
def signOf : Text → Option Sign × Text
  | [] => (none, [])
  | c :: rest =>
    match sign? c with
    | some s => (some s, rest)
    | none => (none, c :: rest)

/-- Reads a specification for a value of a kind. The letter and the alignment of the kind stand in
for those that are left out. -/
def read (subject : Subject) (text : Text) : Except Fault Spec := do
  let isText := subject = .text
  let (fill, align, rest) := fillAndAlignment text
  let (sign, rest) := signOf rest
  let (noNegativeZero, rest) := mark 'z' rest
  let (alternate, rest) := mark '#' rest
  let (zero, rest) := if fill.isSome then (false, rest) else mark '0' rest
  let (width, rest) ← number? rest
  let (separator, rest) ← separator? rest
  let (precision, rest) ← precision? rest
  let letter ←
    match rest with
    | [] => pure (CodePoint.char (if isText then 's' else 'd'))
    | [letter] => pure letter
    | _ => throw (.malformed text subject)
  if let some s := separator then
    if !allowsSeparator s letter then throw (.separatorWithLetter s letter)
  let usual : Alignment := if isText then .left else if zero then .afterSign else .right
  return {
    fill := fill.getD (if zero then .char '0' else .char ' ')
    alignment := align.getD usual
    sign, noNegativeZero, alternate, width, separator, precision, letter }

end Spec

end Errata
