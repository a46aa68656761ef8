/-!
# Numbers in expressions

The numbers of the expression language: decimal numbers with or without a fraction, an exponent and
the mark of an imaginary number, and whole numbers with a radix mark. A single low line may stand
between two digits. Right after a number no name may start, save for a few words. A whole decimal
number with very many digits is a number, but its value is not computed.

Each function is given the text after a part of a number and finds the text after the next part.
-/

namespace Errata.Expression.Number

/-- Whether the character is a digit. -/
def isDigit (c : Char) : Bool :=
  '0' ≤ c && c ≤ '9'

/-- Whether the character may belong to a word. -/
def isWordChar (c : Char) : Bool :=
  c.isAlphanum || c == '_' || c.toNat ≥ 128

/-- The words that may follow a number without a blank between. -/
def followers : List (List Char) :=
  [['a', 'n', 'd'], ['e', 'l', 's', 'e'], ['f', 'o', 'r'], ['o', 'r'], ['n', 'o', 't']]

/-- The pairs of letters that may follow a number without a blank between, also where a longer word
starts with them. -/
def followingPairs : List (List Char) :=
  [['i', 'f'], ['i', 'n'], ['i', 's']]

/-- Whether the text starts with something that may follow a number. -/
def startsFollower (text : List Char) : Bool :=
  followingPairs.any (·.isPrefixOf text) || followers.contains (text.takeWhile isWordChar)

/-- The fault of a number of the given kind. -/
def invalid (kind : String) : String :=
  "invalid " ++ kind ++ " literal"

/-- The end of a number of the given kind, unless a word starts there. -/
def close (kind : String) : List Char → Except String (List Char)
  | [] => .ok []
  | c :: rest =>
    if c.toNat < 128 && isWordChar c && !startsFollower (c :: rest) then .error (invalid kind)
    else .ok (c :: rest)

/-- After a digit of a decimal number. -/
def decimalTail : List Char → Except String (List Char)
  | '_' :: c :: rest => if isDigit c then decimalTail rest else .error (invalid "decimal")
  | ['_'] => .error (invalid "decimal")
  | c :: rest => if isDigit c then decimalTail rest else .ok (c :: rest)
  | [] => .ok []

/-- After a whole number with its fraction and its exponent. -/
def imaginary : List Char → Except String (List Char)
  | c :: rest =>
    if c = 'j' ∨ c = 'J' then close "imaginary" rest else close "decimal" (c :: rest)
  | [] => .ok []

/-- After the letter `e` of an exponent. -/
def exponentDigits (e : Char) : List Char → Except String (List Char)
  | c :: rest =>
    if c = '+' ∨ c = '-' then
      match rest with
      | d :: rest =>
        if isDigit d then decimalTail rest >>= imaginary else .error (invalid "decimal")
      | [] => .error (invalid "decimal")
    else if isDigit c then decimalTail rest >>= imaginary
    else close "decimal" (e :: c :: rest)
  | [] => close "decimal" [e]

/-- After a whole number and its fraction. -/
def exponent : List Char → Except String (List Char)
  | c :: rest => if c = 'e' ∨ c = 'E' then exponentDigits c rest else imaginary (c :: rest)
  | [] => .ok []

/-- After the point of a fraction. -/
def fraction : List Char → Except String (List Char)
  | c :: rest => if isDigit c then decimalTail rest >>= exponent else exponent (c :: rest)
  | [] => .ok []

/-- After a whole number. -/
def point : List Char → Except String (List Char)
  | '.' :: rest => fraction rest
  | rest => exponent rest

/-- After a zero at the start of a number: skips further zeros. -/
def zeros : List Char → Except String (List Char)
  | '_' :: c :: rest =>
    if c = '0' then zeros rest
    else if isDigit c then .ok (c :: rest)
    else .error (invalid "decimal")
  | ['_'] => .error (invalid "decimal")
  | '0' :: rest => zeros rest
  | rest => .ok rest

/-- Whether a fraction, an exponent or the mark of an imaginary number follows. -/
def goesOn : List Char → Bool
  | c :: _ => c == '.' || c == 'e' || c == 'E' || c == 'j' || c == 'J'
  | [] => false

/-- After zeros that are not the whole number: only the number zero and numbers with a fraction, an
exponent or the mark of an imaginary number may start with a zero. -/
def afterZeros : List Char → Except String (List Char)
  | c :: rest =>
    if isDigit c then do
      let rest ← decimalTail rest
      if goesOn rest then point rest
      else
        .error ("leading zeros in decimal integer literals are not permitted; " ++
          "use an 0o prefix for octal integers")
    else point (c :: rest)
  | [] => .ok []

/-- What may come next in a number with a radix mark. -/
inductive Expect where
  /-- A low line or a digit. -/
  | markOrDigit
  /-- A digit. -/
  | digit
  /-- Anything. -/
  | anything
deriving DecidableEq

/-- In a number with a radix mark. -/
def radixTail (kind : String) (isRadixDigit : Char → Bool) :
    Expect → List Char → Except String (List Char)
  | expect, c :: rest =>
    if c = '_' ∧ expect ≠ .digit then radixTail kind isRadixDigit .digit rest
    else if isRadixDigit c then radixTail kind isRadixDigit .anything rest
    else if isDigit c then
      .error ("invalid digit '" ++ String.singleton c ++ "' in " ++ kind ++ " literal")
    else if expect = .anything then close kind (c :: rest)
    else .error (invalid kind)
  | .anything, [] => .ok []
  | _, [] => .error (invalid kind)

/-- Whether the character is a digit of a number to the base sixteen. -/
def isHexDigit (c : Char) : Bool :=
  isDigit c || ('a' ≤ c && c ≤ 'f') || ('A' ≤ c && c ≤ 'F')

/-- The text after the number that starts with the digit `c`. -/
def scan (c : Char) (rest : List Char) : Except String (List Char) :=
  if c = '0' then
    match rest with
    | mark :: digits =>
      if mark = 'x' ∨ mark = 'X' then radixTail "hexadecimal" isHexDigit .markOrDigit digits
      else if mark = 'o' ∨ mark = 'O' then
        radixTail "octal" (fun c => '0' ≤ c && c ≤ '7') .markOrDigit digits
      else if mark = 'b' ∨ mark = 'B' then
        radixTail "binary" (fun c => c == '0' || c == '1') .markOrDigit digits
      else zeros rest >>= afterZeros
    | [] => .ok []
  else
    decimalTail rest >>= point

/-- How many digits the whole decimal numbers may have of which the value is computed. -/
def maxDigits : Nat := 4300

/-- How many digits a number has, if it is a whole decimal number with too many of them. Such a
number does not start with a zero. -/
def excess? (text : List Char) : Option Nat :=
  let digits := text.filter isDigit
  if text.head? ≠ some '0' ∧ text.all (fun c => isDigit c || c == '_') ∧
      digits.length > maxDigits then
    some digits.length
  else none

end Errata.Expression.Number
