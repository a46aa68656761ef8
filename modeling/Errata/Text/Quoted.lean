import Errata.Text.CodePoint
import Errata.Unicode.Printable

/-!
# Quoted text

The written form of a text as a literal on one line: between apostrophes, or between quotation
marks if the text holds an apostrophe and no quotation mark. The delimiter and the backslash are
written with a backslash before them; line feed, carriage return and tab by their letters; every
other code point that is not printable by its number in hexadecimal.
-/

namespace Errata.Quoted

/-- The last `count` hexadecimal digits of a number. -/
def hexadecimal (count n : Nat) : List Char :=
  (List.range count).reverse.map fun i => Nat.digitChar (n / Nat.pow 16 i % 16)

/-- A code point written by its number. -/
def numeric (n : Nat) : List Char :=
  if n < 0x100 then '\\' :: 'x' :: hexadecimal 2 n
  else if n < 0x10000 then '\\' :: 'u' :: hexadecimal 4 n
  else '\\' :: 'U' :: hexadecimal 8 n

/-- The written form of a code point between the given delimiters. -/
def encodeOne (delimiter : Char) : CodePoint → List Char
  | .surrogate offset => numeric (0xD800 + offset)
  | .char c =>
    if c = delimiter ∨ c = '\\' then ['\\', c]
    else if c = '\n' then ['\\', 'n']
    else if c = '\r' then ['\\', 'r']
    else if c = '\t' then ['\\', 't']
    else if Unicode.isPrintable c then [c]
    else numeric c.toNat

/-- The delimiter of the written form of a text. -/
def delimiter (text : Text) : Char :=
  if .char '\'' ∈ text ∧ .char '"' ∉ text then '"' else '\''

/-- The written form of a text. -/
def encode (text : Text) : List Char :=
  let d := delimiter text
  d :: text.flatMap (encodeOne d) ++ [d]

end Errata.Quoted

namespace Errata

/-- The written form of a text. -/
def Text.quoted (text : Text) : String :=
  String.ofList (Quoted.encode text)

/-- The written form of a string. -/
def quoted (s : String) : String :=
  (Text.ofString s).quoted

end Errata
