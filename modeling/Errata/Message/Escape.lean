import Errata.Text.CodePoint
import Errata.Text.Hexadecimal

/-!
# Escapes in string literals

The body of a string literal is a sequence of *pieces*: a character that stands for itself, or a
backslash with what follows it. A piece has a width, the number of characters that spell it, and
a value, the code point it stands for. Decoding yields the values together with an index that
leads from a position in the decoded text back into the literal.

## Main definitions

* `Escape.pieces`: the pieces of a literal, or the first escape that is none.
* `Escape.decode`: the decoded text and its index.
-/

namespace Errata.Escape

/-- An escape that stands for nothing: how it is spelled and where it starts. -/
structure Invalid where
  /-- The backslash and what was taken to belong to it. -/
  escape : List Char
  /-- The position of the backslash. -/
  offset : Nat
deriving DecidableEq, Repr

/-- The message for an invalid escape. -/
def Invalid.message (e : Invalid) : String :=
  "invalid escape sequence '" ++ String.ofList e.escape ++ "'"

/-- A part of a literal that stands for one code point. -/
structure Piece where
  /-- How many characters spell it. -/
  width : Nat
  /-- What it stands for. -/
  value : CodePoint
deriving DecidableEq, Repr

/-- What a backslash and a single character stand for. -/
def simple? : Char → Option Char
  | 'n' => some '\n'
  | 't' => some '\t'
  | 'r' => some '\r'
  | '\\' => some '\\'
  | '"' => some '"'
  | '\'' => some '\''
  | '0' => some '\x00'
  | _ => none

/-- How many characters follow the letter of a numeric escape. -/
def digitCount? : Char → Option Nat
  | 'x' => some 2
  | 'u' => some 4
  | _ => none

/-- The code point that exactly `count` characters of a numeric escape spell. -/
def numeric? (count : Nat) (digits : List Char) : Option CodePoint :=
  if digits.length ≠ count then none
  else
    match Hexadecimal.numeral? digits with
    | some (.ofNat n) => CodePoint.ofNat? n
    | _ => none

/-- The pieces of a literal that starts at `offset`, or its first invalid escape. -/
def pieces (offset : Nat) : List Char → Except Invalid (List Piece)
  | [] => return []
  | '\\' :: kind :: rest =>
    match simple? kind, digitCount? kind with
    | some c, _ => return ⟨2, .char c⟩ :: (← pieces (offset + 2) rest)
    | none, some count =>
      match numeric? count (rest.take count) with
      | some value =>
        return ⟨2 + count, value⟩ :: (← pieces (offset + 2 + count) (rest.drop count))
      | none => throw ⟨'\\' :: kind :: rest.take count, offset⟩
    | none, none => throw ⟨['\\', kind], offset⟩
  | ['\\'] => throw ⟨['\\'], offset⟩
  | c :: rest => return ⟨1, .char c⟩ :: (← pieces (offset + 1) rest)
termination_by chars => chars.length

/-- The positions at which consecutive parts of the given widths start, the first at `start`,
followed by the position after the last. -/
def boundaries (start : Nat) : List Nat → List Nat
  | [] => [start]
  | width :: rest => start :: boundaries (start + width) rest

/-- A decoded literal. -/
structure Decoded where
  /-- The code points the literal stands for. -/
  text : Text
  /-- Where the piece of each code point starts in the literal, and last the literal's length. -/
  index : List Nat
deriving DecidableEq, Repr

/-- The decoded literal with the given pieces. -/
def Decoded.ofPieces (ps : List Piece) : Decoded where
  text := ps.map Piece.value
  index := boundaries 0 (ps.map Piece.width)

/-- Decodes the body of a string literal. -/
def decode (raw : List Char) : Except Invalid Decoded :=
  (pieces 0 raw).map Decoded.ofPieces

end Errata.Escape
