/-!
# Code points

Decoded literals are sequences of code points rather than of characters: a numeric escape may
spell one half of a surrogate pair, and such a half stays as it is, also next to its partner.

## Main definitions

* `CodePoint`: a character, or a surrogate that stands alone.
* `Text`: a sequence of code points.
* `Text.characters?`: the characters of a text that holds no surrogate.
* `Text.firstSurrogates?`: why a text cannot be encoded, if it cannot.
-/

namespace Errata

/-- A code point of decoded text. -/
inductive CodePoint where
  /-- A character. -/
  | char (c : Char)
  /-- The surrogate `U+D800 + offset`. -/
  | surrogate (offset : Fin 2048)
deriving DecidableEq, Repr

namespace CodePoint

/-- The number of the code point. -/
def toNat : CodePoint → Nat
  | char c => c.toNat
  | surrogate offset => 0xD800 + offset

/-- The code point with the given number, if there is one. -/
def ofNat? (n : Nat) : Option CodePoint :=
  if surrogate : 0xD800 ≤ n ∧ n < 0xE000 then
    some (.surrogate ⟨n - 0xD800, by omega⟩)
  else if n < 0x110000 then
    some (.char (Char.ofNat n))
  else
    none

/-- The character, unless the code point is a surrogate. -/
def char? : CodePoint → Option Char
  | char c => some c
  | surrogate _ => none

instance : Coe Char CodePoint := ⟨char⟩

end CodePoint

/-- Surrogates that follow one another in a text. -/
structure SurrogateRun where
  /-- The position of the first. -/
  position : Nat
  /-- The first. -/
  first : Fin 2048
  /-- How many there are. -/
  length : Nat
deriving DecidableEq, Repr

/-- A sequence of code points. -/
abbrev Text := List CodePoint

namespace Text

/-- The text of a list of characters. -/
def ofChars (chars : List Char) : Text :=
  chars.map .char

/-- The text of a string. -/
def ofString (s : String) : Text :=
  ofChars s.toList

/-- The characters of the text, or `none` if it holds a surrogate. -/
def characters? (text : Text) : Option (List Char) :=
  text.mapM CodePoint.char?

/-- How many surrogates the text starts with. -/
def leadingSurrogates : Text → Nat
  | .surrogate _ :: rest => leadingSurrogates rest + 1
  | _ => 0

/-- The first run of surrogates, in a text of which `position` code points are passed. -/
def surrogatesFrom (position : Nat) : Text → Option SurrogateRun
  | [] => none
  | .surrogate offset :: rest => some ⟨position, offset, leadingSurrogates rest + 1⟩
  | .char _ :: rest => surrogatesFrom (position + 1) rest

/-- The first run of surrogates. -/
def firstSurrogates? (text : Text) : Option SurrogateRun :=
  surrogatesFrom 0 text

end Text

end Errata
