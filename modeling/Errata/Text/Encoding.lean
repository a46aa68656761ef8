import Errata.Text.CodePoint
import Errata.Text.Quoted

/-!
# Text as bytes

Text is stored in UTF-8. A surrogate has no encoding, and not all bytes are the encoding of a text;
either is reported with the place of the first fault.

## Main definitions

* `SurrogateRun.reason`: why surrogates cannot be encoded.
* `Bytes.encode`: the bytes that stand for characters.
* `Bytes.decode`: the characters that bytes stand for.
* `Bytes.Fault.reason`: why they stand for none.
-/

namespace Errata

/-- Why surrogates cannot be encoded. A surrogate that stands alone is shown. -/
def SurrogateRun.reason (run : SurrogateRun) : String :=
  let what :=
    if run.length = 1 then
      "character '" ++ String.ofList (Quoted.numeric (0xD800 + run.first)) ++ "' in position " ++
        toString run.position
    else
      "characters in position " ++ toString run.position ++ "-" ++
        toString (run.position + run.length - 1)
  "'utf-8' codec can't encode " ++ what ++ ": surrogates not allowed"

end Errata

namespace Errata.Bytes

/-- How bytes fail to be the encoding of a character. -/
inductive Cause where
  /-- No encoding starts with the byte. -/
  | start
  /-- A byte does not go on with an encoding. -/
  | continuation
  /-- The bytes end within an encoding. -/
  | ending
deriving DecidableEq, Repr

/-- The wording of a cause. -/
def Cause.words : Cause → String
  | start => "invalid start byte"
  | continuation => "invalid continuation byte"
  | ending => "unexpected end of data"

/-- Where bytes fail to be the encoding of a text. -/
structure Fault where
  /-- The position of the first byte that is not part of a character. -/
  position : Nat
  /-- That byte. -/
  byte : UInt8
  /-- How many bytes are given up together. -/
  length : Nat
  /-- How they fail. -/
  cause : Cause
deriving DecidableEq, Repr

/-- The wording of a fault. A byte that is given up alone is shown. -/
def Fault.reason (f : Fault) : String :=
  let what :=
    if f.length = 1 then
      "byte 0x" ++ String.ofList (Quoted.hexadecimal 2 f.byte.toNat) ++ " in position " ++
        toString f.position
    else
      "bytes in position " ++ toString f.position ++ "-" ++ toString (f.position + f.length - 1)
  "'utf-8' codec can't decode " ++ what ++ ": " ++ f.cause.words

/-- How an encoding may go on after its first byte: how many bytes follow, and the bounds of the
first of them. The bounds shut out encodings that are too long, surrogates, and numbers that are too
large. -/
def continuations? (first : UInt8) : Option (Nat × UInt8 × UInt8) :=
  if first < 0x80 then some (0, 0x80, 0xBF)
  else if first < 0xC2 then none
  else if first < 0xE0 then some (1, 0x80, 0xBF)
  else if first < 0xF0 then
    some (2, if first = 0xE0 then 0xA0 else 0x80, if first = 0xED then 0x9F else 0xBF)
  else if first < 0xF5 then
    some (3, if first = 0xF0 then 0x90 else 0x80, if first = 0xF4 then 0x8F else 0xBF)
  else none

/-- The part of the number of a character that the first byte of its encoding carries. -/
def leadValue (count : Nat) (first : UInt8) : Nat :=
  match count with
  | 0 => first.toNat
  | 1 => first.toNat % 0x20
  | 2 => first.toNat % 0x10
  | _ => first.toNat % 0x08

/-- Reads the bytes that go on with an encoding, `value` being what is read so far and `used` the
number of bytes it took. The first of them has bounds of its own. -/
def continueWith (low high : UInt8) (value used : Nat) :
    Nat → List UInt8 → Except (Nat × Cause) (Nat × List UInt8)
  | 0, rest => .ok (value, rest)
  | _ + 1, [] => .error (used, .ending)
  | count + 1, b :: rest =>
    if low ≤ b ∧ b ≤ high then
      continueWith 0x80 0xBF (64 * value + b.toNat % 64) (used + 1) count rest
    else
      .error (used, .continuation)

/-- What follows the bytes of an encoding is not longer than what follows its first byte. -/
theorem length_continueWith_le {low high : UInt8} {value used count : Nat} {bytes rest : List UInt8}
    {result : Nat} (h : continueWith low high value used count bytes = .ok (result, rest)) :
    rest.length ≤ bytes.length := by
  fun_induction continueWith low high value used count bytes with
  | case1 => cases h; exact Nat.le_refl _
  | case2 => cases h
  | case3 _ _ _ _ _ _ _ _ ih => exact Nat.le_succ_of_le (ih h)
  | case4 => cases h

/-- The characters that bytes stand for, after `position` bytes before them. -/
def decodeFrom (position : Nat) : List UInt8 → Except Fault (List Char)
  | [] => .ok []
  | first :: rest =>
    match continuations? first with
    | none => .error ⟨position, first, 1, .start⟩
    | some (count, low, high) =>
      match h : continueWith low high (leadValue count first) 1 count rest with
      | .error (length, cause) => .error ⟨position, first, length, cause⟩
      | .ok (value, after) =>
        have := length_continueWith_le h
        (decodeFrom (position + (rest.length - after.length) + 1) after).map
          (Char.ofNat value :: ·)
termination_by bytes => bytes.length

/-- The bytes that stand for characters. -/
def encode (chars : List Char) : List UInt8 :=
  chars.flatMap String.utf8EncodeChar

/-- The characters that bytes stand for. -/
def decode (bytes : List UInt8) : Except Fault (List Char) :=
  decodeFrom 0 bytes

end Errata.Bytes
