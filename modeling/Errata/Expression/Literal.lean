/-!
# String literals in expressions

A string literal that ends properly can still be at fault: an escape in it may lack digits, a string
of bytes may hold other characters, and strings of characters and of bytes cannot stand side by
side. A formatted string would need a closing brace for every opening brace that stands alone, and
no closing brace can occur in a placeholder.

## Main definitions

* `Literal.fault?`: the fault of a string literal.
* `Literal.faultOfAll?`: the fault of string literals that stand side by side.
-/

namespace Errata.Expression.Literal

/-- Whether the character is a hexadecimal digit. -/
def isHexDigit (c : Char) : Bool :=
  c.isDigit || ('a' ≤ c && c ≤ 'f') || ('A' ≤ c && c ≤ 'F')

/-- Whether the letter stands among the letters before a string literal, in either case. -/
def hasMark (mark : Char) (letters : List Char) : Bool :=
  letters.any fun c => c.toLower == mark

/-! ### Escapes -/

/-- How many hexadecimal digits an escape needs, and how its kind is written. -/
def digitsNeeded? : Char → Option (Nat × String)
  | 'x' => some (2, "\\xXX")
  | 'u' => some (4, "\\uXXXX")
  | 'U' => some (8, "\\UXXXXXXXX")
  | _ => none

/-- The number written by hexadecimal digits. -/
def hexValue (digits : List Char) : Nat :=
  digits.foldl (fun n c => 16 * n + (if c.isDigit then c.toNat - 48 else c.toNat % 32 + 9)) 0

/-- How wide a character counts in the positions of faults: one beyond the basic alphabet counts as
the escape it could be written with. -/
def width (c : Char) : Nat :=
  if c.toNat < 128 then 1 else 10

/-- The message for a fault from one position to another. -/
def decodingFault (start stop : Nat) (what : String) : String :=
  "(unicode error) 'unicodeescape' codec can't decode bytes in position " ++
    toString start ++ "-" ++ toString (stop - 1) ++ ": " ++ what

/-- The first escape in a string of characters that stands for nothing. -/
def escapeFault? (position : Nat) : List Char → Option String
  | '\\' :: c :: rest =>
    match digitsNeeded? c with
    | some (count, kind) =>
      let digits := (rest.take count).takeWhile isHexDigit
      let stop := position + 2 + digits.length
      if digits.length < count then
        some (decodingFault position stop ("truncated " ++ kind ++ " escape"))
      else if hexValue digits > 0x10FFFF then
        some (decodingFault position stop "illegal Unicode character")
      else
        escapeFault? (position + 2) rest
    | none =>
      if c = 'N' then
        let taken :=
          match rest with
          | '\x7b' :: rest => rest.foldl (fun total c => total + width c) 1
          | _ => 0
        some (decodingFault position (position + 2 + taken) "malformed \\N character escape")
      else
        escapeFault? (position + (if c.toNat < 128 then 2 else 16)) rest
  | c :: rest => escapeFault? (position + width c) rest
  | [] => none

/-- The first escape in a string of bytes that stands for nothing. -/
def byteEscapeFault? (position : Nat) : List Char → Option String
  | '\\' :: c :: rest =>
    if c = 'x' ∧ ((rest.take 2).takeWhile isHexDigit).length < 2 then
      some ("(value error) invalid \\x escape at position " ++ toString position)
    else
      byteEscapeFault? (position + 2) rest
  | _ :: rest => byteEscapeFault? (position + 1) rest
  | [] => none

/-! ### Literals -/

/-- Whether an opening brace stands alone. -/
def hasLoneBrace : List Char → Bool
  | '\x7b' :: '\x7b' :: rest => hasLoneBrace rest
  | '\x7b' :: _ => true
  | _ :: rest => hasLoneBrace rest
  | [] => false

/-- The fault of a string literal. -/
def fault? (letters body : List Char) : Option String :=
  if hasMark 'b' letters then
    if body.any fun c => c.toNat ≥ 128 then
      some "bytes can only contain ASCII literal characters"
    else if hasMark 'r' letters then none
    else byteEscapeFault? 0 body
  else if hasMark 'f' letters && hasLoneBrace body then
    some "f-string: expecting '\x7d'"
  else if hasMark 'r' letters then none
  else escapeFault? 0 body

/-- The fault of string literals that stand side by side. -/
def faultOfAll? : List (List Char × List Char) → Option String
  | [] => none
  | (letters, body) :: rest =>
    match fault? letters body with
    | some reason => some reason
    | none =>
      match rest with
      | [] => none
      | (next, body) :: _ =>
        match fault? next body with
        | some reason => some reason
        | none =>
          if hasMark 'b' letters ≠ hasMark 'b' next then
            some "cannot mix bytes and nonbytes literals"
          else
            faultOfAll? rest

end Errata.Expression.Literal
