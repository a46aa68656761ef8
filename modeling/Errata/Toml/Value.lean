import Errata.Association
import Errata.Text.Quoted

/-!
# Values and problems of a TOML document

A document is a table. A table keeps its entries in the order in which they were made, and a key has
at most one entry. Floats, dates and times are kept as they are written.

## Main definitions

* `Toml.Value`, `Toml.Table`: values and tables.
* `Toml.Table.get?`, `Toml.Table.set`: the entry of a key.
* `Toml.Table.update?`: changes the table behind a dotted key.
* `Toml.Fault`, `Toml.Fault.message`: what can be wrong, and its wording.
* `Toml.Problem`, `Toml.Problem.message`: a fault with its place.
-/

/-! ## Values -/

namespace Errata.Toml

/-- A value of a document. -/
inductive Value where
  /-- A string. -/
  | text (s : String)
  /-- An integer. -/
  | integer (n : Int)
  /-- A float. -/
  | float (written : String)
  /-- A truth value. -/
  | bool (b : Bool)
  /-- A date together with a time. -/
  | dateTime (written : String)
  /-- A date. -/
  | date (written : String)
  /-- A time of day. -/
  | time (written : String)
  /-- An array. -/
  | array (items : List Value)
  /-- A table. -/
  | table (entries : List (String × Value))
deriving Inhabited

/-- A table: keys and their values. -/
abbrev Table := List (String × Value)

/-- A dotted key. -/
abbrev Key := List String

namespace Value

/-- Whether the value has parts. -/
def isContainer : Value → Bool
  | array _ => true
  | table _ => true
  | _ => false

end Value

namespace Table

/-- The value of a key. -/
def get? (t : Table) (key : String) : Option Value :=
  t.lookup key

/-- The table with the value of a key changed. A new key stands last. -/
def set (t : Table) (key : String) (v : Value) : Table :=
  setEntry key v t

/-- Changes the table behind a dotted key. Tables that are missing on the way are made. Where
`throughArrays` is set, the way through an array leads to its last item. There is no table behind a
key that passes another value. -/
def update? (throughArrays : Bool) (f : Table → Option Table) : Key → Table → Option Table
  | [], t => f t
  | k :: key, t =>
    match t.get? k with
    | none => do return t.set k (.table (← update? throughArrays f key []))
    | some (.table inner) => do return t.set k (.table (← update? throughArrays f key inner))
    | some (.array items) =>
      match throughArrays, items.getLast? with
      | true, some (.table inner) => do
        return t.set k (.array (items.dropLast ++ [.table (← update? throughArrays f key inner)]))
      | _, _ => none
    | some _ => none

end Table

end Errata.Toml

/-! ## Problems

What can be wrong with a document, and the place where it was found. The place is kept as the number
of characters that are left from there on, which a reader knows without counting; line and column
are worked out from the document.
-/

namespace Errata.Toml

/-- What can be wrong with a document. -/
inductive Fault where
  /-- No statement starts with the character. -/
  | statement
  /-- A statement does not end with its line. -/
  | statementEnd
  /-- A dotted key has no equals sign after it. -/
  | equalsSign
  /-- No part of a key starts with the character. -/
  | keyPart
  /-- The head of a table is not closed. -/
  | tableHead
  /-- The head of an item of an array of tables is not closed. -/
  | itemHead
  /-- A table is declared for the second time. -/
  | declaredTwice (key : Key)
  /-- A dotted key goes through a table that has a head of its own. -/
  | redefined (key : Key)
  /-- A table or an array that is written out on the spot would be changed. -/
  | immutable (key : Key)
  /-- A value would be replaced by another. -/
  | overwritten
  /-- A key stands twice in a table that is written out on the spot. -/
  | duplicate (key : String)
  /-- No value is written this way. -/
  | value
  /-- An array is not closed. -/
  | array
  /-- A table that is written out on the spot is not closed. -/
  | inlineTable
  /-- A string without escapes is not closed. -/
  | expected (delimiter : String)
  /-- A string with escapes is not closed. -/
  | unterminated
  /-- A character stands in a comment or in a string without escapes that must not stand there. -/
  | invalid (c : Char)
  /-- A character stands in a string with escapes that must not stand there. -/
  | illegal (c : Char)
  /-- A backslash starts no escape. -/
  | backslash
  /-- An escape by number lacks digits. -/
  | hexadecimal
  /-- The number of an escape is the number of no character. -/
  | notScalar
  /-- There is no such day. -/
  | date
  /-- A decimal integer has too many digits. -/
  | oversized (digits : Nat)
deriving DecidableEq, Repr

/-- The written form of a dotted key in messages. -/
def Key.written (key : Key) : String :=
  "(" ++ ", ".intercalate (key.map quoted) ++ (if key.length = 1 then ",)" else ")")

/-- The wording of a fault. -/
def Fault.message : Fault → String
  | statement => "Invalid statement"
  | statementEnd => "Expected newline or end of document after a statement"
  | equalsSign => "Expected '=' after a key in a key/value pair"
  | keyPart => "Invalid initial character for a key part"
  | tableHead => "Expected ']' at the end of a table declaration"
  | itemHead => "Expected ']]' at the end of an array declaration"
  | declaredTwice key => "Cannot declare " ++ key.written ++ " twice"
  | redefined key => "Cannot redefine namespace " ++ key.written
  | immutable key => "Cannot mutate immutable namespace " ++ key.written
  | overwritten => "Cannot overwrite a value"
  | duplicate key => "Duplicate inline table key " ++ quoted key
  | value => "Invalid value"
  | array => "Unclosed array"
  | inlineTable => "Unclosed inline table"
  | expected delimiter => "Expected " ++ quoted delimiter
  | unterminated => "Unterminated string"
  | invalid c => "Found invalid character " ++ quoted (String.singleton c)
  | illegal c => "Illegal character " ++ quoted (String.singleton c)
  | backslash => "Unescaped '\\' in a string"
  | hexadecimal => "Invalid hex value"
  | notScalar => "Escaped character is not a Unicode scalar value"
  | date => "Invalid date or datetime"
  | oversized digits =>
    "Exceeds the limit (4300 digits) for integer string conversion: value has " ++
      toString digits ++ " digits; use sys.set_int_max_str_digits() to increase the limit"

/-- Whether the document breaks the rules of the format, rather than a limit of its reader. -/
def Fault.isMalformed : Fault → Bool
  | oversized _ => false
  | _ => true

/-- A fault with its place. -/
structure Problem where
  /-- What is wrong. -/
  fault : Fault
  /-- How many characters are left from the place on. -/
  left : Nat
deriving DecidableEq, Repr

/-- A document whose lines end by a line feed alone, also where a carriage return stands before it.
-/
def joinLineEnds : List Char → List Char
  | '\r' :: '\n' :: rest => '\n' :: joinLineEnds rest
  | c :: rest => c :: joinLineEnds rest
  | [] => []

namespace Problem

/-- The place of a problem in words. -/
def place (document : List Char) (p : Problem) : String :=
  if p.left = 0 then "end of document"
  else
    let document := joinLineEnds document
    let passed := document.take (document.length - p.left)
    "line " ++ toString (passed.count '\n' + 1) ++ ", column " ++
      toString ((passed.reverse.takeWhile (· ≠ '\n')).length + 1)

/-- The wording of a problem. A broken limit has no place. -/
def message (document : List Char) (p : Problem) : String :=
  if p.fault.isMalformed then p.fault.message ++ " (at " ++ p.place document ++ ")"
  else p.fault.message

end Problem

end Errata.Toml
