import Errata.Toml.Text

/-!
# Truth values, numbers, dates and times of a TOML document

The readers of this module look at the front of a text and answer `none` if it does not start with
what they read. Digits of a number may be grouped by single low lines. Of dates and times only the
form is checked, and that the day exists.

## Main definitions

* `Toml.moment?`: reads a date, a time, or both.
* `Toml.number?`: reads an integer or a float.
* `Toml.readScalar?`: reads a value without parts that is no string.
-/

namespace Errata.Toml

/-- What is left of a text once `tail`, its end, is left. -/
def Rest.ofTail (s tail : List Char) : Rest s :=
  ⟨s.drop (s.length - tail.length), by simp⟩

/-- What was read of a text once `tail`, its end, is left. -/
def writtenBefore (s tail : List Char) : String :=
  String.ofList (s.take (s.length - tail.length))

/-- The value of decimal digits. -/
def decimalValue (digits : List Char) : Nat :=
  digits.foldl (fun n c => 10 * n + (c.toNat - '0'.toNat)) 0

/-- Passes over a character that satisfies `p`. -/
def symbol? (p : Char → Bool) : List Char → Option (List Char)
  | c :: t => if p c then some t else none
  | [] => none

/-! ### Dates and times -/

/-- Reads a number of exactly `count` digits within bounds. -/
def field? (count low high : Nat) (s : List Char) : Option (Nat × List Char) :=
  let digits := s.take count
  let n := decimalValue digits
  if digits.length = count ∧ digits.all Char.isDigit ∧ low ≤ n ∧ n ≤ high then
    some (n, s.drop count)
  else none

/-- A day of the calendar, which may not exist. -/
structure Day where
  /-- The year. -/
  year : Nat
  /-- The month, counted from one. -/
  month : Nat
  /-- The day of the month, counted from one. -/
  day : Nat

/-- How many days a month has. -/
def daysOfMonth (year month : Nat) : Nat :=
  if month = 2 then
    if year % 4 = 0 ∧ (year % 100 ≠ 0 ∨ year % 400 = 0) then 29 else 28
  else if month ∈ [4, 6, 9, 11] then 30
  else 31

/-- Whether the day exists. -/
def Day.exists (d : Day) : Bool :=
  1 ≤ d.year && d.day ≤ daysOfMonth d.year d.month

/-- Reads a date. -/
def date? (s : List Char) : Option (Day × List Char) := do
  let (year, s) ← field? 4 0 9999 s
  let (month, s) ← field? 2 1 12 (← symbol? (· == '-') s)
  let (day, s) ← field? 2 1 31 (← symbol? (· == '-') s)
  return (⟨year, month, day⟩, s)

/-- Passes over the fraction of a second, if there is one. -/
def afterFraction : List Char → List Char
  | '.' :: c :: t => if c.isDigit then t.dropWhile Char.isDigit else '.' :: c :: t
  | s => s

/-- Passes over a time of day. -/
def afterTime? (s : List Char) : Option (List Char) := do
  let (_, s) ← field? 2 0 23 s
  let (_, s) ← field? 2 0 59 (← symbol? (· == ':') s)
  let (_, s) ← field? 2 0 59 (← symbol? (· == ':') s)
  return afterFraction s

/-- Passes over a distance from universal time, if there is one. -/
def afterOffset (s : List Char) : List Char :=
  let hours : Option (List Char) := do
    let (_, t) ← field? 2 0 23 (← symbol? (fun c => c == '+' || c == '-') s)
    let (_, t) ← field? 2 0 59 (← symbol? (· == ':') t)
    return t
  (symbol? (fun c => c == 'Z' || c == 'z') s <|> hours).getD s

/-- Reads a date, a time, or both. -/
def moment? (s : List Char) : Option (Except Fault Value × List Char) :=
  match date? s with
  | some (day, afterDay) =>
    let time := symbol? (fun c => c == 'T' || c == 't' || c == ' ') afterDay >>= afterTime?
    let tail := (time.map afterOffset).getD afterDay
    let written := writtenBefore s tail
    let value := if time.isSome then Value.dateTime written else Value.date written
    some (if day.exists then .ok value else .error .date, tail)
  | none => (afterTime? s).map fun tail => (.ok (.time (writtenBefore s tail)), tail)

/-! ### Numbers -/

/-- Reads digits that follow a digit, each of which may have a low line before it. -/
def moreDigits (isDigit : Char → Bool) : List Char → List Char × List Char
  | '_' :: c :: t =>
    if isDigit c then
      let (digits, tail) := moreDigits isDigit t
      (c :: digits, tail)
    else ([], '_' :: c :: t)
  | c :: t =>
    if isDigit c then
      let (digits, tail) := moreDigits isDigit t
      (c :: digits, tail)
    else ([], c :: t)
  | [] => ([], [])

/-- Passes over digits with low lines between them, if there are any. -/
def afterDigits? : List Char → Option (List Char)
  | c :: t => if c.isDigit then some (moreDigits Char.isDigit t).2 else none
  | [] => none

/-- Reads the digits of an integer in a base other than ten. -/
def inBase? (base : Nat) : List Char → Option (Value × List Char)
  | c :: t =>
    let isDigit (d : Char) : Bool := (hexDigit? d).any (· < base)
    if isDigit c then
      let (digits, tail) := moreDigits isDigit t
      let value := (c :: digits).foldl (fun n d => base * n + (hexDigit? d).getD 0) 0
      some (.integer value, tail)
    else none
  | [] => none

/-- Passes over the fraction and the exponent of a float, if there are any. -/
def afterFloatPart (s : List Char) : List Char :=
  let fraction := (symbol? (· == '.') s >>= afterDigits?).getD s
  let exponent := do
    let t ← symbol? (fun c => c == 'e' || c == 'E') fraction
    afterDigits? ((symbol? (fun c => c == '+' || c == '-') t).getD t)
  exponent.getD fraction

/-- The number of digits that a decimal integer may have. -/
def maxDigits : Nat := 4300

/-- Reads a number in base ten. The first of several digits is not zero. -/
def decimal? (s : List Char) : Option (Except Fault Value × List Char) := do
  let unsigned := (symbol? (fun c => c == '+' || c == '-') s).getD s
  let (digits, afterInteger) ←
    match unsigned with
    | '0' :: t => some (['0'], t)
    | c :: t =>
      if c.isDigit then
        let (digits, tail) := moreDigits Char.isDigit t
        some (c :: digits, tail)
      else none
    | [] => none
  let afterNumber := afterFloatPart afterInteger
  if afterNumber.length < afterInteger.length then
    return (.ok (.float (writtenBefore s afterNumber)), afterNumber)
  let size := decimalValue digits
  let value : Except Fault Value :=
    if maxDigits < digits.length then .error (.oversized digits.length)
    else .ok (.integer (if s.head? = some '-' then -(size : Int) else size))
  return (value, afterInteger)

/-- Reads an integer or a float. -/
def number? (s : List Char) : Option (Except Fault Value × List Char) :=
  let based :=
    match s with
    | '0' :: 'x' :: t => inBase? 16 t
    | '0' :: 'b' :: t => inBase? 2 t
    | '0' :: 'o' :: t => inBase? 8 t
    | _ => none
  (based.map fun (v, tail) => (.ok v, tail)) <|> decimal? s

/-! ### Words -/

/-- The words that are values, in the order in which they are tried. -/
def words : List (String × Value) :=
  [("true", .bool true), ("false", .bool false)] ++
    ["inf", "nan", "-inf", "+inf", "-nan", "+nan"].map fun w => (w, .float w)

/-- Reads a value that is a word. -/
def word? (s : List Char) : Option (Except Fault Value × List Char) :=
  (words.find? fun (w, _) => w.toList.isPrefixOf s).map fun (w, v) => (.ok v, s.drop w.length)

/-- Reads a value without parts that is no string. -/
def readScalar? (s : List Char) : Option (Except Problem (Reading s Value)) :=
  (moment? s <|> number? s <|> word? s).map fun (value, tail) =>
    match value with
    | .ok v => .ok (v, .ofTail s tail)
    | .error fault => fault.at s

end Errata.Toml
