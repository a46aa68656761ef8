import Errata.Toml.Value

/-!
# Strings and keys of a TOML document

The readers of this module take a text and give what they read together with what is left, which is
never longer than the text. A basic string stands between quotation marks and may hold escapes; a
literal string stands between apostrophes and may not. Either may run over several lines when its
delimiter is written three times.

## Main definitions

* `Toml.Rest`, `Toml.Tail`: what is left of a text.
* `Toml.skipComment`, `Toml.skipLines`: pass over what carries no meaning.
* `Toml.readString`: reads a string of any form.
* `Toml.readKey`: reads a dotted key.
-/

namespace Errata.Toml

/-- What is left of a text after something was read off its front. -/
abbrev Rest (s : List Char) := { rest : List Char // rest.length ≤ s.length }

/-- What is left of a text after at least one character was read off its front. -/
abbrev Tail (s : List Char) := { rest : List Char // rest.length < s.length }

/-- A tail is something that is left. -/
def Tail.rest {s : List Char} (t : Tail s) : Rest s :=
  ⟨t.1, Nat.le_of_lt t.2⟩

namespace Rest

/-- Everything is left. -/
def all (s : List Char) : Rest s :=
  ⟨s, Nat.le_refl _⟩

/-- What is left of a part is left of the whole. -/
def within {s t : List Char} (h : t.length ≤ s.length) (r : Rest t) : Rest s :=
  ⟨r.1, Nat.le_trans r.2 h⟩

/-- What is left of the tail is left of the text. -/
def afterHead {c : Char} {t : List Char} (r : Rest t) : Rest (c :: t) :=
  r.within (Nat.le_succ _)

/-- What is left without the characters at the front that satisfy `p`. -/
def dropWhile (p : Char → Bool) (s : List Char) : Rest s :=
  ⟨s.dropWhile p, (List.dropWhile_suffix p).length_le⟩

/-- What is left after the character `c`, if it stands next. -/
def next? {s : List Char} (c : Char) : Rest s → Option (Tail s)
  | ⟨d :: t, h⟩ => if d = c then some ⟨t, h⟩ else none
  | ⟨[], _⟩ => none

end Rest

/-- What a reader gives: what it read and what is left. -/
abbrev Reading (s : List Char) (α : Type) := α × Rest s

/-- A fault at the front of a text. -/
def Fault.at {α : Type} (fault : Fault) (s : List Char) : Except Problem α :=
  .error ⟨fault, s.length⟩

/-! ### Characters -/

/-- Whether the character is a blank within a line. -/
def isSpace (c : Char) : Bool :=
  c == ' ' || c == '\t'

/-- Whether the character is a blank, or ends a line. -/
def isSpaceOrNewline (c : Char) : Bool :=
  isSpace c || c == '\n'

/-- Whether the character must not stand in comments and strings. The end of a line may stand in
strings that run over several lines. -/
def isRefused (multiline : Bool) (c : Char) : Bool :=
  (c.toNat < 0x20 || c.toNat == 0x7f) && c != '\t' && !(multiline && c == '\n')

/-- Whether the character may stand in a key without quotes. -/
def isBareKey (c : Char) : Bool :=
  c.isAlphanum || c == '-' || c == '_'

/-! ### Blanks and comments -/

/-- Passes over blanks within a line. -/
def skipSpaces (s : List Char) : Rest s :=
  .dropWhile isSpace s

/-- Passes over the text of a comment, up to the end of its line. -/
def skipCommentText (s : List Char) : Except Problem (Rest s) :=
  match Rest.dropWhile (!isRefused false ·) s with
  | ⟨c :: t, h⟩ => if c = '\n' then .ok ⟨c :: t, h⟩ else (Fault.invalid c).at (c :: t)
  | ⟨[], h⟩ => .ok ⟨[], h⟩

/-- Passes over a comment, if there is one. -/
def skipComment : (s : List Char) → Except Problem (Rest s)
  | '#' :: t => return (← skipCommentText t).afterHead
  | s => return .all s

/-- Passes over blanks, ends of lines and comments. -/
def skipLines : (s : List Char) → Except Problem (Rest s)
  | [] => .ok (.all [])
  | c :: t =>
    if isSpaceOrNewline c then do
      return (← skipLines t).afterHead
    else if c = '#' then do
      let after ← skipCommentText t
      return ((← skipLines after.1).within after.2).afterHead
    else .ok (.all (c :: t))
termination_by s => s.length
decreasing_by
  · exact Nat.lt_succ_self _
  · exact Nat.lt_succ_of_le after.2

/-! ### Escapes -/

/-- The value of a hexadecimal digit. -/
def hexDigit? (c : Char) : Option Nat :=
  if c.isDigit then some (c.toNat - '0'.toNat)
  else if 'a' ≤ c ∧ c ≤ 'f' then some (c.toNat - 'a'.toNat + 10)
  else if 'A' ≤ c ∧ c ≤ 'F' then some (c.toNat - 'A'.toNat + 10)
  else none

/-- Reads the character whose number is written with `count` digits. -/
def readNumbered (count : Nat) (s : List Char) : Except Problem (Reading s Char) :=
  let digits := s.take count
  match digits.mapM hexDigit? with
  | some values =>
    let number := values.foldl (fun n d => 16 * n + d) 0
    let rest := s.drop count
    if digits.length ≠ count then Fault.hexadecimal.at s
    else if number.isValidChar then .ok (Char.ofNat number, ⟨rest, by simp [rest]⟩)
    else Fault.notScalar.at rest
  | none => Fault.hexadecimal.at s

/-- The character that a letter after a backslash stands for. -/
def escapeLetter? : Char → Option Char
  | 'b' => some '\x08'
  | 't' => some '\t'
  | 'n' => some '\n'
  | 'f' => some '\x0c'
  | 'r' => some '\r'
  | '"' => some '"'
  | '\\' => some '\\'
  | _ => none

/-- Reads what follows the backslash at the end of a line: nothing but blanks may stand before the
end of the line, and the blanks at the start of the next lines are passed over. -/
def skipLineEnd (s : List Char) : Except Problem (Rest s) :=
  match skipSpaces s with
  | ⟨'\n' :: t, h⟩ =>
    .ok ((Rest.dropWhile isSpaceOrNewline t).within (Nat.le_trans (Nat.le_succ _) h))
  | ⟨c :: t, _⟩ => Fault.backslash.at (c :: t)
  | ⟨[], h⟩ => .ok ⟨[], h⟩

/-- Reads an escape after its backslash. -/
def readEscape (multiline : Bool) : (s : List Char) → Except Problem (Reading s (List Char))
  | [] => Fault.backslash.at []
  | 'u' :: t => do
    let (c, rest) ← readNumbered 4 t
    return ([c], rest.afterHead)
  | 'U' :: t => do
    let (c, rest) ← readNumbered 8 t
    return ([c], rest.afterHead)
  | c :: t =>
    if multiline && isSpaceOrNewline c then do
      return ([], ← skipLineEnd (c :: t))
    else
      match escapeLetter? c with
      | some d => .ok ([d], (Rest.all t).afterHead)
      | none => Fault.backslash.at t

/-! ### Strings -/

/-- Reads a basic string after its opening delimiter. -/
def readBasic (multiline : Bool) : (s : List Char) → Except Problem (Reading s (List Char))
  | [] => Fault.unterminated.at []
  | '"' :: '"' :: '"' :: t =>
    if multiline then .ok ([], (Rest.all t).afterHead.afterHead.afterHead)
    else .ok ([], (Rest.all ('"' :: '"' :: t)).afterHead)
  | '"' :: t =>
    if multiline then do
      let (text, rest) ← readBasic multiline t
      return ('"' :: text, rest.afterHead)
    else .ok ([], (Rest.all t).afterHead)
  | '\\' :: t => do
    let (chars, after) ← readEscape multiline t
    let (text, rest) ← readBasic multiline after.1
    return (chars ++ text, (rest.within after.2).afterHead)
  | c :: t =>
    if isRefused multiline c then (Fault.illegal c).at (c :: t)
    else do
      let (text, rest) ← readBasic multiline t
      return (c :: text, rest.afterHead)
termination_by s => s.length
decreasing_by
  all_goals simp only [List.length_cons]
  · exact Nat.lt_succ_self _
  · exact Nat.lt_succ_of_le after.2
  · exact Nat.lt_succ_self _

/-- What stands before the first occurrence of a delimiter, and what stands after it. -/
def splitAt? (delimiter : List Char) : (s : List Char) → Option (List Char × Rest s)
  | [] => if delimiter.isEmpty then some ([], .all []) else none
  | c :: t =>
    if delimiter.isPrefixOf (c :: t) then
      some ([], ⟨(c :: t).drop delimiter.length, by simp⟩)
    else
      (splitAt? delimiter t).map fun (before, rest) => (c :: before, rest.afterHead)

/-- Reads a literal string after its opening delimiter. -/
def readLiteral (multiline : Bool) (s : List Char) : Except Problem (Reading s (List Char)) :=
  let delimiter := if multiline then "'''" else "'"
  match splitAt? delimiter.toList s with
  | none => (Fault.expected delimiter).at []
  | some (text, rest) =>
    match text.find? (isRefused multiline), s.dropWhile (!isRefused multiline ·) with
    | some c, wrong => (Fault.invalid c).at wrong
    | none, _ => .ok (text, rest)

/-- Passes over the end of the line that may follow the opening delimiter of a string that runs over
several lines. -/
def skipFirstNewline : (s : List Char) → Rest s
  | '\n' :: t => (Rest.all t).afterHead
  | s => .all s

/-- Reads up to two more delimiters, which belong to the text of the string before them. -/
def readExtra (delimiter : Char) : (s : List Char) → List Char × Rest s
  | c :: d :: t =>
    if c = delimiter then
      if d = delimiter then ([c, d], (Rest.all t).afterHead.afterHead)
      else ([c], (Rest.all (d :: t)).afterHead)
    else ([], .all _)
  | [c] => if c = delimiter then ([c], (Rest.all []).afterHead) else ([], .all _)
  | [] => ([], .all [])

/-- Reads a string that runs over several lines, after its opening delimiter. -/
def readMultiline (delimiter : Char)
    (reader : (s : List Char) → Except Problem (Reading s (List Char))) (s : List Char) :
    Except Problem (Reading s (List Char)) := do
  let start := skipFirstNewline s
  let (text, after) ← reader start.1
  let (extra, rest) := readExtra delimiter after.1
  return (text ++ extra, (rest.within after.2).within start.2)

/-- Reads a string of any form, if the text starts with a delimiter. -/
def readString? : (s : List Char) → Option (Except Problem (Reading s (List Char)))
  | '"' :: '"' :: '"' :: t => some do
    let (text, rest) ← readMultiline '"' (readBasic true) t
    return (text, rest.afterHead.afterHead.afterHead)
  | '"' :: t => some do
    let (text, rest) ← readBasic false t
    return (text, rest.afterHead)
  | '\'' :: '\'' :: '\'' :: t => some do
    let (text, rest) ← readMultiline '\'' (readLiteral true) t
    return (text, rest.afterHead.afterHead.afterHead)
  | '\'' :: t => some do
    let (text, rest) ← readLiteral false t
    return (text, rest.afterHead)
  | _ => none

/-! ### Keys -/

/-- Reads a part of a dotted key. -/
def readKeyPart : (s : List Char) → Except Problem (Reading s String)
  | '\'' :: t => do
    let (text, rest) ← readLiteral false t
    return (String.ofList text, rest.afterHead)
  | '"' :: t => do
    let (text, rest) ← readBasic false t
    return (String.ofList text, rest.afterHead)
  | c :: t =>
    if isBareKey c then
      .ok (String.ofList (c :: t.takeWhile isBareKey), (Rest.dropWhile isBareKey t).afterHead)
    else Fault.keyPart.at (c :: t)
  | [] => Fault.keyPart.at []

/-- Reads a dotted key and the blanks after it. -/
def readKey (s : List Char) : Except Problem (Reading s Key) := do
  let (part, after) ← readKeyPart s
  match (skipSpaces after.1).next? '.' with
  | some t =>
    let start := skipSpaces t.1
    let (key, rest) ← readKey start.1
    return (part :: key, ((rest.within start.2).within (Nat.le_of_lt t.2)).within after.2)
  | none => return ([part], (skipSpaces after.1).within after.2)
termination_by s.length
decreasing_by
  exact Nat.lt_of_le_of_lt start.2 (Nat.lt_of_lt_of_le t.2 after.2)

end Errata.Toml
