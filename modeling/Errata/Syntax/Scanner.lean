import Errata.Syntax.Token

/-!
# Scanning

The scanner knows which terminals the parser can use next and looks for those only. Blanks and
comments before a token are skipped. The first terminal in the fixed order that matches wins. A
keyword is looked for by itself only where no name can stand; elsewhere it is found as a name
first. So `enumE` is a keyword and a name where a declaration starts.

## Main definitions

* `Terminal.lexeme?`: the lexeme of a terminal at the start of a text.
* `skipTrivia`: the text after blanks and comments.
* `scan`: the next token for a list of terminals.
-/

namespace Errata.Syntax

/-- Splits a text after its longest initial part that satisfies `p`. -/
def splitWhile (p : Char → Bool) (chars : List Char) : List Char × List Char :=
  (chars.takeWhile p, chars.dropWhile p)

/-- Splits a text after its longest initial part that satisfies `p`, if that part is not empty. -/
def spanNonempty (p : Char → Bool) (chars : List Char) : Option (List Char × List Char) :=
  if chars.takeWhile p = [] then none else some (splitWhile p chars)

/-- Splits a text after the given text, if it starts with it. -/
def splitPrefix? : List Char → List Char → Option (List Char × List Char)
  | [], chars => some ([], chars)
  | _ :: _, [] => none
  | c :: fixed, d :: chars =>
    if c = d then (splitPrefix? fixed chars).map fun (taken, rest) => (c :: taken, rest)
    else none

/-- Whether the character may start a name. -/
def isNameStart (c : Char) : Bool :=
  c.isAlpha || c == '_'

/-- Whether the character may stand in a name. -/
def isNameChar (c : Char) : Bool :=
  c.isAlphanum || c == '_'

/-- The body of a string literal with its closing quote, and the rest. A backslash takes the next
character along; neither may be a line feed. -/
def stringBody : List Char → Option (List Char × List Char)
  | [] => none
  | '"' :: rest => some (['"'], rest)
  | '\\' :: c :: rest =>
    if c = '\n' then none
    else (stringBody rest).map fun (body, rest) => ('\\' :: c :: body, rest)
  | c :: rest =>
    if c = '\n' ∨ c = '\\' then none
    else (stringBody rest).map fun (body, rest) => (c :: body, rest)

/-- The lexeme of a terminal at the start of a text, and the rest. -/
def Terminal.lexeme? (t : Terminal) (chars : List Char) : Option (List Char × List Char) :=
  match t with
  | name =>
    match chars with
    | c :: _ => if isNameStart c then some (splitWhile isNameChar chars) else none
    | [] => none
  | string =>
    match chars with
    | '"' :: rest => (stringBody rest).map fun (body, rest) => ('"' :: body, rest)
    | _ => none
  | number => spanNonempty (fun c => '0' ≤ c && c ≤ '9') chars
  | relative => spanNonempty (· == '.') chars
  | t => t.fixedText?.bind fun fixed => splitPrefix? fixed chars

/-! ### Blanks and comments -/

/-- Whether the character is a blank between tokens. -/
def isSpacing (c : Char) : Bool :=
  c == ' ' || c == '\t' || c == '\x0c' || c == '\r' || c == '\n'

/-- The rest of a block comment with its closing mark, and the text after it. -/
def commentBody : List Char → Option (List Char × List Char)
  | [] => none
  | '*' :: '/' :: rest => some (['*', '/'], rest)
  | c :: rest => (commentBody rest).map fun (body, rest) => (c :: body, rest)

/-- The run of blanks or the comment a text starts with, and the rest. -/
def trivia? : List Char → Option (List Char × List Char)
  | '/' :: '/' :: rest =>
    let (body, rest) := splitWhile (· ≠ '\n') rest
    some ('/' :: '/' :: body, rest)
  | '/' :: '*' :: rest => (commentBody rest).map fun (body, rest) => ('/' :: '*' :: body, rest)
  | chars => spanNonempty isSpacing chars

/-- The position and the text after blanks and comments. The first `pending` characters are known
to belong to them. -/
def skipFrom (pending : Nat) (position : Position) : List Char → Position × List Char
  | [] => (position, [])
  | c :: rest =>
    match pending with
    | pending + 1 => skipFrom pending (position.next c) rest
    | 0 =>
      match trivia? (c :: rest) with
      | some (_ :: taken, _) => skipFrom taken.length (position.next c) rest
      | _ => (position, c :: rest)

/-- The position and the text after blanks and comments. -/
def skipTrivia (position : Position) (chars : List Char) : Position × List Char :=
  skipFrom 0 position chars

/-! ### Tokens -/

/-- The terminals that are tried for themselves: those not covered by a wider one. -/
def tried (accepted : List Terminal) : List Terminal :=
  Terminal.all.filter fun t =>
    t ∈ accepted && !(t.wider?.any fun w => w ∈ accepted)

/-- The terminal of a lexeme found for `t`: one that `t` is wider than, if the lexeme is its text.
-/
def narrowed (accepted : List Terminal) (t : Terminal) (lexeme : List Char) : Terminal :=
  (accepted.find? fun s => s.wider? = some t && s.fixedText? = some lexeme).getD t

/-- The first token at the start of a text for one of the terminals, and the text after it. -/
def firstToken (accepted : List Terminal) (position : Position) (chars : List Char) :
    Option (Token × List Char) :=
  (tried accepted).findSome? fun t =>
    (t.lexeme? chars).map fun (lexeme, rest) =>
      (⟨narrowed accepted t lexeme, lexeme, position, position.advance lexeme⟩, rest)

/-- What the scanner finds. -/
inductive Scan where
  /-- A token, and the text after it. -/
  | token (t : Token) (rest : List Char)
  /-- Nothing but blanks and comments. -/
  | atEnd
  /-- A token of a terminal that cannot stand here. -/
  | misplaced (t : Token)
  /-- A character that starts no token at all. -/
  | stray (position : Position) (c : Char)

/-- Scans for one of the terminals. -/
def scan (accepted : List Terminal) (position : Position) (chars : List Char) : Scan :=
  match skipTrivia position chars with
  | (_, []) => .atEnd
  | (position, c :: rest) =>
    match firstToken accepted position (c :: rest) with
    | some (t, rest) => .token t rest
    | none =>
      match firstToken Terminal.all position (c :: rest) with
      | some (t, _) => .misplaced t
      | none => .stray position c

end Errata.Syntax
