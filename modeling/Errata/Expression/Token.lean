import Errata.Expression.Number
import Errata.Name
import Errata.Text.Lines
import Errata.Unicode.Identifier
import Errata.Unicode.Printable

/-!
# Tokens of expressions

The arguments of placeholders are Python expressions. This module cuts an expression into tokens.
Cutting never fails as a whole: an expression that cannot be cut ends in a token that says why, and
the parser meets that token only if it gets that far.

## Main definitions

* `Expression.Token`: a token, with its line and the number of brackets open after it.
* `Expression.tokens`: the tokens of an expression.
-/

namespace Errata.Expression

/-- What a token is. -/
inductive Lexeme where
  /-- A name that is not a keyword. -/
  | name (text : String)
  /-- A keyword. -/
  | keyword (text : String)
  /-- A number. -/
  | number
  /-- A number of which the value cannot be computed, and how many digits it has. -/
  | longNumber (digits : Nat)
  /-- A string: the letters before its opening quote and the text between its quotes. -/
  | string (letters body : List Char)
  /-- An operator or a delimiter. -/
  | op (text : String)
  /-- The end of a line outside brackets. -/
  | newline
  /-- A line that is indented more than the one before. -/
  | indent
  /-- A line that is indented less than the one before. -/
  | dedent
  /-- The end of the expression. -/
  | atEnd
  /-- A text that is no token, which is a fault of the expression in any case. -/
  | fault (reason : String)
  /-- A text that is no token, which is a fault only if the parser needs a token there. -/
  | deferredFault (reason : String)
  /-- The end of the expression inside a bracket that was opened on the given line. -/
  | unclosed (bracket : Char) (line : Nat)
deriving DecidableEq, Repr

/-- A token of an expression. -/
structure Token where
  /-- What it is. -/
  lexeme : Lexeme
  /-- The line it starts on. -/
  line : Nat
  /-- How many brackets are open after it. -/
  depth : Nat
deriving DecidableEq, Repr

/-! ### Words and strings -/

/-- The name of a code point, for messages. -/
def codePointName (c : Char) : String :=
  let digits := (Nat.toDigits 16 c.toNat).map Char.toUpper
  "U+" ++ String.ofList (List.replicate (4 - digits.length) '0' ++ digits)

/-- The fault of a character that is not allowed in a name. -/
def strayCharacter (c : Char) : String :=
  if Unicode.isPrintable c then
    "invalid character '" ++ String.singleton c ++ "' (" ++ codePointName c ++ ")"
  else
    "invalid non-printable character " ++ codePointName c

/-- The token a word makes: a keyword, a name, or a fault if a character in it is not allowed. -/
def wordLexeme (word : List Char) : Lexeme :=
  let stray :=
    match word with
    | c :: rest =>
      if Unicode.isIdentifierStart c then rest.find? fun d => !Unicode.isIdentifierContinue d
      else some c
    | [] => none
  match stray with
  | some c => .fault (strayCharacter c)
  | none =>
    let text := String.ofList word
    if isKeyword text then .keyword text else .name text

/-- Whether the letters may stand before the opening quote of a string. -/
def isStringPrefix (letters : List Char) : Bool :=
  [[], ['b'], ['r'], ['u'], ['f'], ['b', 'r'], ['r', 'b'], ['f', 'r'], ['r', 'f']].contains
    (letters.map Char.toLower)

/-- The body of a string and the text after its closing quotes, of which there are three or one, or
`none` if the string does not end. A backslash takes the next character along. -/
def stringBody (quote : Char) (triple : Bool) : List Char → Option (List Char × List Char)
  | [] => none
  | ['\\'] => none
  | '\\' :: c :: rest =>
    (stringBody quote triple rest).map fun (body, rest) => ('\\' :: c :: body, rest)
  | c :: rest =>
    if triple then
      if c = quote ∧ [quote, quote].isPrefixOf rest then some ([], rest.drop 2)
      else (stringBody quote triple rest).map fun (body, rest) => (c :: body, rest)
    else if c = quote then some ([], rest)
    else if c = '\n' then none
    else (stringBody quote triple rest).map fun (body, rest) => (c :: body, rest)

/-- The text from the opening quote of a string without an end to where the end is missed. -/
def unterminatedPart : List Char → List Char
  | '\\' :: c :: rest => '\\' :: c :: unterminatedPart rest
  | c :: rest => if c = '\n' then [] else c :: unterminatedPart rest
  | [] => []

/-- How many lines end in a text. -/
def lineEnds (text : List Char) : Nat :=
  text.count '\n'

/-- The string that starts with a quote, and the text after it, or its fault. `line` is the line it
starts on. -/
def scanString (line : Nat) (quote : Char) (rest : List Char) :
    Except String (List Char × List Char) :=
  if [quote, quote].isPrefixOf rest then
    match stringBody quote true (rest.drop 2) with
    | some parts => .ok parts
    | none =>
      .error ("unterminated triple-quoted string literal (detected at line " ++
        toString (line + lineEnds rest) ++ ")")
  else
    match stringBody quote false rest with
    | some parts => .ok parts
    | none =>
      .error ("unterminated string literal (detected at line " ++
        toString (line + lineEnds (unterminatedPart rest)) ++ ")")

/-- The token that a number makes. -/
def numberLexeme (text : List Char) : Lexeme :=
  match Number.excess? text with
  | some digits => .longNumber digits
  | none => .number

/-! ### Operators -/

/-- The operators of three and of two characters, the longer ones first. -/
def longOperators : List String :=
  ["**=", "//=", "<<=", ">>=", "...", "!=", "%=", "&=", "**", "*=", "+=", "-=", "->", "//", "/=",
    ":=", "<<", "<=", "<>", "==", ">=", ">>", "@=", "^=", "|="]

/-- The closing bracket for an opening one. -/
def closing? : Char → Option Char
  | '(' => some ')'
  | '[' => some ']'
  | '{' => some '}'
  | _ => none

/-- How many brackets may be open at a time. -/
def maxDepth : Nat := 200

/-- Where the cutting of an expression stands. -/
structure Cursor where
  /-- The rest of the expression. -/
  rest : List Char
  /-- The line it starts on. -/
  line : Nat
  /-- The brackets open, the last one first, and their lines. -/
  brackets : List (Char × Nat)
  /-- The indentations in force outside brackets, the deepest first. -/
  indents : List Nat

/-- The cursor after some text. -/
def Cursor.after (s : Cursor) (text : List Char) : Cursor :=
  { s with rest := s.rest.drop text.length, line := s.line + lineEnds text }

/-- The token at a cursor. -/
def Cursor.token (s : Cursor) (lexeme : Lexeme) : Token :=
  ⟨lexeme, s.line, s.brackets.length⟩

/-- A single character as an operator, and the brackets open after it. -/
def single (s : Cursor) (c : Char) : Lexeme × List (Char × Nat) :=
  match closing? c with
  | some _ =>
    if s.brackets.length ≥ maxDepth then (.fault "too many nested parentheses", s.brackets)
    else (.op (String.singleton c), (c, s.line) :: s.brackets)
  | none =>
    if c = ')' ∨ c = ']' ∨ c = '}' then
      match s.brackets with
      | [] => (.fault ("unmatched '" ++ String.singleton c ++ "'"), [])
      | (opening, line) :: outer =>
        if closing? opening = some c then (.op (String.singleton c), outer)
        else
          let mismatch := "closing parenthesis '" ++ String.singleton c ++
            "' does not match opening parenthesis '" ++ String.singleton opening ++ "'"
          (.fault (if line = s.line then mismatch
            else mismatch ++ " on line " ++ toString line), outer)
    else if Unicode.isPrintable c then (.op (String.singleton c), s.brackets)
    else (.fault ("invalid non-printable character " ++ codePointName c), s.brackets)

/-! ### Lines -/

/-- The column of the first character of a line that is no blank, and the rest from there on. A line
that is continued after its blanks has the column of its first part, unless that is zero. -/
def indentation (column continued : Nat) : List Char → Nat × List Char
  | ' ' :: rest => indentation (column + 1) continued rest
  | '\t' :: rest => indentation ((column / 8 + 1) * 8) continued rest
  | '\x0c' :: rest => indentation 0 continued rest
  | '\\' :: '\n' :: rest =>
    indentation column (if continued = 0 then column else continued) rest
  | rest => (if continued = 0 then column else continued, rest)

/-- The text after the blanks between tokens. -/
def skipBlanks : List Char → List Char
  | [] => []
  | c :: rest => if c = ' ' ∨ c = '\t' ∨ c = '\x0c' then skipBlanks rest else c :: rest

/-- The tokens by which a line starts: an indentation, or the ends of indentations. -/
def indentTokens (column : Nat) (s : Cursor) : List Token × List Nat :=
  match s.indents with
  | [] => if column > 0 then ([s.token .indent], [column]) else ([], [])
  | deepest :: _ =>
    if column > deepest then ([s.token .indent], column :: s.indents)
    else if column = deepest then ([], s.indents)
    else
      let kept := s.indents.dropWhile (column < ·)
      let ended := s.indents.takeWhile (column < ·)
      if kept.headD 0 = column then (ended.map fun _ => s.token .dedent, kept)
      else
        ([s.token (.deferredFault "unindent does not match any outer indentation level")], kept)

/-- The tokens of the rest of an expression. Each step takes a character away, so that as many steps
as there are characters, and one more, are enough. -/
def tokensFrom (fuel : Nat) (atLineStart : Bool) (s : Cursor) : List Token :=
  match fuel with
  | 0 => []
  | fuel + 1 =>
    let (column, rest) :=
      if atLineStart then indentation 0 0 s.rest else (0, skipBlanks s.rest)
    let s := s.after (s.rest.take (s.rest.length - rest.length))
    let isBlankLine := match rest with
      | c :: _ => c == '#' || c == '\n'
      | [] => false
    let (starts, indents) :=
      if atLineStart && !isBlankLine && s.brackets.isEmpty then indentTokens column s
      else ([], s.indents)
    let s := { s with indents }
    starts ++
      match rest with
      | [] =>
        match s.brackets with
        | [] => [s.token .atEnd]
        | (bracket, line) :: _ => [s.token (.unclosed bracket line)]
      | '#' :: _ => tokensFrom fuel atLineStart (s.after (rest.takeWhile (· ≠ '\n')))
      | '\n' :: _ =>
        let more := tokensFrom fuel true (s.after ['\n'])
        if (atLineStart && isBlankLine) || !s.brackets.isEmpty then more
        else s.token .newline :: more
      | '\\' :: '\n' :: _ => tokensFrom fuel false (s.after ['\\', '\n'])
      | '\\' :: _ =>
        [s.token (.deferredFault "unexpected character after line continuation character")]
      | c :: after =>
        let word := rest.takeWhile Number.isWordChar
        let quoteAfter := match rest.drop word.length with
          | q :: more => if (q = '"' ∨ q = '\'') ∧ isStringPrefix word then some (q, more) else none
          | [] => none
        match quoteAfter with
        | some (quote, more) =>
          match scanString s.line quote more with
          | .error reason => [s.token (.fault reason)]
          | .ok (body, behind) =>
            s.token (.string word body) ::
              tokensFrom fuel false (s.after (rest.take (rest.length - behind.length)))
        | none =>
          if Number.isDigit c || (c == '.' && after.head?.any Number.isDigit) then
            match if c = '.' then Number.fraction after else Number.scan c after with
            | .error reason => [s.token (.fault reason)]
            | .ok behind =>
              s.token (numberLexeme (rest.take (rest.length - behind.length))) ::
                tokensFrom fuel false { s with rest := behind }
          else if Number.isWordChar c then
            match wordLexeme word with
            | .fault reason => [s.token (.fault reason)]
            | lexeme => s.token lexeme :: tokensFrom fuel false (s.after word)
          else
            match longOperators.find? fun operator => operator.toList.isPrefixOf rest with
            | some operator =>
              s.token (.op operator) :: tokensFrom fuel false (s.after operator.toList)
            | none =>
              match single s c with
              | (.fault reason, _) => [s.token (.fault reason)]
              | (lexeme, brackets) =>
                let s := { s with brackets }
                s.token lexeme :: tokensFrom fuel false (s.after [c])

/-- The tokens of an expression. -/
def tokens (expression : List Char) : List Token :=
  let text := universalNewlines expression
  tokensFrom (text.length + 1) true ⟨text, 1, [], []⟩

end Errata.Expression
