import Errata.Diagnostic.Span

/-!
# Terminals and tokens

The terminals of the declaration grammar and the tokens found for them in a source text. A token
records where it starts and stops, so that messages can point at it and a type can be copied from
the source as it was written.
-/

namespace Errata.Syntax

/-- The terminals of the declaration grammar. -/
inductive Terminal where
  /-- A name. -/
  | name
  /-- A string literal. -/
  | string
  /-- A number. -/
  | number
  /-- The dots before a relative module name. -/
  | relative
  /-- The word `import`. -/
  | importWord
  /-- The word `struct`. -/
  | structWord
  /-- The word `union`. -/
  | unionWord
  /-- The word `enum`. -/
  | enumWord
  /-- The word `from`. -/
  | fromWord
  /-- Three dots. -/
  | ellipsis
  /-- The word `pub`. -/
  | visibility
  /-- The opening of an inner attribute. -/
  | innerOpen
  /-- The word `as`. -/
  | asWord
  /-- The opening of an outer attribute. -/
  | outerOpen
  /-- Two colons. -/
  | pathSeparator
  /-- A colon. -/
  | colon
  /-- A comma. -/
  | comma
  /-- A dot. -/
  | dot
  /-- An equals sign. -/
  | equal
  /-- An opening brace. -/
  | leftBrace
  /-- An opening parenthesis. -/
  | leftParen
  /-- An opening bracket. -/
  | leftBracket
  /-- A closing brace. -/
  | rightBrace
  /-- A closing parenthesis. -/
  | rightParen
  /-- A closing bracket. -/
  | rightBracket
  /-- A semicolon. -/
  | semicolon
  /-- A vertical bar. -/
  | bar
deriving DecidableEq, Repr

namespace Terminal

/-- The label of a terminal in messages and trees. -/
def label : Terminal → String
  | name => "NAME"
  | string => "STRING"
  | number => "NUMBER"
  | relative => "RELATIVE"
  | importWord => "IMPORT"
  | structWord => "STRUCT"
  | unionWord => "UNION"
  | enumWord => "ENUM"
  | fromWord => "FROM"
  | ellipsis => "ELLIPSIS"
  | visibility => "VISIBILITY"
  | innerOpen => "__ANON_1"
  | asWord => "AS"
  | outerOpen => "__ANON_0"
  | pathSeparator => "__ANON_2"
  | colon => "COLON"
  | comma => "COMMA"
  | dot => "DOT"
  | equal => "EQUAL"
  | leftBrace => "LBRACE"
  | leftParen => "LPAR"
  | leftBracket => "LSQB"
  | rightBrace => "RBRACE"
  | rightParen => "RPAR"
  | rightBracket => "RSQB"
  | semicolon => "SEMICOLON"
  | bar => "VBAR"

/-- The label of a terminal, or of the end of the input. -/
def labelOrEnd : Option Terminal → String
  | some t => t.label
  | none => "$END"

/-- All terminals in the order in which the scanner tries them. -/
def all : List Terminal :=
  [name, string, number, relative, importWord, structWord, unionWord, enumWord, fromWord,
    ellipsis, visibility, innerOpen, asWord, outerOpen, pathSeparator, colon, comma, dot, equal,
    leftBrace, leftParen, leftBracket, rightBrace, rightParen, rightBracket, semicolon, bar]

/-- The text of a terminal that has a single one. -/
def fixedText? : Terminal → Option (List Char)
  | name | string | number | relative => none
  | importWord => some ['i', 'm', 'p', 'o', 'r', 't']
  | structWord => some ['s', 't', 'r', 'u', 'c', 't']
  | unionWord => some ['u', 'n', 'i', 'o', 'n']
  | enumWord => some ['e', 'n', 'u', 'm']
  | fromWord => some ['f', 'r', 'o', 'm']
  | ellipsis => some ['.', '.', '.']
  | visibility => some ['p', 'u', 'b']
  | innerOpen => some ['#', '!', '[']
  | asWord => some ['a', 's']
  | outerOpen => some ['#', '[']
  | pathSeparator => some [':', ':']
  | colon => some [':']
  | comma => some [',']
  | dot => some ['.']
  | equal => some ['=']
  | leftBrace => some ['{']
  | leftParen => some ['(']
  | leftBracket => some ['[']
  | rightBrace => some ['}']
  | rightParen => some [')']
  | rightBracket => some [']']
  | semicolon => some [';']
  | bar => some ['|']

/-- The terminal whose lexemes include the fixed text of this one. Where both are possible, the
text is found as a lexeme of the wider terminal first. -/
def wider? : Terminal → Option Terminal
  | importWord | structWord | unionWord | enumWord | fromWord | visibility | asWord => some name
  | ellipsis | dot => some relative
  | _ => none

/-- Whether tokens of the terminal are kept in a parse tree. -/
def isKept : Terminal → Bool
  | name | string | number | relative | structWord | unionWord | enumWord | ellipsis
  | visibility => true
  | _ => false

end Terminal

/-- A position in a source text. -/
structure Position where
  /-- How many characters precede it. -/
  offset : Nat := 0
  /-- Its line, counting from one. -/
  line : Nat := 1
  /-- Its column, counting from one. -/
  column : Nat := 1
deriving DecidableEq, Repr

/-- The position after a character. -/
def Position.next (p : Position) (c : Char) : Position :=
  if c = '\n' then ⟨p.offset + 1, p.line + 1, 1⟩ else ⟨p.offset + 1, p.line, p.column + 1⟩

/-- The position after some text. -/
def Position.advance (p : Position) (text : List Char) : Position :=
  text.foldl Position.next p

/-- A stretch of source text from a first to a last position. -/
structure Extent where
  /-- The position of the first character. -/
  start : Position
  /-- The position after the last character. -/
  stop : Position
deriving DecidableEq, Repr

/-- The lines and columns of an extent. -/
def Extent.span (e : Extent) : Span :=
  ⟨e.start.line, e.start.column, e.stop.line, e.stop.column⟩

/-- From the start of the first to the stop of the second. -/
def Extent.to (a b : Extent) : Extent :=
  ⟨a.start, b.stop⟩

/-- A token of a source text. -/
structure Token where
  /-- The terminal it was found for. -/
  terminal : Terminal
  /-- Its text. -/
  text : List Char
  /-- Where it stands. -/
  extent : Extent
deriving DecidableEq, Repr

/-- The lines and columns of a token. -/
def Token.span (t : Token) : Span :=
  t.extent.span

end Errata.Syntax
