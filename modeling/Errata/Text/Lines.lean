import Errata.Text.CodePoint
import Errata.Unicode.Ranges

/-!
# White space and lines

Text is stripped of white space, and cut at white space or at the ends of lines.
-/

/-! ## White space

`Text.strip` takes white space off both ends; `words` cuts a list of characters at every run of
white space and drops the runs.
-/

namespace Errata

/-- Whether the code point is white space. -/
def CodePoint.isBlank : CodePoint → Bool
  | .char c => Unicode.isBlank c
  | .surrogate _ => false

/-- The list without the elements that satisfy `p` at either end. -/
def stripBy {α : Type} (p : α → Bool) (l : List α) : List α :=
  ((l.dropWhile p).reverse.dropWhile p).reverse

/-- The text without the white space at either end. -/
def Text.strip (text : Text) : Text :=
  stripBy CodePoint.isBlank text

/-- The longest runs of characters that are not white space. -/
def words (chars : List Char) : List (List Char) :=
  (chars.splitBy fun a b => Unicode.isBlank a == Unicode.isBlank b).filter
    fun run => !run.any Unicode.isBlank

end Errata

/-! ## Lines

Two ways to cut text into lines. Positions in source text count the line feed alone as the end of
a line. A report cuts the source at every character that ends a line in the wide sense, a carriage
return with a following line feed counting once.
-/

namespace Errata

/-- Whether the character ends a line in the wide sense. -/
def isLineEnd (c : Char) : Bool :=
  c == '\n' || c == '\r' || c == '\x0b' || c == '\x0c' || c == '\x1c' || c == '\x1d' ||
    c == '\x1e' || c == '\x85' || c == '\u2028' || c == '\u2029'

/-- The lines of a text in the wide sense. A line end at the end of the text starts no new line. -/
def displayLines : List Char → List (List Char)
  | [] => []
  | '\r' :: '\n' :: rest => [] :: displayLines rest
  | c :: rest =>
    if isLineEnd c then [] :: displayLines rest
    else
      match displayLines rest with
      | [] => [[c]]
      | line :: lines => (c :: line) :: lines

/-- The text with every carriage return, alone or before a line feed, turned into a line feed. -/
def universalNewlines : List Char → List Char
  | [] => []
  | '\r' :: '\n' :: rest => '\n' :: universalNewlines rest
  | '\r' :: rest => '\n' :: universalNewlines rest
  | c :: rest => c :: universalNewlines rest

end Errata
