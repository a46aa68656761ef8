/-!
# Spans

A span is a stretch of source text, given by line and column of its first character and of the
position after its last. Lines and columns count from one; a line ends with a line feed and with
nothing else.
-/

namespace Errata

/-- A stretch of source text. -/
structure Span where
  /-- The line of the first character. -/
  line : Int
  /-- The column of the first character. -/
  column : Int
  /-- The line of the position after the last character. -/
  endLine : Int
  /-- The column of the position after the last character. -/
  endColumn : Int
deriving DecidableEq, Repr

namespace Span

/-- The part of a span within one line that starts `start` columns into it and is `length` columns
long, but at least one. -/
def narrow (s : Span) (start length : Int) : Span where
  line := s.line
  column := s.column + start
  endLine := s.line
  endColumn := s.column + start + max length 1

/-- A span of one column. -/
def point (line column : Int) : Span :=
  ⟨line, column, line, column + 1⟩

instance : ToString Span where
  toString s := toString s.line ++ ":" ++ toString s.column

/-- The span of a token of which start and end may be unknown. An end that is unknown or zero is
taken from the start. -/
def ofBounds? (line column endLine endColumn : Option Int) : Option Span := do
  let line ← line
  let column ← column
  let known (bound : Option Int) (start : Int) : Int :=
    match bound with
    | none | some 0 => start
    | some n => n
  return ⟨line, column, known endLine line, known endColumn column⟩

end Span

end Errata
