import Errata.Diagnostic.Catalogue
import Errata.Diagnostic.Span
import Errata.Path
import Errata.Text.Lines

/-!
# Reports

A report shows diagnostics in the order they were found. Each has a heading with the place, the
kind, the label and the message. A diagnostic with a span also shows the first line of the span
and marks the part of it that the span covers.

A report is laid out once, as lines of pieces. Colour belongs to a piece, so that a report with
colour and one without differ in nothing but the colour marks.

## Main definitions

* `Diagnostic`, `Report`: what is reported.
* `Report.layout`: the lines of a report.
* `Report.render`: the text of a report.
* `Style.detect`: the style that suits a stream.
-/

namespace Errata

/-- Something found in a declaration file. -/
structure Diagnostic where
  /-- How grave it is. -/
  severity : Severity
  /-- The label of its code. -/
  label : String
  /-- The message. -/
  message : String
  /-- The source text it is about. -/
  span : Option Span
  /-- The name of the file; empty for the name in force when the report is made. -/
  filename : String
deriving DecidableEq, Repr

/-- The diagnostics of a file, together with what is needed to show them. -/
structure Report where
  /-- The source text, if it is known. -/
  source : Option String := none
  /-- The name of the file. -/
  filename : String := "<input>"
  /-- The diagnostics in the order they were found. -/
  diagnostics : List Diagnostic := []
deriving DecidableEq, Repr

namespace Report

/-- Adds a diagnostic. -/
def add (r : Report) (severity : Severity) (label message : String) (span : Option Span) : Report :=
  { r with diagnostics := r.diagnostics ++ [⟨severity, label, message, span, r.filename⟩] }

/-- Adds a diagnostic of the catalogue for the given values of its parameters. -/
def emit (r : Report) (code : Code) (values : List (String × String)) (span : Option Span) :
    Except MissingParameter Report := do
  return r.add code.entry.severity code.entry.label (← code.message values) span

/-- The diagnostics of one severity. -/
def ofSeverity (r : Report) (severity : Severity) : List Diagnostic :=
  r.diagnostics.filter fun d => d.severity = severity

/-- Whether there is an error. -/
def hasErrors (r : Report) : Bool :=
  r.diagnostics.any fun d => d.severity = .error

/-- Whether there is a warning. -/
def hasWarnings (r : Report) : Bool :=
  r.diagnostics.any fun d => d.severity = .warning

end Report

/-- What the marks of a report may use. -/
structure Style where
  /-- Colour marks. -/
  color : Bool
  /-- Line-drawing characters. -/
  unicode : Bool
deriving DecidableEq, Repr

/-- What is known of the stream a report is written to. -/
structure Stream where
  /-- Whether it is a terminal. -/
  isTerminal : Bool := false
  /-- Whether the environment asks for no colour. -/
  noColor : Bool := false
  /-- Whether the environment asks for no line-drawing characters. -/
  noUnicode : Bool := false
  /-- Whether the terminal can do neither. -/
  dumb : Bool := false

/-- The style for a stream. Either part can be fixed beforehand. -/
def Style.detect (stream : Stream) (color unicode : Option Bool) : Style where
  color := color.getD (stream.isTerminal && !stream.noColor && !stream.dumb)
  unicode := unicode.getD (stream.isTerminal && !stream.noUnicode && !stream.dumb)

/-- The colour of a piece of a report. -/
inductive Paint where
  /-- None. -/
  | plain
  /-- That of a place. -/
  | place
  /-- That of the word for a severity. -/
  | kind (severity : Severity)
  /-- That of a label. -/
  | label
  /-- That of the guides along the left edge. -/
  | guide
  /-- That of the marks under the source. -/
  | mark (severity : Severity)
deriving DecidableEq, Repr

/-- The mark that starts a colour or a face. -/
def Paint.escape (n : Nat) : String :=
  "\x1b[" ++ toString n ++ "m"

/-- The colour number of a severity. -/
def Severity.color : Severity → Nat
  | error => 31
  | warning => 33

/-- The colours and faces of a piece. -/
def Paint.numbers : Paint → List Nat
  | plain => []
  | place => [36]
  | kind severity => [1, severity.color]
  | label => [2]
  | guide => [90]
  | mark severity => [severity.color]

/-- A piece of a line of a report. -/
structure Piece where
  /-- Its colour. -/
  paint : Paint
  /-- Its text. -/
  text : String
deriving DecidableEq, Repr

/-- The text of a piece, with its colour marks if colour is wanted. -/
def Piece.render (color : Bool) (p : Piece) : String :=
  if color && p.paint ≠ .plain then
    String.join (p.paint.numbers.map Paint.escape) ++ p.text ++ Paint.escape 0
  else
    p.text

namespace Report

/-- The name of a file as shown: from the directory `cwd` if the file lies inside it. Names in angle
brackets and names that are no paths are shown as they are. -/
def displayName (cwd : Path) (filename : String) : String :=
  if filename.startsWith "<" || filename.contains '\x00' then filename
  else
    match (cwd.resolve (Path.ofString filename)).relativeTo? cwd with
    | some path => "./" ++ toString path
    | none => filename

/-- A message with a full stop at its end. -/
def sentence (message : String) : String :=
  if message.endsWith "." then message else message ++ "."

/-- The heading of a diagnostic found at the given place. -/
def heading (place : String) (d : Diagnostic) : List Piece :=
  [⟨.place, place⟩, ⟨.plain, ": "⟩, ⟨.kind d.severity, d.severity.word⟩, ⟨.plain, " ["⟩,
    ⟨.label, d.label⟩, ⟨.plain, "]: " ++ sentence d.message⟩]

/-- The source line a span starts on, or nothing if there is no such line. -/
def sourceLine (lines : Option (List (List Char))) (span : Span) : List Char :=
  if span.line < 1 then []
  else ((lines.getD [])[(span.line - 1).toNat]?).getD []

/-- The first column of a span that is marked. -/
def firstColumn (span : Span) : Nat :=
  (max 1 span.column).toNat

/-- How many columns of its first line a span covers, at least one. A span of several lines goes on
to the end of the line. -/
def markWidth (span : Span) (line : List Char) : Nat :=
  let start := firstColumn span
  if span.endLine = span.line then (span.endColumn - start).toNat.max 1
  else (line.length + 1 - start).max 1

/-- A string of `n` equal characters. -/
def repeated (n : Nat) (c : Char) : String :=
  String.ofList (List.replicate n c)

/-- The lines that show a diagnostic. -/
def layoutOne (unicode : Bool) (filename : String) (lines : Option (List (List Char)))
    (d : Diagnostic) : List (List Piece) :=
  match d.span with
  | none => [heading filename d]
  | some span =>
    let head := heading (filename ++ ":" ++ toString span) d
    let line := sourceLine lines span
    let start := firstColumn span
    let width := markWidth span line
    if unicode then
      [⟨.guide, "  ╭──┤ "⟩ :: head,
        [⟨.guide, "  │"⟩, ⟨.plain, " " ++ String.ofList line⟩],
        [⟨.guide, "  │"⟩, ⟨.plain, " " ++ repeated (start - 1) ' '⟩,
          ⟨.mark d.severity, "┯" ++ repeated (width - 1) '━'⟩],
        [⟨.guide, "  ╰" ++ repeated start '─'⟩, ⟨.mark d.severity, "╯"⟩]]
    else
      [head,
        [⟨.plain, "  | " ++ String.ofList line⟩],
        [⟨.plain, "  ` " ++ repeated (start - 1) ' ' ++ repeated width '^'⟩]]

/-- The lines of a report, seen from the directory `cwd`. -/
def layout (r : Report) (cwd : Path) (unicode : Bool) : List (List Piece) :=
  let lines := r.source.map fun source => displayLines source.toList
  r.diagnostics.flatMap fun d =>
    let filename := if d.filename = "" then r.filename else d.filename
    layoutOne unicode (displayName cwd filename) lines d

/-- The text of a report, without a line break after its last line. -/
def render (r : Report) (cwd : Path) (style : Style) : String :=
  "\n".intercalate
    ((r.layout cwd style.unicode).map fun line => String.join (line.map (Piece.render style.color)))

/-- What is written when a report is printed: nothing if it is empty. -/
def printed (r : Report) (cwd : Path) (style : Style) : String :=
  let text := r.render cwd style
  if text = "" then "" else text ++ "\n"

end Report

end Errata
