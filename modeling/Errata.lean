import Errata.Association
import Errata.CommandLine.Arguments
import Errata.CommandLine.Program
import Errata.Compile
import Errata.Descriptor.Basic
import Errata.Descriptor.Build
import Errata.Descriptor.Literal
import Errata.Descriptor.Names
import Errata.Descriptor.Problem
import Errata.Diagnostic.Catalogue
import Errata.Diagnostic.Report
import Errata.Diagnostic.Span
import Errata.Emission.Class
import Errata.Emission.Module
import Errata.Emission.Selector
import Errata.Error.Binding
import Errata.Error.Call
import Errata.Error.Chain
import Errata.Error.Class
import Errata.Error.Copy
import Errata.Error.Import
import Errata.Error.Library
import Errata.Error.Registration
import Errata.Error.Render
import Errata.Error.Store
import Errata.Error.TypeExpression
import Errata.Error.Value
import Errata.Expression.Check
import Errata.Expression.Grammar
import Errata.Expression.Literal
import Errata.Expression.Node
import Errata.Expression.Number
import Errata.Expression.Recogniser
import Errata.Expression.Token
import Errata.Files.Host
import Errata.Files.Module
import Errata.Files.Tree
import Errata.Format.Field
import Errata.Format.Spec
import Errata.Main
import Errata.Message.Escape
import Errata.Message.Filling
import Errata.Message.Placeholder
import Errata.Message.Template
import Errata.Name
import Errata.Path
import Errata.Proofs.Binding
import Errata.Proofs.CommandLine.Alone
import Errata.Proofs.CommandLine.Arguments
import Errata.Proofs.CommandLine.Encoding
import Errata.Proofs.CommandLine.Planned
import Errata.Proofs.CommandLine.Run
import Errata.Proofs.CommandLine.Source
import Errata.Proofs.CommandLine.Sources
import Errata.Proofs.Commenting
import Errata.Proofs.Compile
import Errata.Proofs.Descriptor.Argument
import Errata.Proofs.Descriptor.Bare
import Errata.Proofs.Descriptor.BoundNames
import Errata.Proofs.Descriptor.Build
import Errata.Proofs.Descriptor.Describing
import Errata.Proofs.Descriptor.Findings
import Errata.Proofs.Descriptor.Gathering
import Errata.Proofs.Descriptor.Import
import Errata.Proofs.Descriptor.Literal
import Errata.Proofs.Descriptor.Location
import Errata.Proofs.Descriptor.Names
import Errata.Proofs.Descriptor.Origin
import Errata.Proofs.Descriptor.Outsiders
import Errata.Proofs.Descriptor.Severity
import Errata.Proofs.Descriptor.Types
import Errata.Proofs.Descriptor.WellFormed
import Errata.Proofs.Descriptor.Wording
import Errata.Proofs.Diagnostic.Color
import Errata.Proofs.Diagnostic.Layout
import Errata.Proofs.Diagnostic.SourceLine
import Errata.Proofs.Emission.Assembly
import Errata.Proofs.Emission.Bare
import Errata.Proofs.Emission.Call
import Errata.Proofs.Emission.Defect
import Errata.Proofs.Emission.Defined
import Errata.Proofs.Emission.Message
import Errata.Proofs.Emission.Module
import Errata.Proofs.Emission.Naming
import Errata.Proofs.Emission.Quoting
import Errata.Proofs.Emission.Return
import Errata.Proofs.Ending
import Errata.Proofs.Error.Alike
import Errata.Proofs.Error.Binding
import Errata.Proofs.Error.Block
import Errata.Proofs.Error.Call
import Errata.Proofs.Error.Circle
import Errata.Proofs.Error.Copying
import Errata.Proofs.Error.Forms
import Errata.Proofs.Error.Growth
import Errata.Proofs.Error.Help
import Errata.Proofs.Error.Import
import Errata.Proofs.Error.Loading
import Errata.Proofs.Error.Place
import Errata.Proofs.Error.Reach
import Errata.Proofs.Error.Registration
import Errata.Proofs.Error.Resolving
import Errata.Proofs.Error.Restored
import Errata.Proofs.Error.Story
import Errata.Proofs.ExitCode
import Errata.Proofs.Expression.Lexing
import Errata.Proofs.Expression.Newline
import Errata.Proofs.Expression.Number
import Errata.Proofs.Expression.Place
import Errata.Proofs.Expression.Recogniser
import Errata.Proofs.Expression.String
import Errata.Proofs.Expression.Token
import Errata.Proofs.Files.Session
import Errata.Proofs.Files.Storing
import Errata.Proofs.Files.Way
import Errata.Proofs.FirstViolation
import Errata.Proofs.Importing
import Errata.Proofs.Isolation
import Errata.Proofs.Leading
import Errata.Proofs.Leniency
import Errata.Proofs.Message.Escape
import Errata.Proofs.Message.Filling
import Errata.Proofs.Message.Format
import Errata.Proofs.Message.Offset
import Errata.Proofs.Message.Positional
import Errata.Proofs.Message.Reading
import Errata.Proofs.Message.Segment
import Errata.Proofs.Message.Shown
import Errata.Proofs.Message.Slicing
import Errata.Proofs.Message.Stray
import Errata.Proofs.Message.Written
import Errata.Proofs.Name.SnakeCase
import Errata.Proofs.Outcome
import Errata.Proofs.Overwriting
import Errata.Proofs.Path
import Errata.Proofs.Pointing
import Errata.Proofs.Privacy
import Errata.Proofs.Registering
import Errata.Proofs.Retelling
import Errata.Proofs.Safety
import Errata.Proofs.Settings
import Errata.Proofs.Shadowing
import Errata.Proofs.Syntax.Bare
import Errata.Proofs.Syntax.Boundary
import Errata.Proofs.Syntax.Comment
import Errata.Proofs.Syntax.Declaration
import Errata.Proofs.Syntax.Derivation
import Errata.Proofs.Syntax.Displacement
import Errata.Proofs.Syntax.Insertion
import Errata.Proofs.Syntax.Keyword
import Errata.Proofs.Syntax.Layout
import Errata.Proofs.Syntax.Parser
import Errata.Proofs.Syntax.Placement
import Errata.Proofs.Syntax.Position
import Errata.Proofs.Syntax.Retelling
import Errata.Proofs.Syntax.Scanner
import Errata.Proofs.Syntax.Shape
import Errata.Proofs.Syntax.Spelling
import Errata.Proofs.Syntax.Surround
import Errata.Proofs.Syntax.Tokens
import Errata.Proofs.Syntax.TypeText
import Errata.Proofs.Syntax.TypeTokens
import Errata.Proofs.Syntax.Within
import Errata.Proofs.Syntax.Wording
import Errata.Proofs.Text.Blank
import Errata.Proofs.Text.Control
import Errata.Proofs.Text.Encoding
import Errata.Proofs.Text.Hexadecimal
import Errata.Proofs.Text.Joined
import Errata.Proofs.Text.Quoted
import Errata.Proofs.Unquoting
import Errata.Proofs.Untouched
import Errata.Proofs.UpToDate
import Errata.Proofs.Warning
import Errata.Settings
import Errata.Syntax.Automaton
import Errata.Syntax.Declaration
import Errata.Syntax.Grammar
import Errata.Syntax.Parser
import Errata.Syntax.Scanner
import Errata.Syntax.Token
import Errata.Text.CodePoint
import Errata.Text.Encoding
import Errata.Text.Hexadecimal
import Errata.Text.Lines
import Errata.Text.Quoted
import Errata.Toml.Document
import Errata.Toml.Scalar
import Errata.Toml.Text
import Errata.Toml.Value
import Errata.Unicode.Identifier
import Errata.Unicode.LowerCase
import Errata.Unicode.Printable
import Errata.Unicode.Ranges
import Errata.Proofs.Expression.Reason
import Errata.Proofs.Descriptor.Unbroken
import Errata.Proofs.Diagnostic.Height
import Errata.Proofs.Emission.Title
import Errata.Proofs.Error.Offering
