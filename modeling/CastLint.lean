import CastLint.Command.Arguments
import CastLint.Command.Check
import CastLint.Command.Clock
import CastLint.Command.Explain
import CastLint.Command.Grammar
import CastLint.Command.Help
import CastLint.Command.Log
import CastLint.Command.Outcome
import CastLint.Command.Run
import CastLint.Command.Suggestion
import CastLint.Command.UsageError
import CastLint.Config.Exclusion
import CastLint.Config.Search
import CastLint.Config.Settings
import CastLint.Files.Discovery
import CastLint.Files.Path
import CastLint.Files.Refusals
import CastLint.Files.Tree
import CastLint.Glob.Matching
import CastLint.Glob.Pattern
import CastLint.Lint.Diagnostic
import CastLint.Lint.Engine
import CastLint.Lint.Fixing
import CastLint.Lint.PreferMocked
import CastLint.Lint.Registry
import CastLint.Lint.Rule
import CastLint.Lint.Template
import CastLint.Main
import CastLint.Number.Binary64
import CastLint.Number.Shortest
import CastLint.Proofs.Boundaries
import CastLint.Proofs.ByteOrderMark
import CastLint.Proofs.CastAddresses
import CastLint.Proofs.CheckedFiles
import CastLint.Proofs.ConfigSearch
import CastLint.Proofs.DecodedReports
import CastLint.Proofs.DirectiveLines
import CastLint.Proofs.DroppedDirectives
import CastLint.Proofs.FileOrder
import CastLint.Proofs.FileTrees
import CastLint.Proofs.FindingOrder
import CastLint.Proofs.FixPass
import CastLint.Proofs.FixRuns
import CastLint.Proofs.FoundFiles
import CastLint.Proofs.Glyphs
import CastLint.Proofs.JoinedLines
import CastLint.Proofs.JsonReading
import CastLint.Proofs.JsonTexts
import CastLint.Proofs.LineNumbers
import CastLint.Proofs.Locations
import CastLint.Proofs.MachineSteps
import CastLint.Proofs.MarkedSpans
import CastLint.Proofs.MockedCalls
import CastLint.Proofs.OutermostFixes
import CastLint.Proofs.ParserSteps
import CastLint.Proofs.PassChunks
import CastLint.Proofs.PermutedFixes
import CastLint.Proofs.ReadExpressions
import CastLint.Proofs.ReadOperands
import CastLint.Proofs.ReadScripts
import CastLint.Proofs.ReadStatements
import CastLint.Proofs.Registries
import CastLint.Proofs.RemarkedLines
import CastLint.Proofs.RemarkedPasses
import CastLint.Proofs.RepeatedChecks
import CastLint.Proofs.ReportedCasts
import CastLint.Proofs.Resumption
import CastLint.Proofs.RewriteLimits
import CastLint.Proofs.RuleReferences
import CastLint.Proofs.ScriptFixes
import CastLint.Proofs.ScriptPasses
import CastLint.Proofs.Scripts
import CastLint.Proofs.ShownPlaces
import CastLint.Proofs.Substitution
import CastLint.Proofs.SummaryCounts
import CastLint.Proofs.Suppression
import CastLint.Proofs.TemplatePieces
import CastLint.Proofs.TrailingComments
import CastLint.Proofs.Walks
import CastLint.Report.Brief
import CastLint.Report.Document
import CastLint.Report.Excerpt
import CastLint.Report.Json
import CastLint.Report.Paint
import CastLint.Report.Summary
import CastLint.Source.Directive
import CastLint.Source.File
import CastLint.Source.Language
import CastLint.Syntax.Cast
import CastLint.Syntax.Escape
import CastLint.Syntax.Fault
import CastLint.Syntax.Grammar
import CastLint.Syntax.Lexeme
import CastLint.Syntax.Node
import CastLint.Syntax.Numeral
import CastLint.Syntax.Parser.Basic
import CastLint.Syntax.Parser.Calls
import CastLint.Syntax.Parser.Classes
import CastLint.Syntax.Parser.Declarations
import CastLint.Syntax.Parser.Functions
import CastLint.Syntax.Parser.Literals
import CastLint.Syntax.Parser.Markup
import CastLint.Syntax.Parser.Modules
import CastLint.Syntax.Parser.Operands
import CastLint.Syntax.Parser.Operators
import CastLint.Syntax.Parser.Patterns
import CastLint.Syntax.Parser.Statements
import CastLint.Syntax.Parser.Types
import CastLint.Syntax.Problem
import CastLint.Syntax.Span
import CastLint.Syntax.Token
import CastLint.Text.Blank
import CastLint.Text.ByteString
import CastLint.Text.Bytes
import CastLint.Text.Letter
import CastLint.Text.Lines
import CastLint.Text.Location
import CastLint.Text.Quoted
import CastLint.Text.Ranges
import CastLint.Text.Shape
import CastLint.Text.Sorted
import CastLint.Text.Utf8
import CastLint.Text.Width
import CastLint.Toml.Document
import CastLint.Toml.Draft
import CastLint.Toml.Failure
import CastLint.Toml.Numbers
import CastLint.Toml.Reader
import CastLint.Toml.Strings
import CastLint.Toml.Value
