import LuaUnveil.Command.Example
import LuaUnveil.Command.Failure
import LuaUnveil.Command.Init
import LuaUnveil.Command.Line
import LuaUnveil.Command.Program
import LuaUnveil.Command.Run
import LuaUnveil.Command.Switch
import LuaUnveil.DeadCode.EmptyFunction
import LuaUnveil.DeadCode.NilLocal
import LuaUnveil.DeadCode.Remove
import LuaUnveil.Escape.Decimal
import LuaUnveil.Escape.Hex
import LuaUnveil.Escape.Literal
import LuaUnveil.Escape.Table
import LuaUnveil.Expression.Identity
import LuaUnveil.Expression.Simplify
import LuaUnveil.File.Fault
import LuaUnveil.File.Host
import LuaUnveil.File.Path
import LuaUnveil.File.Tree
import LuaUnveil.Json.Reader
import LuaUnveil.Json.Value
import LuaUnveil.Layout.BlankLines
import LuaUnveil.Layout.Lines
import LuaUnveil.Layout.Operators
import LuaUnveil.Main
import LuaUnveil.Naming.Declaration
import LuaUnveil.Naming.Pool
import LuaUnveil.Naming.Search
import LuaUnveil.Naming.Shape
import LuaUnveil.Naming.Table
import LuaUnveil.Proofs.Assignments
import LuaUnveil.Proofs.Blanks
import LuaUnveil.Proofs.BraceDepth
import LuaUnveil.Proofs.Chains
import LuaUnveil.Proofs.Commands
import LuaUnveil.Proofs.DeadCode
import LuaUnveil.Proofs.Decoding
import LuaUnveil.Proofs.Discovery
import LuaUnveil.Proofs.Edges
import LuaUnveil.Proofs.Escape
import LuaUnveil.Proofs.FileTree
import LuaUnveil.Proofs.Gaps
import LuaUnveil.Proofs.Glyphs
import LuaUnveil.Proofs.History
import LuaUnveil.Proofs.Indentation
import LuaUnveil.Proofs.Independence
import LuaUnveil.Proofs.Insensitivity
import LuaUnveil.Proofs.JsonReading
import LuaUnveil.Proofs.Layout
import LuaUnveil.Proofs.Lexemes
import LuaUnveil.Proofs.Literals
import LuaUnveil.Proofs.NilLocals
import LuaUnveil.Proofs.OperatorSpacing
import LuaUnveil.Proofs.OuterBlanks
import LuaUnveil.Proofs.Pieces
import LuaUnveil.Proofs.Places
import LuaUnveil.Proofs.Pool
import LuaUnveil.Proofs.Removal
import LuaUnveil.Proofs.Renaming
import LuaUnveil.Proofs.ReportReading
import LuaUnveil.Proofs.Rounds
import LuaUnveil.Proofs.Scan
import LuaUnveil.Proofs.Scores
import LuaUnveil.Proofs.Settled
import LuaUnveil.Proofs.Shape
import LuaUnveil.Proofs.Simplification
import LuaUnveil.Proofs.Spacing
import LuaUnveil.Proofs.Statistics
import LuaUnveil.Proofs.Survival
import LuaUnveil.Proofs.Table
import LuaUnveil.Proofs.Values
import LuaUnveil.Proofs.Warnings
import LuaUnveil.Proofs.Words
import LuaUnveil.Report.Basic
import LuaUnveil.Report.Json
import LuaUnveil.Report.Markdown
import LuaUnveil.Report.Render
import LuaUnveil.Report.Terminal
import LuaUnveil.Session.Basic
import LuaUnveil.Session.Outcome
import LuaUnveil.Session.Pass
import LuaUnveil.Session.Statistics
import LuaUnveil.Settings.Basic
import LuaUnveil.Settings.Discovery
import LuaUnveil.Text.Alphanumeric
import LuaUnveil.Text.AlphanumericRanges
import LuaUnveil.Text.Basic
import LuaUnveil.Text.Blank
import LuaUnveil.Text.Ledger
import LuaUnveil.Text.Numeral
import LuaUnveil.Text.Ranges
import LuaUnveil.Text.Scan
import LuaUnveil.Text.Word
import LuaUnveil.Text.WordRanges
import LuaUnveil.Toml.Moment
import LuaUnveil.Toml.Number
import LuaUnveil.Toml.Quoted
import LuaUnveil.Toml.Reader
import LuaUnveil.Toml.Table
import LuaUnveil.Toml.Value
import LuaUnveil.Toml.Word
