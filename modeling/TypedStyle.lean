import TypedStyle.Color
import TypedStyle.Command.Directory
import TypedStyle.Command.Options
import TypedStyle.Command.Run
import TypedStyle.Compile
import TypedStyle.Css
import TypedStyle.Diagnostic
import TypedStyle.Diagnostic.Report
import TypedStyle.Evaluation
import TypedStyle.Expr
import TypedStyle.Expr.Grammar
import TypedStyle.Expr.Reading
import TypedStyle.Fault
import TypedStyle.Main
import TypedStyle.Position
import TypedStyle.Property
import TypedStyle.Scanner
import TypedStyle.Scopes
import TypedStyle.Sheet
import TypedStyle.Sheet.Reading
import TypedStyle.Stop
import TypedStyle.Text.Blank
import TypedStyle.Text.Bytes
import TypedStyle.Text.Cut
import TypedStyle.Text.Extending
import TypedStyle.Text.Line
import TypedStyle.Text.Numeral
import TypedStyle.Text.Quoted
import TypedStyle.Text.Ranges
import TypedStyle.Text.Unprintable
import TypedStyle.Token
import TypedStyle.Token.Cursor
import TypedStyle.Token.Form
import TypedStyle.Token.Lexeme
import TypedStyle.Typing
import TypedStyle.Value
import TypedStyle.Walk
import TypedStyle.Proofs.Checking
import TypedStyle.Proofs.Agreement
import TypedStyle.Proofs.Operand
import TypedStyle.Proofs.ExprGrammar
import TypedStyle.Proofs.SheetGrammar
import TypedStyle.Proofs.Splitting
import TypedStyle.Proofs.Outcome
import TypedStyle.Proofs.Binding
import TypedStyle.Proofs.LexicalTyping
import TypedStyle.Proofs.SheetReading
import TypedStyle.Proofs.ExactValues
import TypedStyle.Proofs.Patterns
import TypedStyle.Proofs.Tiling
import TypedStyle.Proofs.Relabeling
import TypedStyle.Proofs.Relocation
import TypedStyle.Proofs.Layout
import TypedStyle.Proofs.Isolation
import TypedStyle.Proofs.Locality
import TypedStyle.Proofs.Completion
import TypedStyle.Proofs.Written
import TypedStyle.Proofs.CssWords
import TypedStyle.Proofs.FixedPoint
import TypedStyle.Proofs.Safety
import TypedStyle.Proofs.FileSystems
import TypedStyle.Proofs.CommandRun
import TypedStyle.Proofs.Flattening
import TypedStyle.Proofs.Printing
import TypedStyle.Proofs.Unambiguous
import TypedStyle.Proofs.Refolding
import TypedStyle.Proofs.Annotating
import TypedStyle.Proofs.Restoring
import TypedStyle.Proofs.History
import TypedStyle.Proofs.Visiting
import TypedStyle.Proofs.Progress
import TypedStyle.Proofs.Truncation
import TypedStyle.Proofs.Lines
import TypedStyle.Proofs.Nesting
import TypedStyle.Proofs.Positions
import TypedStyle.Proofs.Reports
import TypedStyle.Proofs.Renaming
import TypedStyle.Proofs.LongestMatch
import TypedStyle.Proofs.Magnitudes
