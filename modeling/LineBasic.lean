import LineBasic.Text.Digit
import LineBasic.Text.Printable
import LineBasic.Text.Blank
import LineBasic.Text.Lines
import LineBasic.Text.Quoted
import LineBasic.Text.Encoding
import LineBasic.Numeral.Integer
import LineBasic.Numeral.Binary64
import LineBasic.Numeral.Decimal
import LineBasic.Operator
import LineBasic.Value.Basic
import LineBasic.Fault
import LineBasic.Value.Operations
import LineBasic.Token.Basic
import LineBasic.Token.Lexeme
import LineBasic.Token.Scan
import LineBasic.Program.Basic
import LineBasic.Program.Listing
import LineBasic.Program.Data
import LineBasic.Program.Cursor
import LineBasic.Program.Reader
import LineBasic.Machine.Store
import LineBasic.Machine.Eval
import LineBasic.Machine.State
import LineBasic.Machine.Exec
import LineBasic.Machine.Run
import LineBasic.Source
import LineBasic.Machine.Step
import LineBasic.Console
import LineBasic.Window
import LineBasic.Main
import LineBasic.Proofs.ReadingLoops
import LineBasic.Proofs.Grammar
import LineBasic.Proofs.GrammarSoundness
import LineBasic.Proofs.GrammarCompleteness
import LineBasic.Proofs.Cutting
import LineBasic.Proofs.WellFormed
import LineBasic.Proofs.Rendering
import LineBasic.Proofs.RoundTrip
import LineBasic.Proofs.ReturnStack
import LineBasic.Proofs.RunFaults
import LineBasic.Proofs.Subroutines
import LineBasic.Proofs.ForwardJumps
import LineBasic.Proofs.Layout
import LineBasic.Proofs.SplitLines
import LineBasic.Proofs.PlainFaults
import LineBasic.Proofs.Renumbering
import LineBasic.Proofs.Pieces
import LineBasic.Proofs.Neighbours
import LineBasic.Proofs.Spacing
import LineBasic.Proofs.LineByLine
import LineBasic.Proofs.Lookahead
import LineBasic.Proofs.LineKeeping
import LineBasic.Proofs.FirstBadLine
import LineBasic.Proofs.InputLines
import LineBasic.Proofs.MoreInput
import LineBasic.Proofs.TerminalSessions
import LineBasic.Proofs.Margins
import LineBasic.Proofs.WindowRuns
import LineBasic.Proofs.Listings
import LineBasic.Proofs.WindowHistory
import LineBasic.Proofs.ReturnPlaces
import LineBasic.Proofs.Precedence
import LineBasic.Proofs.FailedStatements
import LineBasic.Proofs.CommentLines
import LineBasic.Proofs.UnsetVariables
import LineBasic.Proofs.Culprits
import LineBasic.Proofs.Quotations
import LineBasic.Proofs.Redirection
import LineBasic.Proofs.Calls
import LineBasic.Proofs.Limits
import LineBasic.Proofs.Progress
import LineBasic.Proofs.DecimalDigits
import LineBasic.Proofs.PrintedNumbers
import LineBasic.Proofs.WholeDecimals
