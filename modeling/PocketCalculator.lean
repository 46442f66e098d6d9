import PocketCalculator.Main
import PocketCalculator.Snapshot
import PocketCalculator.Proofs.Grammar
import PocketCalculator.Proofs.Grammar.Completeness
import PocketCalculator.Proofs.Grammar.Soundness
import PocketCalculator.Proofs.Grammar.Acceptance
import PocketCalculator.Proofs.Evaluation.Operands
import PocketCalculator.Proofs.Evaluation.OperandCheck
import PocketCalculator.Proofs.Session.Refinement
import PocketCalculator.Proofs.Buffer.Shape
import PocketCalculator.Proofs.Buffer.Positions
import PocketCalculator.Proofs.Editor.Checked
import PocketCalculator.Proofs.Editor.Safety
import PocketCalculator.Proofs.Session.Safety
import PocketCalculator.Proofs.Buffer.Seam
import PocketCalculator.Proofs.Editor.Shape
import PocketCalculator.Proofs.Grammar.Position
import PocketCalculator.Proofs.Grammar.FirstError
import PocketCalculator.Proofs.Token.Seam
import PocketCalculator.Proofs.Evaluation.Enclosure
import PocketCalculator.Proofs.Binary.Finite
import PocketCalculator.Proofs.Binary.Rounding
import PocketCalculator.Proofs.Decimal.Exact
import PocketCalculator.Proofs.Evaluation.Displayed
import PocketCalculator.Proofs.Editor.Settled
import PocketCalculator.Proofs.Token.Places
import PocketCalculator.Proofs.Editor.AtEnd
import PocketCalculator.Proofs.Editor.Change
import PocketCalculator.Proofs.Editor.Brackets
import PocketCalculator.Proofs.Editor.Alphabet
import PocketCalculator.Proofs.Editor.Entry
import PocketCalculator.Proofs.Session.Typing
import PocketCalculator.Proofs.Session.Overlay
import PocketCalculator.Proofs.Session.History
import PocketCalculator.Proofs.Text.Utf8
import PocketCalculator.Proofs.Text.LineEnd
import PocketCalculator.Proofs.Host.Step
import PocketCalculator.Proofs.Host.Feed
import PocketCalculator.Proofs.Host.Line
import PocketCalculator.Proofs.Host.Dialogue
import PocketCalculator.Proofs.Host.Display
import PocketCalculator.Proofs.Json.Scalars
import PocketCalculator.Proofs.Json.RoundTrip
import PocketCalculator.Proofs.Json.Fields
import PocketCalculator.Proofs.Session.Snapshot
import PocketCalculator.Proofs.Settings.Table
import PocketCalculator.Proofs.Settings.File
import PocketCalculator.Proofs.Settings.Registry
import PocketCalculator.Proofs.Settings.Preferences
import PocketCalculator.Proofs.Host.Configuration
import PocketCalculator.Proofs.Binary.Range
import PocketCalculator.Proofs.Expr.Parts
import PocketCalculator.Proofs.Evaluation.Strict
import PocketCalculator.Proofs.Grammar.Height
import PocketCalculator.Proofs.Grammar.LastOperand
import PocketCalculator.Proofs.Evaluation.Power
import PocketCalculator.Proofs.Editor.Sign
import PocketCalculator.Proofs.Settings.Replacement
import PocketCalculator.Proofs.Host.Layers
import PocketCalculator.Proofs.Grammar.LastNumber
import PocketCalculator.Proofs.Editor.Negation
import PocketCalculator.Proofs.Grammar.Bars
import PocketCalculator.Proofs.Editor.Bars
import PocketCalculator.Proofs.Editor.Overlay
import PocketCalculator.Proofs.Editor.Around
import PocketCalculator.Proofs.Editor.Operators
import PocketCalculator.Proofs.Editor.Digits
import PocketCalculator.Proofs.Editor.Numbers
import PocketCalculator.Proofs.Buffer.Splice
import PocketCalculator.Proofs.Buffer.Segments
import PocketCalculator.Proofs.Session.Layouts
import PocketCalculator.Proofs.Text.Edges
import PocketCalculator.Proofs.Host.Writing
import PocketCalculator.Proofs.Grammar.Descent
import PocketCalculator.Proofs.Grammar.Simulation
import PocketCalculator.Proofs.Grammar.Routines
import PocketCalculator.Proofs.Grammar.Progress
