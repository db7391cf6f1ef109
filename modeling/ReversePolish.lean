import ReversePolish.CommandLine.Run
import ReversePolish.Main
import ReversePolish.Session.Completion
import ReversePolish.Proofs.Evaluation.Busy
import ReversePolish.Proofs.Evaluation.Concatenation
import ReversePolish.Proofs.Evaluation.Framing
import ReversePolish.Proofs.Evaluation.Independence
import ReversePolish.Proofs.Evaluation.Postfix
import ReversePolish.Proofs.Evaluation.Termination
import ReversePolish.Proofs.Evaluation.Underflow
import ReversePolish.Proofs.Evaluation.Alteration
import ReversePolish.Proofs.Evaluation.Verdict
import ReversePolish.Proofs.Evaluation.Dispatch
import ReversePolish.Proofs.Session.Batch
import ReversePolish.Proofs.Session.Transcript
import ReversePolish.Proofs.Session.Tracing
import ReversePolish.Proofs.CommandLine.Modes
import ReversePolish.Proofs.CommandLine.Status
import ReversePolish.Proofs.CommandLine.Tracing
import ReversePolish.Proofs.Number.Nearest
import ReversePolish.Proofs.Number.Shortest
import ReversePolish.Proofs.Number.Readback
import ReversePolish.Proofs.Value
import ReversePolish.Proofs.Number.Whole
import ReversePolish.Proofs.Operator.Index
import ReversePolish.Proofs.Evaluation.Mirror
import ReversePolish.Proofs.Evaluation.Observation
import ReversePolish.Proofs.Evaluation.Strictness
import ReversePolish.Proofs.Operator.Depth
import ReversePolish.Proofs.Evaluation.Forecast
import ReversePolish.Proofs.Number.Rounding
import ReversePolish.Proofs.Literal
import ReversePolish.Proofs.Variables
import ReversePolish.Proofs.Json.Order
import ReversePolish.Proofs.Variables.History
import ReversePolish.Proofs.Operator.Registration
import ReversePolish.Proofs.Json.Leaves
import ReversePolish.Proofs.Json.Loading
import ReversePolish.Proofs.Number.Exact
import ReversePolish.Proofs.Operator.Remainder
import ReversePolish.Proofs.Evaluation.Reference
import ReversePolish.Proofs.Evaluation.Construction
import ReversePolish.Proofs.Config
import ReversePolish.Proofs.CommandLine.Sources
import ReversePolish.Proofs.CommandLine.Definition
import ReversePolish.Proofs.Text.Fragment
import ReversePolish.Proofs.Session.Command
import ReversePolish.Proofs.Session.Setting
import ReversePolish.Proofs.Session.Completion
import ReversePolish.Proofs.CommandLine.History
import ReversePolish.Proofs.CommandLine.Prompt
import ReversePolish.Proofs.Token.Runs
import ReversePolish.Proofs.Token.Grammar
import ReversePolish.Proofs.Evaluation.Rearrangement
import ReversePolish.Proofs.CommandLine.Options
import ReversePolish.Proofs.Number.Fewest
import ReversePolish.Proofs.Value.Shortest
