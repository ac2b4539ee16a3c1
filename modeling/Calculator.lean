import Calculator.Main
import Calculator.Node.Printer
import Calculator.Term
import Calculator.Proofs.Acceptance
import Calculator.Proofs.Building
import Calculator.Proofs.Chain
import Calculator.Proofs.Rows
import Calculator.Proofs.Evaluation
import Calculator.Proofs.RoundTrip
import Calculator.Proofs.Safety
import Calculator.Proofs.Assessment
import Calculator.Dialogue
import Calculator.Proofs.Inspection
import Calculator.Proofs.Bisimulation
import Calculator.Proofs.Idle
import Calculator.Proofs.History
import Calculator.Bench
import Calculator.Proofs.Bench
import Calculator.Proofs.Diagnostics
import Calculator.Proofs.Recording
import Calculator.Proofs.PhysicalLines
import Calculator.Proofs.Sources
import Calculator.Proofs.ScriptRuns
import Calculator.Proofs.PromptRuns
import Calculator.Proofs.Bracketing
import Calculator.Proofs.Schedule
import Calculator.Proofs.Performance
import Calculator.Proofs.Cutting
import Calculator.Proofs.Viability
import Calculator.Proofs.Wording
import Calculator.Proofs.Offence
import Calculator.Proofs.Expectation
import Calculator.Proofs.Substitution
import Calculator.Proofs.Splice
import Calculator.Proofs.Spacing
import Calculator.Proofs.Assignment
import Calculator.Proofs.Contraction
import Calculator.Proofs.Interleaving
import Calculator.Proofs.Residue
import Calculator.Proofs.Rounding
import Calculator.Proofs.SingleLine
import Calculator.Proofs.RecentSteps
import Calculator.Proofs.FailingStep
import Calculator.Proofs.ScriptLines
import Calculator.Proofs.Leaves
import Calculator.Json.Reader
import Calculator.Proofs.JsonText
import Calculator.Proofs.ReportText
import Calculator.Proofs.Headings
import Calculator.Proofs.Positional
import Calculator.Proofs.Abbreviation
import Calculator.Proofs.Sites
import Calculator.Proofs.Folds
