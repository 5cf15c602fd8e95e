import ExportLint.Rule
import ExportLint.Types.Checker
import ExportLint.Workspace
import ExportLint.Proofs.Demands
import ExportLint.Proofs.Settlement
import ExportLint.Proofs.CheckerHistory
import ExportLint.Proofs.PlainRecursion
import ExportLint.Proofs.StructuralFit
import ExportLint.Proofs.HistoryIndependence
import ExportLint.Proofs.Writing
import ExportLint.Proofs.Specification
import ExportLint.Proofs.Calls
import ExportLint.Proofs.TreeAndText
import ExportLint.Proofs.NodeNumbers
import ExportLint.Proofs.NameSearch
import ExportLint.Proofs.RepeatedRuns
import ExportLint.Proofs.MapReaders
import ExportLint.Proofs.Snapshots
import ExportLint.Proofs.Bytes
import ExportLint.Proofs.Lines
import ExportLint.Proofs.WrittenText
import ExportLint.Proofs.OracleAnswers
import ExportLint.Proofs.Anchors
import ExportLint.Proofs.Sorting
import ExportLint.Proofs.FileOrder
import ExportLint.Proofs.NestedQuestions
import ExportLint.Proofs.OrderlyTypes
import ExportLint.Proofs.FittingRules
import ExportLint.Proofs.Transitivity
import ExportLint.Proofs.Unions
import ExportLint.Proofs.Aliases
import ExportLint.Proofs.Renaming
import ExportLint.Proofs.Strictness
import ExportLint.Proofs.ModeSwitches
import ExportLint.Proofs.Placeholders
import ExportLint.Proofs.AcceptedOptions
import ExportLint.Proofs.MapRoundTrip
import ExportLint.Proofs.SingleCalls
import ExportLint.Proofs.Shifting
import ExportLint.Proofs.Concatenation
import ExportLint.Proofs.CallLog
import ExportLint.Proofs.Namespaces
import ExportLint.Proofs.Positions
import ExportLint.Proofs.Batches
import ExportLint.Proofs.Sessions
import ExportLint.Proofs.SharedNames
import ExportLint.Proofs.BuiltTypes
