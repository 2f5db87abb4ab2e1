import ScopeAnalysis.Analysis
import ScopeAnalysis.Check.Argument
import ScopeAnalysis.Check.Call
import ScopeAnalysis.Check.Header
import ScopeAnalysis.Check.Index
import ScopeAnalysis.Diagnostic
import ScopeAnalysis.Expr
import ScopeAnalysis.IntLiteral
import ScopeAnalysis.LogEvent
import ScopeAnalysis.Options
import ScopeAnalysis.OrderedMap
import ScopeAnalysis.Pass.Action
import ScopeAnalysis.Pass.Basic
import ScopeAnalysis.Pass.Handlers
import ScopeAnalysis.Pass.Move
import ScopeAnalysis.Pass.Walk
import ScopeAnalysis.Position
import ScopeAnalysis.Proofs.Alias
import ScopeAnalysis.Proofs.AliasSearch
import ScopeAnalysis.Proofs.Attribution
import ScopeAnalysis.Proofs.BoundedSink
import ScopeAnalysis.Proofs.ByteOrder
import ScopeAnalysis.Proofs.ByteSlices
import ScopeAnalysis.Proofs.CallChecks
import ScopeAnalysis.Proofs.CallTargets
import ScopeAnalysis.Proofs.CallText
import ScopeAnalysis.Proofs.Declaring
import ScopeAnalysis.Proofs.Diagnosing
import ScopeAnalysis.Proofs.Discovery
import ScopeAnalysis.Proofs.Duplicates
import ScopeAnalysis.Proofs.Ensures
import ScopeAnalysis.Proofs.EventSequence
import ScopeAnalysis.Proofs.FaithfulTable
import ScopeAnalysis.Proofs.Findings
import ScopeAnalysis.Proofs.Frames
import ScopeAnalysis.Proofs.Hearing
import ScopeAnalysis.Proofs.IndexChecks
import ScopeAnalysis.Proofs.LackingMarks
import ScopeAnalysis.Proofs.Lasting
import ScopeAnalysis.Proofs.LedgerHistory
import ScopeAnalysis.Proofs.LiteralValues
import ScopeAnalysis.Proofs.MethodHeaders
import ScopeAnalysis.Proofs.Moves
import ScopeAnalysis.Proofs.Nesting
import ScopeAnalysis.Proofs.OneLine
import ScopeAnalysis.Proofs.OneLineTables
import ScopeAnalysis.Proofs.OpenedScopes
import ScopeAnalysis.Proofs.OptionEffects
import ScopeAnalysis.Proofs.Output
import ScopeAnalysis.Proofs.OutputLines
import ScopeAnalysis.Proofs.Overloading
import ScopeAnalysis.Proofs.Padding
import ScopeAnalysis.Proofs.RegistryHistory
import ScopeAnalysis.Proofs.ReportSections
import ScopeAnalysis.Proofs.ReporterHistory
import ScopeAnalysis.Proofs.ScopeKinds
import ScopeAnalysis.Proofs.ScopeNames
import ScopeAnalysis.Proofs.ScopeRoots
import ScopeAnalysis.Proofs.SeparateBodies
import ScopeAnalysis.Proofs.Signature
import ScopeAnalysis.Proofs.SymbolStore
import ScopeAnalysis.Proofs.SymbolText
import ScopeAnalysis.Proofs.Unlimited
import ScopeAnalysis.Proofs.VariableDefinitions
import ScopeAnalysis.Proofs.Visits
import ScopeAnalysis.Proofs.WordReading
import ScopeAnalysis.Recorder
import ScopeAnalysis.Registry
import ScopeAnalysis.Report
import ScopeAnalysis.Reporter
import ScopeAnalysis.ScopeId
import ScopeAnalysis.ScopeLedger
import ScopeAnalysis.ScopeTable
import ScopeAnalysis.Sink
import ScopeAnalysis.Symbol
import ScopeAnalysis.Syntax.Declaration
import ScopeAnalysis.Syntax.Node
import ScopeAnalysis.Syntax.Statement
import ScopeAnalysis.Text.Blank
import ScopeAnalysis.Text.Decoded
import ScopeAnalysis.Text.Pieces
import ScopeAnalysis.Traversal
