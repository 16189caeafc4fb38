import ObserverLint.Allowance
import ObserverLint.Analyzer
import ObserverLint.CallSite
import ObserverLint.CommandLine.Arguments
import ObserverLint.CommandLine.Check
import ObserverLint.CommandLine.Failure
import ObserverLint.CommandLine.Help
import ObserverLint.CommandLine.Init
import ObserverLint.CommandLine.Output
import ObserverLint.CommandLine.RuleTable
import ObserverLint.CommandLine.Run
import ObserverLint.Config.Basic
import ObserverLint.Config.Decode
import ObserverLint.Config.Resolve
import ObserverLint.Diagnostic
import ObserverLint.Dialect
import ObserverLint.Disk
import ObserverLint.Glob
import ObserverLint.Ignore.Expression
import ObserverLint.Ignore.File
import ObserverLint.Ignore.Match
import ObserverLint.Ignore.Pattern
import ObserverLint.Ignore.Repository
import ObserverLint.Ignore.User
import ObserverLint.Json.Basic
import ObserverLint.Json.Decode
import ObserverLint.Json.Parser
import ObserverLint.Log
import ObserverLint.Log.Filter
import ObserverLint.Main
import ObserverLint.Oracle.Collect
import ObserverLint.Oracle.Declarations
import ObserverLint.Oracle.Expressions
import ObserverLint.Oracle.Scope
import ObserverLint.Oracle.TypeOracle
import ObserverLint.Oracle.Types
import ObserverLint.Path
import ObserverLint.Possibility
import ObserverLint.Proofs.Aliases
import ObserverLint.Proofs.Analysis
import ObserverLint.Proofs.Anchors
import ObserverLint.Proofs.Ascent
import ObserverLint.Proofs.Asides
import ObserverLint.Proofs.Bindings
import ObserverLint.Proofs.Casts
import ObserverLint.Proofs.ClassFields
import ObserverLint.Proofs.Comments
import ObserverLint.Proofs.ConfigSearch
import ObserverLint.Proofs.ConfiguredRoot
import ObserverLint.Proofs.ConfiguredSeverity
import ObserverLint.Proofs.Copies
import ObserverLint.Proofs.Counterparts
import ObserverLint.Proofs.CursorMoves
import ObserverLint.Proofs.CursorWalk
import ObserverLint.Proofs.Descent
import ObserverLint.Proofs.Destructuring
import ObserverLint.Proofs.Discovery
import ObserverLint.Proofs.Exclusion
import ObserverLint.Proofs.ExitCodes
import ObserverLint.Proofs.Gathering
import ObserverLint.Proofs.InStep
import ObserverLint.Proofs.Indifference
import ObserverLint.Proofs.Introductions
import ObserverLint.Proofs.JsonText
import ObserverLint.Proofs.Leniency
import ObserverLint.Proofs.LineNumbers
import ObserverLint.Proofs.LocalClasses
import ObserverLint.Proofs.NewArguments
import ObserverLint.Proofs.Occurrences
import ObserverLint.Proofs.Offences
import ObserverLint.Proofs.Parameters
import ObserverLint.Proofs.Paths
import ObserverLint.Proofs.Reasons
import ObserverLint.Proofs.Reassignment
import ObserverLint.Proofs.Relocation
import ObserverLint.Proofs.ReportedPaths
import ObserverLint.Proofs.Resolution
import ObserverLint.Proofs.Rows
import ObserverLint.Proofs.RuleOptions
import ObserverLint.Proofs.RuleSelection
import ObserverLint.Proofs.Settlement
import ObserverLint.Proofs.Spellings
import ObserverLint.Proofs.Traversal
import ObserverLint.Proofs.TypeLeaves
import ObserverLint.Proofs.Validity
import ObserverLint.Proofs.ViolationText
import ObserverLint.Proofs.Window
import ObserverLint.Report
import ObserverLint.Rule
import ObserverLint.Rules.Catalogue
import ObserverLint.Rules.Marker
import ObserverLint.Rules.PreferObserver
import ObserverLint.Severity
import ObserverLint.SourceFile
import ObserverLint.Text.Blank
import ObserverLint.Text.Bytes
import ObserverLint.Text.Invisible
import ObserverLint.Text.Lines
import ObserverLint.Text.Marks
import ObserverLint.Text.Quoted
import ObserverLint.Text.Search
import ObserverLint.Text.Utf8
import ObserverLint.Toml.Document
import ObserverLint.Toml.Moment
import ObserverLint.Toml.Scalar
import ObserverLint.Toml.Value
import ObserverLint.Tree.Cursor
import ObserverLint.Tree.Json
import ObserverLint.Tree.Kind
import ObserverLint.Tree.Listing
import ObserverLint.Tree.Node
import ObserverLint.Violation
import ObserverLint.Violation.Json
import ObserverLint.Walk
