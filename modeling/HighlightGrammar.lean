import HighlightGrammar.Binary64
import HighlightGrammar.Command.Arguments
import HighlightGrammar.Command.Basic
import HighlightGrammar.Command.Run
import HighlightGrammar.Command.Session
import HighlightGrammar.Config.Basic
import HighlightGrammar.Config.Find
import HighlightGrammar.Config.Read
import HighlightGrammar.Decimal
import HighlightGrammar.Diagnostic
import HighlightGrammar.Event
import HighlightGrammar.Files.Error
import HighlightGrammar.Files.Path
import HighlightGrammar.Files.Tree
import HighlightGrammar.Generate.Error
import HighlightGrammar.Generate.Language
import HighlightGrammar.Generate.Text
import HighlightGrammar.Grammar.Basic
import HighlightGrammar.Grammar.Bracket
import HighlightGrammar.Grammar.Load
import HighlightGrammar.Grammar.LoadError
import HighlightGrammar.Grammar.Schema
import HighlightGrammar.Grammar.Validate
import HighlightGrammar.Grammar.Weight
import HighlightGrammar.Graph.Basic
import HighlightGrammar.Graph.BreakSet
import HighlightGrammar.Graph.Component
import HighlightGrammar.Graph.Plan
import HighlightGrammar.Graph.Schedule
import HighlightGrammar.Host
import HighlightGrammar.Iteration
import HighlightGrammar.Json.Basic
import HighlightGrammar.Json.Fault
import HighlightGrammar.Json.Printer
import HighlightGrammar.Json.Reader
import HighlightGrammar.Main
import HighlightGrammar.Proofs.Breaks
import HighlightGrammar.Proofs.Collections
import HighlightGrammar.Proofs.Components
import HighlightGrammar.Proofs.Reachability
import HighlightGrammar.Proofs.Schedule
import HighlightGrammar.Proofs.Search
import HighlightGrammar.Report
import HighlightGrammar.Schema
import HighlightGrammar.SortedMap
import HighlightGrammar.Swift.Expansion
import HighlightGrammar.Swift.Expr
import HighlightGrammar.Swift.File
import HighlightGrammar.Swift.Mode
import HighlightGrammar.Text.Blank
import HighlightGrammar.Text.Case
import HighlightGrammar.Text.CaseTable
import HighlightGrammar.Text.HiddenTable
import HighlightGrammar.Text.Position
import HighlightGrammar.Text.Quoted
import HighlightGrammar.Text.Scanned
import HighlightGrammar.Toml.Basic
import HighlightGrammar.Toml.Draft
import HighlightGrammar.Toml.Reader
import HighlightGrammar.Toml.Scalar
import HighlightGrammar.World
import HighlightGrammar.Proofs.Plan
import HighlightGrammar.Proofs.Trees
import HighlightGrammar.Proofs.Unfolding
import HighlightGrammar.Proofs.Calls
import HighlightGrammar.Proofs.Invariance
import HighlightGrammar.Proofs.Naming
import HighlightGrammar.Proofs.Faithful
import HighlightGrammar.Proofs.Quotation
import HighlightGrammar.Proofs.Rewording
import HighlightGrammar.Proofs.Resolution
import HighlightGrammar.Proofs.Safety
import HighlightGrammar.Proofs.Sufficiency
import HighlightGrammar.Proofs.Cycles
import HighlightGrammar.Proofs.WellFormed
import HighlightGrammar.Proofs.Ancestors
import HighlightGrammar.Proofs.Places
import HighlightGrammar.Proofs.Writing
import HighlightGrammar.Proofs.Reading
import HighlightGrammar.Proofs.NormalForm
import HighlightGrammar.Proofs.Residual
import HighlightGrammar.Proofs.LeastOrder
import HighlightGrammar.Proofs.Inlining
import HighlightGrammar.Proofs.Nesting
import HighlightGrammar.Proofs.Patterns
import HighlightGrammar.Proofs.Violations
import HighlightGrammar.Proofs.Reporting
import HighlightGrammar.Proofs.FirstViolation
import HighlightGrammar.Proofs.SelfReference
import HighlightGrammar.Proofs.ValidationOrder
import HighlightGrammar.Proofs.Reordering
import HighlightGrammar.Proofs.Markers
import HighlightGrammar.Proofs.EdgeKeys
import HighlightGrammar.Proofs.PlainWords
import HighlightGrammar.Proofs.CaptureGroups
import HighlightGrammar.Proofs.Counting
import HighlightGrammar.Proofs.Discipline
