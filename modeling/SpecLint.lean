import SpecLint.Span
import SpecLint.Severity
import SpecLint.Offense
import SpecLint.RunnerSet
import SpecLint.Concrete
import SpecLint.Arena
import SpecLint.Arena.Walk
import SpecLint.Lowering
import SpecLint.Config.Basic
import SpecLint.Rule
import SpecLint.Expectation
import SpecLint.Dispatcher
import SpecLint.Json
import SpecLint.Json.Report
import SpecLint.Prefilter
import SpecLint.Decimal.Binary64
import SpecLint.Toml.Document
import SpecLint.Text.Printable
import SpecLint.Text.Quoted
import SpecLint.Config.Schema
import SpecLint.FileTree
import SpecLint.FileTree.World
import SpecLint.Config.Source
import SpecLint.Discovery
import SpecLint.Inspection
import SpecLint.Command
import SpecLint.Command.Run
import SpecLint.Concrete.Dump
import SpecLint.Main
import SpecLint.Proofs.Arena.Push
import SpecLint.Proofs.Arena.Forest
import SpecLint.Proofs.Arena.Fragment
import SpecLint.Proofs.Arena.History
import SpecLint.Proofs.Arena.Preorder
import SpecLint.Proofs.Course
import SpecLint.Proofs.Course.Scopes
import SpecLint.Proofs.Course.Texts
import SpecLint.Proofs.Replay
import SpecLint.Proofs.Replay.Nodes
import SpecLint.Proofs.Replay.Simulation
import SpecLint.Proofs.Replay.Placement
import SpecLint.Proofs.WellFormed
import SpecLint.Proofs.LocalNames
import SpecLint.Proofs.ImplicitParameters
import SpecLint.Proofs.AttachedBlocks
import SpecLint.Proofs.Calls
import SpecLint.Proofs.Coverage
import SpecLint.Proofs.Depth
import SpecLint.Proofs.Outcome
import SpecLint.Proofs.FirstReports
import SpecLint.Proofs.Reports
import SpecLint.Proofs.Detection
import SpecLint.Proofs.Compositional
import SpecLint.Proofs.Confinement
import SpecLint.Proofs.Extent
import SpecLint.Proofs.Selectors
import SpecLint.Proofs.SelectorPlaces
import SpecLint.Proofs.Correspondence
import SpecLint.Proofs.MoreRunners
import SpecLint.Proofs.Prefilter
import SpecLint.Proofs.PrettyJson
import SpecLint.Proofs.Independence
import SpecLint.Proofs.Interest
import SpecLint.Proofs.Layout
import SpecLint.Proofs.Positions
import SpecLint.Proofs.Comments
import SpecLint.Proofs.Nesting
import SpecLint.Proofs.Inspection
import SpecLint.Proofs.ReportFormats
import SpecLint.Proofs.Text.Utf8
import SpecLint.Proofs.FileTree.Paths
import SpecLint.Proofs.FileTree.Order
import SpecLint.Proofs.FileTree.Walk
import SpecLint.Proofs.Keyed
import SpecLint.Proofs.Discovery
import SpecLint.Proofs.SpecFiles
import SpecLint.Proofs.FileTree.Display
import SpecLint.Proofs.RelativePaths
import SpecLint.Proofs.ShownPaths
import SpecLint.Proofs.Toml.DistinctKeys
import SpecLint.Proofs.Config.Acceptance
import SpecLint.Proofs.Config.Precedence
