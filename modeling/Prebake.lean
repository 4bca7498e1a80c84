import Prebake.Main
import Prebake.Proofs.Registry.Cycles
import Prebake.Proofs.Registry.Validity
import Prebake.Proofs.NameMap
import Prebake.Proofs.Registry.Forest
import Prebake.Proofs.Evaluation
import Prebake.Proofs.Registry.Places
import Prebake.Proofs.Rendering
import Prebake.Proofs.Progress.Retry
import Prebake.Proofs.Progress.Settled
import Prebake.Proofs.Progress.Visit
import Prebake.Proofs.Resolution
import Prebake.Proofs.OnePass
import Prebake.Proofs.Markup.Neutralize
import Prebake.Proofs.Markup.Escape
import Prebake.Proofs.Markup.Writer
import Prebake.Proofs.Markup.Written
import Prebake.Proofs.Element
import Prebake.Proofs.Markup.Slots
import Prebake.Proofs.Manifest
import Prebake.Proofs.Registry.Partition
import Prebake.Proofs.Coverage
import Prebake.Proofs.Outcome
import Prebake.Proofs.Document
import Prebake.Proofs.Markup.Node
import Prebake.Proofs.Structure
import Prebake.Proofs.Value.Segments
import Prebake.Proofs.Value.Filling
import Prebake.Proofs.Filling
import Prebake.Proofs.Culprit
import Prebake.Proofs.Progress.Deferrals
import Prebake.Proofs.Statistics
import Prebake.Proofs.Progress.Log
import Prebake.Proofs.Bubbling
import Prebake.Proofs.Value.Renaming
import Prebake.Proofs.Renaming
import Prebake.Proofs.Markup.Template
import Prebake.Proofs.Template
import Prebake.Proofs.Registry.Renaming
import Prebake.Proofs.Progress.Pattern
import Prebake.Proofs.Opacity
import Prebake.Proofs.Expr.Names
import Prebake.Proofs.Owners
import Prebake.Proofs.Registry.Relabelling
import Prebake.Proofs.Relabelling
import Prebake.Proofs.Registry.Selection
import Prebake.Proofs.Policies
import Prebake.Proofs.Markup.Underscores
import Prebake.Proofs.Strays
import Prebake.Proofs.FileTree.Growth
import Prebake.Proofs.FileTree.Paths
import Prebake.Proofs.FileTree.Writing
import Prebake.Proofs.Discovery
import Prebake.Proofs.Config
import Prebake.Proofs.Command
import Prebake.Proofs.Repetition
import Prebake.Proofs.Errors
import Prebake.Proofs.Nesting
import Prebake.Proofs.Interruption
import Prebake.Proofs.Finality
import Prebake.Proofs.OptionalChain
import Prebake.Proofs.Registry.Descent
import Prebake.Proofs.Value.Comparison
import Prebake.Proofs.Markup.Decode
import Prebake.Proofs.Markup.Openings
import Prebake.Proofs.Value.Ordering
import Prebake.Proofs.Number.Decimal
import Prebake.Proofs.Number.Numeric
import Prebake.Proofs.Number.Reading
import Prebake.Proofs.Value.Member
import Prebake.Proofs.Markup.Obstacles
import Prebake.Proofs.AtOnce
import Prebake.Proofs.Value.Texts
import Prebake.Proofs.Texts
import Prebake.Proofs.Joining
import Prebake.Proofs.Markup.Substitution
import Prebake.Proofs.Value.Positions
import Prebake.Proofs.StartTag
import Prebake.Proofs.Routes
import Prebake.Proofs.Json.Scalar
import Prebake.Proofs.Json.Reader
import Prebake.Proofs.Json.RoundTrip
import Prebake.Proofs.Output
import Prebake.Proofs.Departures
import Prebake.Proofs.Climbing
