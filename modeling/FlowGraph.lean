import FlowGraph.Address
import FlowGraph.Arithmetic
import FlowGraph.Behavior.Action
import FlowGraph.Behavior.Catalog
import FlowGraph.Behavior.Repertoire
import FlowGraph.Codec.Basic
import FlowGraph.Codec.Graph
import FlowGraph.Decimal.Layout
import FlowGraph.Decimal.Nearest
import FlowGraph.Decimal.Shortest
import FlowGraph.Demo.Program
import FlowGraph.Demo.Sample
import FlowGraph.Engine.Basic
import FlowGraph.Engine.Dispatch
import FlowGraph.Engine.State
import FlowGraph.Error
import FlowGraph.Graph.Basic
import FlowGraph.Graph.Edit
import FlowGraph.Graph.Interpreter
import FlowGraph.Ident
import FlowGraph.Json.Basic
import FlowGraph.Json.Printer
import FlowGraph.Json.Reader
import FlowGraph.Link.Builder
import FlowGraph.Link.Image
import FlowGraph.Link.Table
import FlowGraph.Logging.Directive
import FlowGraph.Logging.Filter
import FlowGraph.Logging.Output
import FlowGraph.Main
import FlowGraph.Notice
import FlowGraph.Pool.Basic
import FlowGraph.Pool.Registry
import FlowGraph.Pool.Store
import FlowGraph.Port
import FlowGraph.Program.Basic
import FlowGraph.Program.Compile
import FlowGraph.Program.Plan
import FlowGraph.Proofs.Behavior.Codec
import FlowGraph.Proofs.Counter
import FlowGraph.Proofs.Engine.Broadcasts
import FlowGraph.Proofs.Engine.Counting
import FlowGraph.Proofs.Engine.Depth
import FlowGraph.Proofs.Engine.Directions
import FlowGraph.Proofs.Engine.Dispatch
import FlowGraph.Proofs.Engine.Frame
import FlowGraph.Proofs.Engine.Interpretation
import FlowGraph.Proofs.Engine.Lives
import FlowGraph.Proofs.Engine.Lockstep
import FlowGraph.Proofs.Engine.Mirror
import FlowGraph.Proofs.Engine.Moments
import FlowGraph.Proofs.Engine.Nesting
import FlowGraph.Proofs.Engine.Operations
import FlowGraph.Proofs.Engine.Pairs
import FlowGraph.Proofs.Engine.Population
import FlowGraph.Proofs.Engine.Protocol
import FlowGraph.Proofs.Engine.Pulling
import FlowGraph.Proofs.Engine.Release
import FlowGraph.Proofs.Engine.Rounds
import FlowGraph.Proofs.Engine.Snapshots
import FlowGraph.Proofs.Engine.Takeover
import FlowGraph.Proofs.Engine.Trace
import FlowGraph.Proofs.Engine.Traversal
import FlowGraph.Proofs.Engine.TypedReads
import FlowGraph.Proofs.Float.Order
import FlowGraph.Proofs.Float.Rounding
import FlowGraph.Proofs.Graph.Connections
import FlowGraph.Proofs.Graph.Edits
import FlowGraph.Proofs.Graph.Flow
import FlowGraph.Proofs.Graph.Identities
import FlowGraph.Proofs.Graph.Joining
import FlowGraph.Proofs.Graph.Refitting
import FlowGraph.Proofs.Graph.Refusals
import FlowGraph.Proofs.Graph.WellFormed
import FlowGraph.Proofs.Json.RoundTrip
import FlowGraph.Proofs.Json.Tokens
import FlowGraph.Proofs.Link.Acceptance
import FlowGraph.Proofs.Link.Deeds
import FlowGraph.Proofs.Link.Layout
import FlowGraph.Proofs.Link.Loading
import FlowGraph.Proofs.Link.Lookup
import FlowGraph.Proofs.Link.Protocol
import FlowGraph.Proofs.Link.Saving
import FlowGraph.Proofs.Link.Sealing
import FlowGraph.Proofs.Lists
import FlowGraph.Proofs.Pool.Addresses
import FlowGraph.Proofs.Pool.Behaviors
import FlowGraph.Proofs.Pool.Changes
import FlowGraph.Proofs.Pool.ClosingRanks
import FlowGraph.Proofs.Pool.Compaction
import FlowGraph.Proofs.Pool.Copies
import FlowGraph.Proofs.Pool.Counts
import FlowGraph.Proofs.Pool.Encoding
import FlowGraph.Proofs.Pool.Instances
import FlowGraph.Proofs.Pool.Places
import FlowGraph.Proofs.Pool.Reached
import FlowGraph.Proofs.Pool.Release
import FlowGraph.Proofs.Pool.Requests
import FlowGraph.Proofs.Pool.Runs
import FlowGraph.Proofs.Pool.VacantShare
import FlowGraph.Proofs.Pool.WellFormed
import FlowGraph.Proofs.Program.Building
import FlowGraph.Proofs.Program.Compiling
import FlowGraph.Proofs.Program.Links
import FlowGraph.Proofs.Program.Numbering
import FlowGraph.Proofs.Program.Placement
import FlowGraph.Proofs.Program.Plan
import FlowGraph.Proofs.Program.Ports
import FlowGraph.Proofs.Program.Statistics
import FlowGraph.Settings.Basic
import FlowGraph.Settings.File
import FlowGraph.Settings.Folder
import FlowGraph.Settings.Path
import FlowGraph.Stock.Basic
import FlowGraph.Stock.Codec
import FlowGraph.Stock.Hooks
import FlowGraph.Stock.Probe
import FlowGraph.Stock.Repertoire
import FlowGraph.Table
import FlowGraph.Text.Alphanumeric
import FlowGraph.Text.Blank
import FlowGraph.Text.CharRanges
import FlowGraph.Text.Quoted
import FlowGraph.Text.Record
import FlowGraph.Text.Unprintable
import FlowGraph.Toml.Document
import FlowGraph.Toml.Quoted
import FlowGraph.Toml.Reader
