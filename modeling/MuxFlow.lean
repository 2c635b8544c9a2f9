import MuxFlow.BitSet
import MuxFlow.Command.Flag
import MuxFlow.Command.Line
import MuxFlow.Command.Run
import MuxFlow.Config
import MuxFlow.Continuation.Annotate
import MuxFlow.Continuation.Branching
import MuxFlow.Continuation.Divergence
import MuxFlow.Continuation.ForMux
import MuxFlow.Continuation.InputPaths
import MuxFlow.Continuation.Recursion
import MuxFlow.Distinct
import MuxFlow.Document.Basic
import MuxFlow.Document.Build
import MuxFlow.Document.Encode
import MuxFlow.Document.Field
import MuxFlow.Document.File
import MuxFlow.Document.Yaml
import MuxFlow.Fault
import MuxFlow.FileSystem
import MuxFlow.Graph.Basic
import MuxFlow.Graph.Builder
import MuxFlow.Graph.Edge
import MuxFlow.Graph.Node
import MuxFlow.Json.Reader
import MuxFlow.Json.Value
import MuxFlow.Json.Writer
import MuxFlow.Main
import MuxFlow.Number.Binary64
import MuxFlow.Number.Layout
import MuxFlow.Number.Shortest
import MuxFlow.Number.Whole
import MuxFlow.Options
import MuxFlow.Screen.Explorer
import MuxFlow.Screen.Listing
import MuxFlow.Screen.TextField
import MuxFlow.Screen.Theme
import MuxFlow.TaskGroup
import MuxFlow.Text.Distance
import MuxFlow.Text.LowerCase
import MuxFlow.Text.Pieces
import MuxFlow.Text.Printable
import MuxFlow.Text.Quoted
import MuxFlow.Text.Source
import MuxFlow.Text.Template
import MuxFlow.Text.Width
import MuxFlow.Total
import MuxFlow.Walk.Back
import MuxFlow.Walk.Path
import MuxFlow.Yaml.Cursor
import MuxFlow.Yaml.Node
import MuxFlow.Yaml.Node.OfTokens
import MuxFlow.Yaml.Scalar
import MuxFlow.Yaml.Serial
import MuxFlow.Yaml.Style
import MuxFlow.Yaml.Timestamp
import MuxFlow.Yaml.Token.Basic
import MuxFlow.Yaml.Token.Block
import MuxFlow.Yaml.Token.Plain
import MuxFlow.Yaml.Token.Quoted
import MuxFlow.Yaml.Token.Stream
import MuxFlow.Yaml.Token.Tag
import MuxFlow.Yaml.Writer
import MuxFlow.Proofs.Graph.Placement
import MuxFlow.Proofs.Except
import MuxFlow.Proofs.Graph.Assembly
import MuxFlow.Proofs.Annotate.Stages
import MuxFlow.Proofs.Annotate.Delta
import MuxFlow.Proofs.BitSet
import MuxFlow.Proofs.Continuation.Divergence
import MuxFlow.Proofs.Continuation.Likeness
import MuxFlow.Proofs.Annotate.Twin
import MuxFlow.Proofs.Annotate.Rerun
import MuxFlow.Proofs.Annotate.Links
import MuxFlow.Proofs.Walk.Enumerate
import MuxFlow.Proofs.Walk.Chain
import MuxFlow.Proofs.Walk.Arena
import MuxFlow.Proofs.Walk.Search
import MuxFlow.Proofs.Walk.Ending
import MuxFlow.Proofs.Continuation.Paths
import MuxFlow.Proofs.Continuation.Findings
import MuxFlow.Proofs.Annotate.Refusal
import MuxFlow.Proofs.Continuation.Blindness
import MuxFlow.Proofs.Annotate.Parts
import MuxFlow.Proofs.Json.Literal
import MuxFlow.Proofs.Json.RoundTrip
import MuxFlow.Proofs.Document.Entries
import MuxFlow.Proofs.Document.RoundTrip
import MuxFlow.Proofs.Document.Reload
import MuxFlow.Proofs.Graph.Calls
import MuxFlow.Proofs.Graph.Tables
import MuxFlow.Proofs.Annotate.Parallel
import MuxFlow.Proofs.Screen.Browsing
import MuxFlow.Proofs.Yaml.Notation
import MuxFlow.Proofs.Continuation.Leaving
import MuxFlow.Proofs.Continuation.Joins
import MuxFlow.Proofs.Continuation.Blocks
import MuxFlow.Proofs.Continuation.Nearest
import MuxFlow.Proofs.Continuation.Shape
import MuxFlow.Proofs.Continuation.Confinement
import MuxFlow.Proofs.Continuation.Splits
import MuxFlow.Proofs.Continuation.InsertionOrder
import MuxFlow.Proofs.Graph.Repair
import MuxFlow.Proofs.Continuation.Segments
import MuxFlow.Proofs.FileSystem
import MuxFlow.Proofs.Command.Delivery
import MuxFlow.Proofs.Config
import MuxFlow.Proofs.Yaml.Ending
import MuxFlow.Proofs.BitSet.Listing
import MuxFlow.Proofs.BitSet.Refinement
