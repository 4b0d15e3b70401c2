import CommunityGraph.Datum.Json
import CommunityGraph.Description.Document
import CommunityGraph.Description.Graph
import CommunityGraph.Description.Progress
import CommunityGraph.Main
import CommunityGraph.Settings.Json
import CommunityGraph.Signals
import CommunityGraph.Storage.PagedArray
import CommunityGraph.Proofs.Codec.Packing
import CommunityGraph.Proofs.Codec.Varlong
import CommunityGraph.Proofs.Adjacency.Cursor
import CommunityGraph.Proofs.Adjacency.Columns
import CommunityGraph.Proofs.Adjacency.Compressor
import CommunityGraph.Proofs.Adjacency.Compression
import CommunityGraph.Proofs.Adjacency.Session
import CommunityGraph.Proofs.Adjacency.RoundTrip
import CommunityGraph.Proofs.Staging.StagedList
import CommunityGraph.Proofs.Batch.Queue
import CommunityGraph.Proofs.Staging.AdjacencyBuffer
import CommunityGraph.Proofs.Staging.Compress
import CommunityGraph.Proofs.SlotPool
import CommunityGraph.Proofs.Staging.LocalBuffer
import CommunityGraph.Proofs.Builder.Slots
import CommunityGraph.Proofs.Builder.Refinement
import CommunityGraph.Proofs.Builder.Calls
import CommunityGraph.Proofs.Builder.Build
import CommunityGraph.Proofs.Builder.Reading
import CommunityGraph.Proofs.Builder.Arrival
import CommunityGraph.Proofs.Builder.Transpose
import CommunityGraph.Proofs.Builder.Correctness
import CommunityGraph.Proofs.Builder.Symmetry
import CommunityGraph.Proofs.Numbering
import CommunityGraph.Proofs.DisjointSet
import CommunityGraph.Proofs.Run
import CommunityGraph.Proofs.Batch.Coverage
import CommunityGraph.Proofs.Graph.Linked
import CommunityGraph.Proofs.Graph.Reading
import CommunityGraph.Proofs.Components
import CommunityGraph.Proofs.Modularity
import CommunityGraph.Proofs.Louvain.Rebuild
import CommunityGraph.Proofs.Louvain.Derived
import CommunityGraph.Proofs.Louvain.LocalMoving
import CommunityGraph.Proofs.Louvain.Merging
import CommunityGraph.Proofs.Louvain.Levels
import CommunityGraph.Proofs.Louvain.Hierarchy
import CommunityGraph.Proofs.Louvain.Connectivity
import CommunityGraph.Proofs.Louvain.Modularities
import CommunityGraph.Proofs.Steps
import CommunityGraph.Proofs.Steps.Programs
import CommunityGraph.Proofs.Stopping
import CommunityGraph.Proofs.Entries
import CommunityGraph.Proofs.DisjointSet.Operations
import CommunityGraph.Proofs.DisjointSet.Questions
import CommunityGraph.Proofs.DisjointSet.Height
import CommunityGraph.Proofs.Louvain.Presentation
import CommunityGraph.Proofs.Louvain.States
import CommunityGraph.Proofs.Louvain.Sharing
import CommunityGraph.Proofs.Builder.Direct
import CommunityGraph.Proofs.Text.Words
import CommunityGraph.Proofs.Graph.Lines
import CommunityGraph.Proofs.Decimal.Literal
import CommunityGraph.Proofs.Graph.Rendering
import CommunityGraph.Proofs.Graph.Loading
import CommunityGraph.Proofs.Storage.Tiling
import CommunityGraph.Proofs.Storage.Publishing
import CommunityGraph.Proofs.Storage.PagedArray
import CommunityGraph.Proofs.Builder.Finite
import CommunityGraph.Proofs.Logging
import CommunityGraph.Proofs.Builder.Lifecycle
import CommunityGraph.Proofs.IdMap
import CommunityGraph.Proofs.Graph.Unheaded
import CommunityGraph.Proofs.Coloring
import CommunityGraph.Proofs.Louvain.Collapse
import CommunityGraph.Proofs.Ranks
import CommunityGraph.Proofs.Louvain.Choosing
import CommunityGraph.Proofs.Louvain.Gain
import CommunityGraph.Proofs.Louvain.Bookkeeping
import CommunityGraph.Proofs.Batch.Draining
import CommunityGraph.Proofs.Batch.Volume
import CommunityGraph.Proofs.Batch.Turns
import CommunityGraph.Proofs.Builder.OneSlot
import CommunityGraph.Proofs.Graph.Queries
import CommunityGraph.Proofs.Graph.Faults
import CommunityGraph.Proofs.Modularity.Bounds
import CommunityGraph.Proofs.Phases
import CommunityGraph.Proofs.Phases.Programs
import CommunityGraph.Proofs.Progress
import CommunityGraph.Proofs.Progress.Programs
import CommunityGraph.Proofs.Progress.Announced
import CommunityGraph.Proofs.Adjacency.Traversal
import CommunityGraph.Proofs.Staging.StagedPage
import CommunityGraph.Proofs.Staging.Walk
import CommunityGraph.Proofs.Staging.Intake
import CommunityGraph.Proofs.SlotPool.Calls
import CommunityGraph.Proofs.SlotPool.Leasing
