import DurableGraph.Main
import DurableGraph.Proofs.Log.BoundedList
import DurableGraph.Proofs.Store.Durability
import DurableGraph.Proofs.Store.Crash
import DurableGraph.Proofs.Store.CheckpointCrash
import DurableGraph.Proofs.Graph.SetGraph
import DurableGraph.Proofs.Checkpoint.VersionedSlot
import DurableGraph.Proofs.Store.Recovery
import DurableGraph.Proofs.Store.Refinement
import DurableGraph.Proofs.Checkpoint.CommitCrash
import DurableGraph.Proofs.Record.Damage
import DurableGraph.Proofs.Store.Damage
import DurableGraph.Proofs.Store.FormatCrash
import DurableGraph.Proofs.Graph.Locality
import DurableGraph.Proofs.Graph.Clients
import DurableGraph.Proofs.Store.Clients
import DurableGraph.Proofs.Graph.BreadthFirst
import DurableGraph.Proofs.Store.Halting
import DurableGraph.Proofs.Store.Footprint
import DurableGraph.Proofs.CommandLine.SeparateRuns
import DurableGraph.Proofs.Checkpoint.Grammar
import DurableGraph.Proofs.Checkpoint.Size
import DurableGraph.Proofs.Log.Countdown
import DurableGraph.Proofs.Log.Protocol
import DurableGraph.Proofs.Checkpoint.Cursors
import DurableGraph.Proofs.Store.Replay
import DurableGraph.Proofs.Log.Failure
import DurableGraph.Proofs.Checked.Store
import DurableGraph.Proofs.Record.Format
import DurableGraph.Proofs.Record.RoundTrip
import DurableGraph.Proofs.Store.EdgeCount
import DurableGraph.Proofs.Disk.BlockArray
