import LiveQuery.Main
import LiveQuery.Simulation
import LiveQuery.Wire.Size
import LiveQuery.Proofs.DocumentOrder
import LiveQuery.Proofs.Path
import LiveQuery.Proofs.DatabaseName
import LiveQuery.Proofs.Placement
import LiveQuery.Proofs.DocumentSet
import LiveQuery.Proofs.EditHistory
import LiveQuery.Proofs.Diff
import LiveQuery.Proofs.PendingChanges
import LiveQuery.Proofs.Worker
import LiveQuery.Proofs.Materialization
import LiveQuery.Proofs.Reaction
import LiveQuery.Proofs.Run
import LiveQuery.Proofs.SnapshotChain
import LiveQuery.Proofs.Connection
import LiveQuery.Proofs.FreshStart
import LiveQuery.Proofs.Resumption
import LiveQuery.Proofs.Outlook
import LiveQuery.Proofs.Accumulation
import LiveQuery.Proofs.DiffShape
import LiveQuery.Proofs.Schedule
import LiveQuery.Proofs.Closing
import LiveQuery.Proofs.Listener
import LiveQuery.Proofs.Removal
import LiveQuery.Proofs.ConsistentPoint
import LiveQuery.Proofs.Lifecycle
import LiveQuery.Proofs.FilterStreak
import LiveQuery.Proofs.FatalInput
import LiveQuery.Proofs.Pacing
import LiveQuery.Proofs.Replacement
import LiveQuery.Proofs.Layering
import LiveQuery.Proofs.AsWritten
import LiveQuery.Proofs.Wire.RoundTrip
import LiveQuery.Proofs.Wire.AddTarget
import LiveQuery.Proofs.Wire.UnknownField
import LiveQuery.Proofs.Growth
import LiveQuery.Proofs.Jitter
import LiveQuery.Proofs.UnlimitedFilters
