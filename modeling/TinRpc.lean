import TinRpc.Proofs.Accounts
import TinRpc.Proofs.ActiveConnections
import TinRpc.Proofs.Aliasing
import TinRpc.Proofs.Answers
import TinRpc.Proofs.Apart
import TinRpc.Proofs.Authentication
import TinRpc.Proofs.Bindings
import TinRpc.Proofs.Blocks
import TinRpc.Proofs.BufferRuns
import TinRpc.Proofs.Buildings
import TinRpc.Proofs.CatchUp
import TinRpc.Proofs.Chunks
import TinRpc.Proofs.Closing
import TinRpc.Proofs.Completions
import TinRpc.Proofs.Corrections
import TinRpc.Proofs.Correlation
import TinRpc.Proofs.DbWorker
import TinRpc.Proofs.Deadlines
import TinRpc.Proofs.Decoders
import TinRpc.Proofs.Departures
import TinRpc.Proofs.Dispatch
import TinRpc.Proofs.Display
import TinRpc.Proofs.Encoders
import TinRpc.Proofs.FindMatch
import TinRpc.Proofs.Gaps
import TinRpc.Proofs.Hangups
import TinRpc.Proofs.Impersonation
import TinRpc.Proofs.Inheritance
import TinRpc.Proofs.Intents
import TinRpc.Proofs.Leaks
import TinRpc.Proofs.Ledger
import TinRpc.Proofs.LifeCycle
import TinRpc.Proofs.Link
import TinRpc.Proofs.Lockstep
import TinRpc.Proofs.Movement
import TinRpc.Proofs.Notices
import TinRpc.Proofs.Owners
import TinRpc.Proofs.Pairs
import TinRpc.Proofs.Persistence
import TinRpc.Proofs.Placements
import TinRpc.Proofs.Poses
import TinRpc.Proofs.QueueOrder
import TinRpc.Proofs.Reconciliation
import TinRpc.Proofs.RequestCounts
import TinRpc.Proofs.Requests
import TinRpc.Proofs.Returns
import TinRpc.Proofs.Rooms
import TinRpc.Proofs.Rounds
import TinRpc.Proofs.SavedFrames
import TinRpc.Proofs.Scenery
import TinRpc.Proofs.Serializer
import TinRpc.Proofs.Suppression
import TinRpc.Proofs.ThreadPool
import TinRpc.Proofs.TickChain
import TinRpc.Proofs.Timers
import TinRpc.Proofs.Views
import TinRpc.Proofs.Voxel
import TinRpc.Proofs.VoxelEdits
import TinRpc.Proofs.Wire
import TinRpc.Proofs.Yields
