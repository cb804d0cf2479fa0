import NumaHeap.Arena.Block
import NumaHeap.Arena.Chain
import NumaHeap.Arena.Pool
import NumaHeap.Arena.Stats
import NumaHeap.Configuration
import NumaHeap.Decimal.Shortest
import NumaHeap.Duration
import NumaHeap.Error
import NumaHeap.Heap.Allocate
import NumaHeap.Heap.Basic
import NumaHeap.Heap.Release
import NumaHeap.Heap.Signals
import NumaHeap.Kind
import NumaHeap.Large
import NumaHeap.Lockstep.Checkpoint
import NumaHeap.Lockstep.Machine
import NumaHeap.Lockstep.Program
import NumaHeap.Lockstep.Rounds
import NumaHeap.Memory
import NumaHeap.Platform.Basic
import NumaHeap.Platform.Simulated
import NumaHeap.Proofs.Arena.Chain
import NumaHeap.Proofs.Arena.Denial
import NumaHeap.Proofs.Arena.Pool
import NumaHeap.Proofs.Arena.Serve
import NumaHeap.Proofs.Arena.State
import NumaHeap.Proofs.Arena.Teardown
import NumaHeap.Proofs.Extent
import NumaHeap.Proofs.Heap.Action
import NumaHeap.Proofs.Heap.Chronicle
import NumaHeap.Proofs.Heap.Contents
import NumaHeap.Proofs.Heap.Custody
import NumaHeap.Proofs.Heap.Denial
import NumaHeap.Proofs.Heap.Entries
import NumaHeap.Proofs.Heap.Handled
import NumaHeap.Proofs.Heap.Handout
import NumaHeap.Proofs.Heap.Homed
import NumaHeap.Proofs.Heap.Inspection
import NumaHeap.Proofs.Heap.Isolation
import NumaHeap.Proofs.Heap.Moves
import NumaHeap.Proofs.Heap.Outcome
import NumaHeap.Proofs.Heap.Receipts
import NumaHeap.Proofs.Heap.Reclaim
import NumaHeap.Proofs.Heap.Refusal
import NumaHeap.Proofs.Heap.Retry
import NumaHeap.Proofs.Heap.Release
import NumaHeap.Proofs.Heap.Request
import NumaHeap.Proofs.Heap.Secured
import NumaHeap.Proofs.Heap.Takeback
import NumaHeap.Proofs.Heap.Usage
import NumaHeap.Proofs.Heap.World
import NumaHeap.Proofs.Large
import NumaHeap.Proofs.Memory
import NumaHeap.Proofs.Parts
import NumaHeap.Proofs.Platform.Contract
import NumaHeap.Proofs.Platform.History
import NumaHeap.Proofs.Platform.Journal
import NumaHeap.Proofs.Platform.Simulated
import NumaHeap.Proofs.Platform.Trades
import NumaHeap.Proofs.Size.PowerOfTwo
import NumaHeap.Proofs.Slab.Basic
import NumaHeap.Proofs.Slab.Cell
import NumaHeap.Proofs.Slab.FreeList
import NumaHeap.Proofs.Slab.Home
import NumaHeap.Proofs.Slab.Recycle
import NumaHeap.Proofs.Slab.Stock
import NumaHeap.Proofs.Supply
import NumaHeap.Ratio
import NumaHeap.Region
import NumaHeap.Report.Basic
import NumaHeap.Report.Error
import NumaHeap.Report.Name
import NumaHeap.Report.Statistics
import NumaHeap.Security.Mode
import NumaHeap.Security.Signature
import NumaHeap.Session.Allocator
import NumaHeap.Session.Basic
import NumaHeap.Session.Command
import NumaHeap.Session.Ledger
import NumaHeap.Session.Pattern
import NumaHeap.Size.Class
import NumaHeap.Size.PowerOfTwo
import NumaHeap.Size.Word
import NumaHeap.Slab.Basic
import NumaHeap.Slab.Cell
import NumaHeap.Slab.FreeList
import NumaHeap.Telemetry.Counters
import NumaHeap.Telemetry.Pressure
import NumaHeap.Text.Blank
import NumaHeap.Text.Field
import NumaHeap.Text.Hex
import NumaHeap.Topology.Basic
import NumaHeap.Topology.CpuList
import NumaHeap.Topology.MemInfo
import NumaHeap.Proofs.Slab.History
import NumaHeap.Proofs.Slab.Carved
import NumaHeap.Proofs.Slab.World
import NumaHeap.Proofs.Slab.Refinement
import NumaHeap.Proofs.Slab.Balance
import NumaHeap.Proofs.Arena.Standing
import NumaHeap.Proofs.Arena.World
import NumaHeap.Proofs.Arena.Ownership
import NumaHeap.Proofs.Arena.Replay
import NumaHeap.Proofs.Arena.Rerun
import NumaHeap.Proofs.Large.Refinement
import NumaHeap.Proofs.Heap.Integrity
import NumaHeap.Proofs.Platform.Watched
import NumaHeap.Proofs.Arena.Rebase
import NumaHeap.Proofs.Arena.Terms
import NumaHeap.Proofs.Arena.Schedule
import NumaHeap.Proofs.Platform.Guise
import NumaHeap.Proofs.Platform.Abreast
import NumaHeap.Proofs.Arena.Guise
import NumaHeap.Proofs.Slab.Guise
import NumaHeap.Proofs.Heap.Guise
import NumaHeap.Proofs.Heap.Services
import NumaHeap.Proofs.Lockstep.Rounds
import NumaHeap.Proofs.Lockstep.Moves
import NumaHeap.Proofs.Lockstep.World
import NumaHeap.Proofs.Lockstep.Order
import NumaHeap.Proofs.Lockstep.Sequential
import NumaHeap.Proofs.Slab.Footprint
import NumaHeap.Proofs.Topology
import NumaHeap.Proofs.Size.Checked
import NumaHeap.Proofs.Platform.Bounded
import NumaHeap.Proofs.Arena.Indexed
import NumaHeap.Proofs.Arena.Checked
import NumaHeap.Proofs.Security.Checked
import NumaHeap.Proofs.Slab.Checked
import NumaHeap.Proofs.Large.Checked
import NumaHeap.Proofs.Heap.Furnished
import NumaHeap.Proofs.Heap.Checked
import NumaHeap.Proofs.Heap.Errors
import NumaHeap.Proofs.Heap.Faultless
import NumaHeap.Proofs.Security.Scan
import NumaHeap.Proofs.Arena.Turns
import NumaHeap.Proofs.Arena.Room
import NumaHeap.Proofs.Arena.Consumed
import NumaHeap.Proofs.Arena.Spent
import NumaHeap.Proofs.Ratio
import NumaHeap.Proofs.Arena.Audit
import NumaHeap.Proofs.Security.Strictness
import NumaHeap.Proofs.Telemetry.History
import NumaHeap.Proofs.Telemetry.Checks
import NumaHeap.Proofs.Telemetry.Raises
import NumaHeap.Proofs.Topology.Described
import NumaHeap.Lockstep.Crew
import NumaHeap.Proofs.Text
import NumaHeap.Proofs.Topology.Written
import NumaHeap.Proofs.Arena.Bump
import NumaHeap.Proofs.Slab.Stack
import NumaHeap.Proofs.Lockstep.Crew
import NumaHeap.Proofs.Lockstep.Liveness
import NumaHeap.Proofs.Lockstep.Staffed
import NumaHeap.Proofs.Size.Multiple
import NumaHeap.Proofs.Size.Fit
import NumaHeap.Proofs.Size.Register
import NumaHeap.Proofs.Slab.Layout
