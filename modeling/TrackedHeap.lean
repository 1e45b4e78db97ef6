import TrackedHeap.Form.CopyMode
import TrackedHeap.Form.Error
import TrackedHeap.Main
import TrackedHeap.Workspace.Request
import TrackedHeap.Form.Config
import TrackedHeap.Proofs.Workspace.Steps
import TrackedHeap.Proofs.Heap.Bump
import TrackedHeap.Proofs.Heap.Recorded
import TrackedHeap.Proofs.Workspace.Contract
import TrackedHeap.Proofs.Tracker.Isolation
import TrackedHeap.Proofs.Workspace.Isolation
import TrackedHeap.Proofs.Carver.Coalesced
import TrackedHeap.Proofs.Carver.Buddy
import TrackedHeap.Proofs.Ownership.Basic
import TrackedHeap.Proofs.Ownership.Buddy
import TrackedHeap.Proofs.Carver.Occupancy
import TrackedHeap.Proofs.Ownership.Slab
import TrackedHeap.Proofs.Ownership.Sequence
import TrackedHeap.Proofs.Ownership.Hybrid
import TrackedHeap.Proofs.Ownership.ObjectPool
import TrackedHeap.Proofs.Ownership.Carver
import TrackedHeap.Proofs.Ownership.Estate
import TrackedHeap.Proofs.Ownership.Pool
import TrackedHeap.Proofs.Workspace.Estate
import TrackedHeap.Proofs.Workspace.Session
import TrackedHeap.Proofs.Carver.Partition
import TrackedHeap.Proofs.Heap.NonNull
import TrackedHeap.Proofs.Tracker.Refusal
import TrackedHeap.Proofs.Tracker.NonNull
import TrackedHeap.Proofs.Tracker.Accounting
import TrackedHeap.Proofs.Tracker.Stale
import TrackedHeap.Proofs.Workspace.Accounting
import TrackedHeap.Proofs.Workspace.Stale
import TrackedHeap.Proofs.Carver.Refusal
import TrackedHeap.Proofs.Workspace.Refusal
import TrackedHeap.Proofs.Ownership.Usage
import TrackedHeap.Proofs.Ownership.Release
import TrackedHeap.Proofs.Ownership.Exact
import TrackedHeap.Proofs.Workspace.Usage
import TrackedHeap.Proofs.Heap.Budgeted
import TrackedHeap.Proofs.Heap.Accounts
import TrackedHeap.Proofs.Tracker.Budget
import TrackedHeap.Proofs.Pool.Run
import TrackedHeap.Proofs.Pool.Shape
import TrackedHeap.Proofs.ObjectPool.Run
import TrackedHeap.Proofs.ObjectPool.Lending
import TrackedHeap.Proofs.Workspace.Members
import TrackedHeap.Proofs.Workspace.Waiting
import TrackedHeap.Proofs.Pool.Conservation
import TrackedHeap.Proofs.Carver.Construction
import TrackedHeap.Proofs.Workspace.Construction
import TrackedHeap.Proofs.Twin.Basic
import TrackedHeap.Proofs.Twin.Growing
import TrackedHeap.Proofs.Twin.Carver
import TrackedHeap.Proofs.Twin.Blank
import TrackedHeap.Proofs.Twin.Reset
import TrackedHeap.Proofs.Heap.Journaled
import TrackedHeap.Proofs.Teardown.Tidy
import TrackedHeap.Proofs.Teardown.Charge
import TrackedHeap.Proofs.Teardown.Stores
import TrackedHeap.Proofs.Teardown.Supply
import TrackedHeap.Proofs.Teardown.Drops
import TrackedHeap.Proofs.Teardown.Close
import TrackedHeap.Proofs.Workspace.Origin
import TrackedHeap.Proofs.Workspace.Reuse
import TrackedHeap.Proofs.Tracker.Access
import TrackedHeap.Proofs.Workspace.Access
import TrackedHeap.Proofs.Carver.Slab
import TrackedHeap.Proofs.Carver.Run
import TrackedHeap.Proofs.Carver.Hybrid
import TrackedHeap.Proofs.Carver.Tally
import TrackedHeap.Proofs.Carver.Aligned
import TrackedHeap.Proofs.Json.Token
import TrackedHeap.Proofs.Json.RoundTrip
import TrackedHeap.Proofs.Json.Sized
import TrackedHeap.Proofs.Form.Reader
import TrackedHeap.Proofs.Form.Values
import TrackedHeap.Proofs.Form.Stats
import TrackedHeap.Proofs.Form.RoundTrip
import TrackedHeap.Proofs.Config.Spelling
import TrackedHeap.Proofs.Config.Assignment
import TrackedHeap.Proofs.Tracker.Resize
import TrackedHeap.Proofs.Workspace.Resize
import TrackedHeap.Proofs.Tracker.Leaks
import TrackedHeap.Proofs.Workspace.Leaks
import TrackedHeap.Proofs.Carver.Outstanding
import TrackedHeap.Proofs.Carver.BestFit
import TrackedHeap.Proofs.Heap.Staged
import TrackedHeap.Proofs.Tracker.Copy
import TrackedHeap.Proofs.Workspace.Copy
import TrackedHeap.Proofs.Carver.Detached
import TrackedHeap.Proofs.Carver.FirstFit
import TrackedHeap.Proofs.Carver.Layout
import TrackedHeap.Proofs.Tracker.Compare
import TrackedHeap.Proofs.Workspace.Compare
import TrackedHeap.Proofs.Heap.Oblivious
import TrackedHeap.Proofs.Tracker.Stored
import TrackedHeap.Proofs.Tracker.Alike
import TrackedHeap.Proofs.Pool.Alike
import TrackedHeap.Proofs.Pool.Recycled
import TrackedHeap.Proofs.ObjectPool.Account
import TrackedHeap.Proofs.ObjectPool.Peak
import TrackedHeap.Proofs.ObjectPool.Capacity
import TrackedHeap.Proofs.Carver.CellSet
import TrackedHeap.Proofs.Checked.Run
import TrackedHeap.Proofs.Checked.Crowd
