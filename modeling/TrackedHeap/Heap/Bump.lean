import TrackedHeap.Heap
import TrackedHeap.Heap.Extent

/-!
# A heap that grants addresses upwards

Each range starts where the one before it ended, up to the next multiple of 16 and a gap, and no address
is ever granted twice, so a new range holds zeros. A `Plan` fixes where the first range starts and which
requests are refused; requests for new and for resized ranges are counted together, from 1. A resized
range always moves.

`BumpHeap.system` is the heap of a process: it refuses only what exceeds its address space.
-/

namespace TrackedHeap

/-- What a heap of this kind does. -/
structure BumpHeap.Plan where
  /-- The first address to be granted. -/
  base : Nat := 65536
  /-- The bytes left free between two ranges. -/
  gap : Nat := 0
  /-- The largest request that is served. -/
  limit : Nat := 16 * 1024 * 1024
  /-- The numbers of the requests that are refused. -/
  failing : List Nat := []
  /-- The numbers of the requests for a new range that are answered with the address 0. -/
  null : List Nat := []
  /-- Whether served requests for new ranges are reported. -/
  counted : Bool := false
deriving Repr

/-- A heap that never grants an address twice. -/
structure BumpHeap where
  plan : BumpHeap.Plan
  /-- The next address to be granted. -/
  next : Nat
  /-- The number of requests so far. -/
  calls : Nat := 0
  /-- The number of new ranges granted. -/
  served : Nat := 0
  /-- The ranges that have not been taken back. -/
  extents : List Extent := []
  contents : Memory := Memory.blank

namespace BumpHeap

/-- The heap before any request. -/
def ofPlan (plan : Plan) : BumpHeap where
  plan := plan
  next := plan.base

/-- The heap of a process, whose address space has less than 128 tebibytes to give. -/
def system : BumpHeap :=
  ofPlan { gap := 16, limit := 128 * 1024 * 1024 * 1024 * 1024 - 1, counted := true }

/-- The bytes between the starts of a range of `size` bytes and of the next one. -/
def Plan.stride (plan : Plan) (size : Nat) : Nat :=
  (size + 15) / 16 * 16 + plan.gap

/-- Whether the next request is refused, by the plan or for want of addresses. -/
def refuses (h : BumpHeap) (size : Nat) : Bool :=
  h.plan.failing.contains (h.calls + 1) || h.plan.limit < size || Word.limit < h.next + size

/-- The request is counted, and nothing else happens. -/
def count (h : BumpHeap) : BumpHeap :=
  { h with calls := h.calls + 1 }

/-- The next range is granted. -/
def grant (h : BumpHeap) (size : Nat) : BumpHeap :=
  { h with
    next := h.next + h.plan.stride size
    calls := h.calls + 1
    extents := Extent.insert h.extents h.next size }

def alloc (h : BumpHeap) (size : Nat) : Outcome Nat BumpHeap :=
  if h.plan.null.contains (h.calls + 1) then (.ok 0, h.count)
  else if h.refuses size then (.error (.outOfMemory size 0), h.count)
  else (.ok h.next, { h.grant size with served := h.served + 1 })

def release (h : BumpHeap) (address : Nat) : BumpHeap :=
  { h with extents := Extent.without h.extents address }

/-- The bytes of the old range are carried into the new one as far as they fit. -/
def realloc (h : BumpHeap) (address : Nat) (size : Nat) : Outcome Nat BumpHeap :=
  if h.refuses size then (.error (.outOfMemory size 0), h.count)
  else
    let old := (Extent.sizeAt? h.extents address).getD 0
    (.ok h.next,
      { (h.release address).grant size with
        contents := h.contents.copy address h.next (min old size) })

end BumpHeap

instance : Heap BumpHeap where
  alloc := BumpHeap.alloc
  release := BumpHeap.release
  realloc := BumpHeap.realloc
  fill h start length byte := { h with contents := h.contents.fill start length byte }
  store h start bytes := { h with contents := h.contents.store start bytes }
  copy h source target length := { h with contents := h.contents.copy source target length }
  copySwapped h source target length width :=
    { h with contents := h.contents.copySwapped source target length width }
  memory := BumpHeap.contents
  allocCalls h := if h.plan.counted then h.served else 0

end TrackedHeap
