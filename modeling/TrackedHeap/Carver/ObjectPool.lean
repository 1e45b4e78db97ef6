import TrackedHeap.Carver.Basic
import TrackedHeap.Tracker.Allocation

/-!
# Object pools

Every range is a whole block of the tracker. A block that comes back waits for the next request of its
size; a request takes the block of its size that has waited longest, and a new one only if none waits and
the capacity allows it. A block counts against the capacity from when it was taken until a reset returns
it to the tracker.
-/

namespace TrackedHeap

/-- Blocks that are kept for reuse by size. -/
structure ObjectPool where
  alignment : Alignment
  total : Nat
  /-- The bytes of all blocks taken from the tracker and not returned to it. -/
  used : Nat := 0
  /-- The ids of those blocks. -/
  owned : List Nat := []
  /-- The ranges that wait for reuse, in the order in which they came back. -/
  queued : List CarveOut := []
  /-- The bytes that clients have. -/
  allocated : Nat := 0
  tally : Tally := {}

namespace ObjectPool

/-- A pool without blocks. -/
def make (total : Nat) (alignment : Alignment) : Except MemoryError ObjectPool :=
  match requireCapacity total with
  | .error e => .error e
  | .ok () => .ok { alignment, total }

/-- The ranges of a size that wait for reuse. -/
def queue (p : ObjectPool) (size : Nat) : List CarveOut :=
  p.queued.filter fun c => c.requestedSize == size

/-- Whether a range of the same size and block as the handle's waits for reuse. -/
def holds (p : ObjectPool) (handle : CarveOut) : Bool :=
  (p.queue handle.requestedSize).any fun c => c.block.id == handle.block.id

def stats (p : ObjectPool) : CarverStats :=
  .ofTally .objectPool p.total p.allocated p.tally

/-- A range that waited becomes a client's again. -/
def reuse (p : ObjectPool) (c : CarveOut) : ObjectPool :=
  { p with queued := p.queued.erase c, allocated := p.allocated + c.requestedSize }

/-- A new block of the tracker becomes a client's. -/
def adopt (p : ObjectPool) (block : Block) (size : Nat) : ObjectPool :=
  { p with
    owned := block.id :: p.owned
    used := p.used + size
    allocated := p.allocated + size }

variable {H : Type} [Heap H]

/-- Takes a range for a request, which is not counted yet. The bytes of the pool and of the request are added as
natural numbers: where the sum is no word, and a word would overflow, the request is refused like any other that the
pool has no room for. -/
def carve (p : ObjectPool) (t : Tracker H) (size : Nat) :
    Outcome CarveOut (ObjectPool × Tracker H) :=
  if size = 0 then (.error .zeroAllocation, p, t)
  else
    match p.queued.find? fun c => c.requestedSize == size with
    | some c => (.ok c, p.reuse c, t)
    | none =>
      if p.total < p.used + size then (.error (.outOfMemory size (p.total - p.used)), p, t)
      else
        match t.allocate size p.alignment with
        | (.error e, t) => (.error e, p, t)
        | (.ok block, t) =>
          (.ok { block, offset := 0, grantedSize := size, requestedSize := size },
            p.adopt block size, t)

/-- Takes a range for a request. -/
def allocate (p : ObjectPool) (t : Tracker H) (size : Nat) :
    Outcome CarveOut (ObjectPool × Tracker H) :=
  match p.carve t size with
  | (result, p, t) => (result, { p with tally := p.tally.record result }, t)

/-- Keeps the range of a handle for reuse, as the handle describes it. -/
def release (p : ObjectPool) (t : Tracker H) (handle : CarveOut) : Outcome Unit ObjectPool :=
  let id := handle.block.id
  if handle.offset ≠ 0 ∨ id ∉ p.owned then (.error (.notOwnedByPool handle.offset id), p)
  else if handle.requestedSize ≠ handle.block.requestedSize then
    (.error (.holdsOtherSize id handle.block.requestedSize handle.requestedSize), p)
  else if !t.isLive handle.block then (.error (.notAllocated id), p)
  else if p.holds handle then (.error (.alreadyPooled id), p)
  else
    (.ok (),
      { p with
        queued := p.queued ++ [handle]
        allocated := p.allocated - handle.requestedSize
        tally := p.tally.returned })

/-- A range that waited has gone back to the tracker. -/
def forget (p : ObjectPool) (c : CarveOut) : ObjectPool :=
  { p with owned := p.owned.filter (· != c.block.id), used := p.used - c.requestedSize }

/-- Returns the blocks of ranges to the tracker, and keeps the first refusal. -/
def drain (p : ObjectPool) (t : Tracker H) (ranges : List CarveOut) :
    Outcome Unit (ObjectPool × Tracker H) :=
  ranges.foldl
    (fun (result, p, t) c =>
      match result, t.free c.block with
      | .ok (), (.error e, t) => (.error e, p.forget c, t)
      | result, (_, t) => (result, p.forget c, t))
    (.ok (), p, t)

/-- Returns every range that waits to the tracker; the others stay with the clients. The ranges go back in the order
in which they came; a table by size would settle no order, and the order matters only for which refusal is the first. -/
def reset (p : ObjectPool) (t : Tracker H) : Outcome Unit (ObjectPool × Tracker H) :=
  match p.drain t p.queued with
  | (result, p, t) => (result, { p with queued := [], allocated := p.used }, t)

/-- Returns every range that waits to the tracker. -/
def dispose (p : ObjectPool) (t : Tracker H) : Tracker H :=
  (p.reset t).2.2

end ObjectPool

end TrackedHeap
