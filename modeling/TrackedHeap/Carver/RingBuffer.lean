import TrackedHeap.Carver.Basic
import TrackedHeap.Tracker.Allocation

/-!
# Ring buffers

Ranges follow one another in one block. When the block is filled to its last byte, the place for the next
range is its first byte again, but the ring is full and refuses everything until it is reset.
-/

namespace TrackedHeap

/-- One block, filled from its start. -/
structure RingBuffer where
  base : Block
  capacity : Nat
  /-- The place for the next range. -/
  writePosition : Nat := 0
  full : Bool := false
  allocated : Nat := 0
  tally : Tally := {}

namespace RingBuffer

/-- A ring of as many bytes. -/
def make {H : Type} [Heap H] (t : Tracker H) (total : Nat) (alignment : Alignment) :
    Outcome RingBuffer (Tracker H) :=
  match requireCapacity total with
  | .error e => (.error e, t)
  | .ok () =>
    match t.allocate total alignment with
    | (.error e, t) => (.error e, t)
    | (.ok base, t) => (.ok { base, capacity := total }, t)

/-- The bytes that the next request may take. -/
def available (r : RingBuffer) : Nat :=
  if r.full then 0 else r.capacity - r.writePosition

/-- Takes a range for a request, which is not counted yet. -/
def carve (r : RingBuffer) (size : Nat) : Outcome CarveOut RingBuffer :=
  if size = 0 then (.error .zeroAllocation, r)
  else if r.available < size then (.error (.outOfMemory size r.available), r)
  else
    let stop := r.writePosition + size
    (.ok { block := r.base, offset := r.writePosition, grantedSize := size, requestedSize := size },
      { r with
        writePosition := if stop = r.capacity then 0 else stop
        full := stop = r.capacity
        allocated := r.allocated + size })

/-- Takes a range for a request. -/
def allocate (r : RingBuffer) (size : Nat) : Outcome CarveOut RingBuffer :=
  match r.carve size with
  | (result, r) => (result, { r with tally := r.tally.record result })

/-- Accepts the handle of any range in the block, and does nothing. -/
def release (r : RingBuffer) (handle : CarveOut) : Outcome Unit RingBuffer :=
  (handle.requireOwned r.base, r)

def stats (r : RingBuffer) : CarverStats :=
  .ofTally .ringBuffer r.capacity r.allocated r.tally

/-- Takes back every range. -/
def reset (r : RingBuffer) : RingBuffer :=
  { r with writePosition := 0, full := false, allocated := 0 }

end RingBuffer

end TrackedHeap
