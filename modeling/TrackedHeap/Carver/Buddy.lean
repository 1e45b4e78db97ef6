import TrackedHeap.Carver.Basic
import TrackedHeap.Carver.Chunk
import TrackedHeap.Tracker.Allocation

/-!
# Buddies

One block whose size is a power of two. A request takes the lowest of the smallest free chunks that are
large enough, halved down to the least power of two that holds the request. A chunk that comes back is
joined with its buddy as long as that is free, so no two free chunks are ever buddies.
-/

namespace TrackedHeap

/-- A region of buddies. -/
structure Buddy where
  base : Block
  /-- The order of the whole region. -/
  maxOrder : Nat
  /-- The free chunks, by order and then by place. -/
  free : List Chunk
  /-- The chunks that clients have. -/
  live : List Chunk := []
  allocated : Nat := 0
  tally : Tally := {}

namespace Buddy

/-- The size of the region. -/
def total (b : Buddy) : Nat :=
  1 <<< b.maxOrder

/-- The region before any request, in the block that backs it. -/
def ofBase (base : Block) (maxOrder : Nat) : Buddy where
  base := base
  maxOrder := maxOrder
  free := [⟨maxOrder, 0⟩]

/-- A region of at least `total` bytes. -/
def make {H : Type} [Heap H] (t : Tracker H) (total : Nat) (alignment : Alignment) :
    Outcome Buddy (Tracker H) :=
  match requireCapacity total with
  | .error e => (.error e, t)
  | .ok () =>
    if Word.limit / 2 < total then (.error (.buddyTooLarge total), t)
    else
      let order := Chunk.orderFor total
      match t.allocate (1 <<< order) alignment with
      | (.error e, t) => (.error e, t)
      | (.ok base, t) => (.ok (ofBase base order), t)

/-- The number of free chunks of an order. -/
def freeAt (b : Buddy) (order : Nat) : Nat :=
  (b.free.filter fun c => c.order == order).length

/-- Whether a chunk of an order that starts at an offset is free. -/
def isFreeAt (b : Buddy) (order offset : Nat) : Bool :=
  b.free.any fun c => c.order == order && c.offset == offset

/-- The client's range of a chunk. -/
def carveOut (b : Buddy) (c : Chunk) (size : Nat) : CarveOut where
  block := b.base
  offset := c.offset
  grantedSize := c.size
  requestedSize := size

/-- Takes a chunk for a request, which is not counted yet. -/
def carve (b : Buddy) (size : Nat) : Outcome CarveOut Buddy :=
  if size = 0 then (.error .zeroAllocation, b)
  else
    let order := Chunk.orderFor size
    match b.free.find? fun c => order ≤ c.order with
    | none => (.error (.outOfMemory size (b.total - b.allocated)), b)
    | some c =>
      let (chunk, free) := Chunk.split (c.order - order) c (b.free.erase c)
      (.ok (b.carveOut chunk size),
        { b with free, live := chunk :: b.live, allocated := b.allocated + chunk.size })

/-- Takes a chunk for a request. -/
def allocate (b : Buddy) (size : Nat) : Outcome CarveOut Buddy :=
  match b.carve size with
  | (result, b) => (result, { b with tally := b.tally.record result })

/-- Puts a chunk back among the free ones. -/
def giveBack (b : Buddy) (c : Chunk) : Buddy :=
  { b with free := Chunk.merge (b.maxOrder - c.order) c b.free }

/-- Takes back the chunk at the offset that a handle names. -/
def release (b : Buddy) (handle : CarveOut) : Outcome Unit Buddy :=
  match handle.requireOwned b.base with
  | .error e => (.error e, b)
  | .ok () =>
    match b.live.find? fun c => c.offset == handle.offset with
    | none => (.error (.noBuddyAt handle.offset), b)
    | some c =>
      (.ok (),
        { b.giveBack c with
          live := b.live.erase c
          allocated := b.allocated - c.size
          tally := b.tally.returned })

def stats (b : Buddy) : CarverStats :=
  .ofTally .buddy b.total b.allocated b.tally

/-- Takes back every chunk. -/
def reset (b : Buddy) : Buddy :=
  { b.live.foldl giveBack b with live := [], allocated := 0 }

end Buddy

end TrackedHeap
