import TrackedHeap.Carver.Basic
import TrackedHeap.Carver.Occupancy
import TrackedHeap.Tracker.Allocation

/-!
# Slabs

Every request size has a block of its own, a slab, divided into cells of exactly that size. All slabs
have one size, a tenth of the capacity but no more than a mebibyte; the first request of a size takes a
slab as long as the slabs fit into the capacity. A size whose slab is full is refused, however much the
other slabs have left.
-/

namespace TrackedHeap

/-- The cells of one size. -/
structure Slab where
  base : Block
  objectSize : Nat
  /-- The number of cells. -/
  cells : Nat
  occupancy : Occupancy

/-- Slabs by the size of their cells. -/
structure SlabCarver where
  alignment : Alignment
  total : Nat
  slabSize : Nat
  slabs : List Slab := []
  /-- The bytes of all slabs. -/
  reserved : Nat := 0
  allocated : Nat := 0
  tally : Tally := {}

namespace SlabCarver

/-- The size of a slab of a given capacity. -/
def slabSizeFor (total : Nat) : Nat :=
  max 1 (min (total / 10) (1024 * 1024))

/-- No slabs yet. -/
def make (total : Nat) (alignment : Alignment) : Except MemoryError SlabCarver :=
  match requireCapacity total with
  | .error e => .error e
  | .ok () => .ok { alignment, total, slabSize := slabSizeFor total }

/-- The number of cells in a slab for a size. -/
def cellsFor (s : SlabCarver) (objectSize : Nat) : Nat :=
  s.slabSize / objectSize

/-- The slab of a size. -/
def slabFor? (s : SlabCarver) (objectSize : Nat) : Option Slab :=
  s.slabs.find? fun slab => slab.objectSize == objectSize

/-- The slabs with one of them changed. -/
def update (s : SlabCarver) (objectSize : Nat) (f : Slab → Slab) : List Slab :=
  s.slabs.map fun slab => if slab.objectSize = objectSize then f slab else slab

/-- The cell of a slab becomes a client's. -/
def grant (s : SlabCarver) (slab : Slab) (index : Nat) : Outcome CarveOut SlabCarver :=
  (.ok
    { block := slab.base
      offset := index * slab.objectSize
      grantedSize := slab.objectSize
      requestedSize := slab.objectSize },
    { s with
      slabs := s.update slab.objectSize fun slab =>
        { slab with occupancy := slab.occupancy.set index }
      allocated := s.allocated + slab.objectSize })

/-- Takes the first free cell of a slab. -/
def carveFrom (s : SlabCarver) (slab : Slab) : Outcome CarveOut SlabCarver :=
  match slab.occupancy.firstClear with
  | none => (.error (.outOfMemory slab.objectSize 0), s)
  | some index => s.grant slab index

variable {H : Type} [Heap H]

/-- Takes a block for the slab of a size. -/
def newSlab (s : SlabCarver) (t : Tracker H) (objectSize : Nat) :
    Outcome Slab (SlabCarver × Tracker H) :=
  let cells := s.cellsFor objectSize
  if cells = 0 then (.error (.outOfMemory objectSize s.slabSize), s, t)
  else if s.total < s.reserved + s.slabSize then
    (.error (.outOfMemory objectSize (s.total - s.reserved)), s, t)
  else
    match t.allocate s.slabSize s.alignment with
    | (.error e, t) => (.error e, s, t)
    | (.ok base, t) =>
      let slab := { base, objectSize, cells, occupancy := Occupancy.empty cells }
      (.ok slab, { s with slabs := s.slabs ++ [slab], reserved := s.reserved + s.slabSize }, t)

/-- Takes a cell for a request, which is not counted yet. -/
def carve (s : SlabCarver) (t : Tracker H) (size : Nat) :
    Outcome CarveOut (SlabCarver × Tracker H) :=
  if size = 0 then (.error .zeroAllocation, s, t)
  else
    match s.slabFor? size with
    | some slab =>
      match s.carveFrom slab with
      | (result, s) => (result, s, t)
    | none =>
      match s.newSlab t size with
      | (.error e, s, t) => (.error e, s, t)
      | (.ok slab, s, t) =>
        match s.carveFrom slab with
        | (result, s) => (result, s, t)

/-- Takes a cell for a request. -/
def allocate (s : SlabCarver) (t : Tracker H) (size : Nat) :
    Outcome CarveOut (SlabCarver × Tracker H) :=
  match s.carve t size with
  | (result, s, t) => (result, { s with tally := s.tally.record result }, t)

/-- Takes back the cell that a handle names. -/
def release (s : SlabCarver) (handle : CarveOut) : Outcome Unit SlabCarver :=
  match s.slabFor? handle.requestedSize with
  | none => (.error (.noSlab handle.requestedSize), s)
  | some slab =>
    match handle.requireOwned slab.base with
    | .error e => (.error e, s)
    | .ok () =>
      let index := handle.offset / slab.objectSize
      if handle.offset % slab.objectSize ≠ 0 ∨ slab.cells ≤ index then
        (.error (.notACell handle.offset slab.objectSize), s)
      else if slab.occupancy.isSet index then
        (.ok (),
          { s with
            slabs := s.update slab.objectSize fun slab =>
              { slab with occupancy := slab.occupancy.clear index }
            allocated := s.allocated - slab.objectSize
            tally := s.tally.returned })
      else (.error (.cellFree index slab.objectSize), s)

def stats (s : SlabCarver) : CarverStats :=
  .ofTally .slab s.total s.allocated s.tally

/-- Returns the blocks of all slabs, in the order in which they were taken; any order would do. -/
def dispose (s : SlabCarver) (t : Tracker H) : Tracker H :=
  s.slabs.foldl (fun t slab => (t.free slab.base).2) t

/-- Takes back every cell, and returns the blocks of all slabs. -/
def reset (s : SlabCarver) (t : Tracker H) : SlabCarver × Tracker H :=
  ({ s with slabs := [], reserved := 0, allocated := 0 }, s.dispose t)

end SlabCarver

end TrackedHeap
