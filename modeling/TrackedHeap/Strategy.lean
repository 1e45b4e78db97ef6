import TrackedHeap.Error
import TrackedHeap.Text.Blank

/-!
# Strategies

The six ways of carving ranges out of blocks, and how they are spelled.
-/

namespace TrackedHeap

/-- A way of carving ranges out of blocks. -/
inductive Strategy where
  /-- Powers of two, halved and joined again. -/
  | buddy
  /-- Cells of one size per block. -/
  | slab
  /-- One range after the other, freed together. -/
  | arena
  /-- One range after the other until the block is full. -/
  | ringBuffer
  /-- Whole blocks, kept by size for reuse. -/
  | objectPool
  /-- One of slab, buddy and arena, by size. -/
  | hybrid
deriving DecidableEq, Repr

namespace Strategy

def all : List Strategy := [buddy, slab, arena, ringBuffer, objectPool, hybrid]

/-- The spelling in documents. -/
def name : Strategy → String
  | buddy => "buddy"
  | slab => "slab"
  | arena => "arena"
  | ringBuffer => "ring_buffer"
  | objectPool => "object_pool"
  | hybrid => "hybrid"

/-- The spelling for a reader. -/
def display : Strategy → String
  | buddy => "BUDDY"
  | slab => "SLAB"
  | arena => "ARENA"
  | ringBuffer => "RING_BUFFER"
  | objectPool => "OBJECT_POOL"
  | hybrid => "HYBRID"

/-- The spelling in the description of an allocator. -/
def label : Strategy → String
  | buddy => "Buddy"
  | slab => "Slab"
  | arena => "Arena"
  | ringBuffer => "RingBuffer"
  | objectPool => "ObjectPool"
  | hybrid => "Hybrid"

/-- Reads the name of a strategy or a short form of it, in any case, between blanks, and with `-` for
`_`. -/
def parse (text : String) : Except MemoryError Strategy :=
  let key := (Text.lower (Text.trim text)).map fun c => if c = '-' then '_' else c
  if key = "buddy" ∨ key = "buddy_system" then .ok buddy
  else if key = "slab" then .ok slab
  else if key = "arena" then .ok arena
  else if key = "ring" ∨ key = "ring_buffer" then .ok ringBuffer
  else if key = "object_pool" ∨ key = "pool" then .ok objectPool
  else if key = "hybrid" then .ok hybrid
  else .error (.unknownStrategy key)

end Strategy

end TrackedHeap
