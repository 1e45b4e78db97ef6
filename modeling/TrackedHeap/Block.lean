import TrackedHeap.Alignment

/-!
# Blocks

A `Block` describes one allocation: the range the heap granted, and the aligned range inside it that a
client may use. Clients hold copies of these descriptions as handles; what a copy says about being freed
counts for nothing, only the tracker knows which ids are live.
-/

namespace TrackedHeap

/-- One allocation, as it was when this description was made. -/
structure Block where
  id : Nat
  /-- The first usable byte. -/
  address : Nat
  /-- The first byte of the range that the heap granted. -/
  rawAddress : Nat
  /-- The number of usable bytes. -/
  requestedSize : Nat
  /-- The number of bytes that the heap granted. -/
  paddedSize : Nat
  alignment : Alignment
  createdAt : Nat
  freed : Bool
  freedAt : Option Nat
deriving DecidableEq, Repr

namespace Block

/-- The bytes granted before the first usable one. -/
def padding (b : Block) : Nat :=
  b.address - b.rawAddress

/-- The place after the last usable byte. -/
def stop (b : Block) : Nat :=
  b.address + b.requestedSize

/-- The block of `size` usable bytes in a granted range that starts at `raw`. -/
def place (id : Nat) (raw : Nat) (size padded : Nat) (alignment : Alignment)
    (now : Nat) : Block where
  id := id
  address := alignment.alignUp raw
  rawAddress := raw
  requestedSize := size
  paddedSize := padded
  alignment := alignment
  createdAt := now
  freed := false
  freedAt := none

/-- The last description of a block. -/
def retired (b : Block) (now : Nat) : Block :=
  { b with freed := true, freedAt := some now }

/-- How an id is written for a reader. -/
def displayId (id : Nat) : String :=
  s!"#{id}"

end Block

end TrackedHeap
