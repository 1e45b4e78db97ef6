import TrackedHeap.Carver.Basic
import TrackedHeap.Tracker.Allocation

/-!
# Arenas

Ranges follow one another in a block, each at the next multiple of the alignment. A request that the rest
of the newest block cannot hold opens another block of the same size. Ranges come back only all together,
and of the blocks only the first is kept then.
-/

namespace TrackedHeap

/-- A growing row of equal blocks. -/
structure Arena where
  alignment : Alignment
  total : Nat
  /-- The size of every block. -/
  arenaSize : Nat
  first : Block
  /-- The blocks opened after the first, the newest first. -/
  later : List Block := []
  /-- The end of the last range in the newest block. -/
  offset : Nat := 0
  allocated : Nat := 0
  tally : Tally := {}

namespace Arena

/-- The largest size of a block. -/
def sizeLimit : Nat := 64 * 1024 * 1024

/-- The blocks, the newest first. -/
def blocks (a : Arena) : List Block :=
  a.later ++ [a.first]

/-- The newest block. -/
def current (a : Arena) : Block :=
  a.later.head?.getD a.first

/-- The range that starts at `start` in the newest block becomes a client's. -/
def grant (a : Arena) (start size : Nat) : Outcome CarveOut Arena :=
  (.ok { block := a.current, offset := start, grantedSize := size, requestedSize := size },
    { a with offset := start + size, allocated := a.allocated + size })

/-- Accepts the handle of any range in one of the blocks, and does nothing. -/
def release (a : Arena) (handle : CarveOut) : Outcome Unit Arena :=
  if a.blocks.any fun b => b.id == handle.block.id then (.ok (), a)
  else (.error (.notAnArena handle.block.id), a)

def stats (a : Arena) : CarverStats :=
  .ofTally .arena a.total a.allocated a.tally

variable {H : Type} [Heap H]

/-- The first block. -/
def make (t : Tracker H) (total : Nat) (alignment : Alignment) : Outcome Arena (Tracker H) :=
  match requireCapacity total with
  | .error e => (.error e, t)
  | .ok () =>
    let arenaSize := min total sizeLimit
    match t.allocate arenaSize alignment with
    | (.error e, t) => (.error e, t)
    | (.ok first, t) => (.ok { alignment, total, arenaSize, first }, t)

/-- Takes a range for a request, which is not counted yet. -/
def carve (a : Arena) (t : Tracker H) (size : Nat) : Outcome CarveOut (Arena × Tracker H) :=
  if size = 0 then (.error .zeroAllocation, a, t)
  else if a.arenaSize < size then (.error (.outOfMemory size a.arenaSize), a, t)
  else
    let start := a.alignment.alignUp a.offset
    if a.arenaSize < start + size then
      match t.allocate a.arenaSize a.alignment with
      | (.error e, t) => (.error e, a, t)
      | (.ok block, t) =>
        match { a with later := block :: a.later }.grant 0 size with
        | (result, a) => (result, a, t)
    else
      match a.grant start size with
      | (result, a) => (result, a, t)

/-- Takes a range for a request. -/
def allocate (a : Arena) (t : Tracker H) (size : Nat) : Outcome CarveOut (Arena × Tracker H) :=
  match a.carve t size with
  | (result, a, t) => (result, { a with tally := a.tally.record result }, t)

/-- Returns blocks, and keeps the first refusal. -/
def freeBlocks (t : Tracker H) (blocks : List Block) : Outcome Unit (Tracker H) :=
  blocks.foldl
    (fun (result, t) block =>
      match result, t.free block with
      | .ok (), (.error e, t) => (.error e, t)
      | result, (_, t) => (result, t))
    (.ok (), t)

/-- Takes back every range, and returns all blocks but the first. -/
def reset (a : Arena) (t : Tracker H) : Outcome Unit (Arena × Tracker H) :=
  match freeBlocks t a.later.reverse with
  | (result, t) => (result, { a with later := [], offset := 0, allocated := 0 }, t)

/-- Returns all blocks. -/
def dispose (a : Arena) (t : Tracker H) : Tracker H :=
  (freeBlocks t a.blocks.reverse).2

end Arena

end TrackedHeap
