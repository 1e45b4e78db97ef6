import TrackedHeap.Tracker.Access
import TrackedHeap.Tracker.Allocation

/-!
# Pools

A pool keeps blocks of one size for reuse. It takes the block that was released first, and asks the
tracker for a new one only when it keeps none. A released block is set to zero; a block of another size
is not taken, and one too many goes back to the tracker.
-/

namespace TrackedHeap

/-- Blocks of one size, kept for reuse. -/
structure Pool where
  blockSize : Nat
  alignment : Alignment
  /-- The most blocks that are kept. -/
  limit : Nat
  /-- The kept blocks, the first to be reused first. -/
  queue : List Block := []
  /-- The ids of the kept blocks. -/
  pooled : List Nat := []
  acquired : Nat := 0
  reused : Nat := 0
  created : Nat := 0
  overflowed : Nat := 0

/-- The figures that a pool reports. -/
structure PoolStats where
  blockSize : Nat
  alignment : Alignment
  limit : Nat
  available : Nat
  acquired : Nat
  reused : Nat
  created : Nat
  overflowed : Nat
deriving DecidableEq, Repr

namespace Pool

/-- An empty pool. -/
def make (blockSize : Nat) (alignment : Alignment) (limit : Nat) : Except MemoryError Pool :=
  if blockSize = 0 then .error .zeroPoolBlock
  else if limit = 0 then .error .zeroPoolLimit
  else .ok { blockSize, alignment, limit }

/-- The figures now. -/
def stats (p : Pool) : PoolStats where
  blockSize := p.blockSize
  alignment := p.alignment
  limit := p.limit
  available := p.queue.length
  acquired := p.acquired
  reused := p.reused
  created := p.created
  overflowed := p.overflowed

/-- The ids of the kept blocks but one. -/
def forget (p : Pool) (id : Nat) : List Nat :=
  p.pooled.filter fun other => other != id

variable {H : Type} [Heap H]

/-- A kept block, or a new one if there is none. -/
def acquire (p : Pool) (t : Tracker H) : Outcome Block (Pool × Tracker H) :=
  match p.queue with
  | block :: rest =>
    (.ok block,
      { p with
        queue := rest
        pooled := p.forget block.id
        reused := p.reused + 1
        acquired := p.acquired + 1 }, t)
  | [] =>
    match t.allocate p.blockSize p.alignment with
    | (.error e, t) => (.error e, p, t)
    | (.ok block, t) =>
      (.ok block, { p with created := p.created + 1, acquired := p.acquired + 1 }, t)

/-- Keeps a block, as its handle describes it. A handle of another size is passed over without a word. -/
def release (p : Pool) (t : Tracker H) (handle : Block) : Outcome Unit (Pool × Tracker H) :=
  if handle.requestedSize ≠ p.blockSize then (.ok (), p, t)
  else if p.pooled.contains handle.id then (.error (.alreadyPooled handle.id), p, t)
  else
    match t.zero handle 0 handle.requestedSize with
    | (.error e, t) => (.error e, p, t)
    | (.ok (), t) =>
      if p.queue.length < p.limit then
        (.ok (),
          { p with queue := p.queue ++ [handle], pooled := handle.id :: p.pooled }, t)
      else
        match t.free handle with
        | (.error e, t) => (.error e, { p with overflowed := p.overflowed + 1 }, t)
        | (.ok _, t) => (.ok (), { p with overflowed := p.overflowed + 1 }, t)

/-- Returns every kept block to the tracker, and says how many it took. The kept ids are those of the kept blocks, and
each is struck out with its block, so none is left. -/
def clear (p : Pool) (t : Tracker H) : Nat × Pool × Tracker H :=
  let (count, t) :=
    p.queue.foldl
      (fun (count, t) block =>
        match Tracker.free t block with
        | (.ok _, t) => (count + 1, t)
        | (.error _, t) => (count, t))
      (0, t)
  (count, { p with queue := [], pooled := [] }, t)

/-- The pool is done with. -/
def dispose (p : Pool) (t : Tracker H) : Tracker H :=
  (p.clear t).2.2

end Pool

end TrackedHeap
