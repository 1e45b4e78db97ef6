import TrackedHeap.Tracker.Basic

/-!
# Taking, returning and resizing blocks

A block takes as many bytes of the heap as surely hold its aligned range. A resized block is a new one
under a new id: it keeps the alignment, and the bytes of the old block as far as they fit. The heap
carries bytes along at their distance from the start of the granted range; if the aligned address now
lies at another distance, the tracker moves them there.

A refused operation leaves blocks, ids and totals as they were; only the heap may have noticed it.
-/

namespace TrackedHeap.Tracker

variable {H : Type} [Heap H]

/-- Takes a block of `size` bytes from the heap. -/
def allocate (t : Tracker H) (size : Nat) (alignment : Alignment) : Outcome Block (Tracker H) :=
  if size = 0 then (.error .zeroAllocation, t)
  else
    match alignment.paddedSize size with
    | .error e => (.error e, t)
    | .ok padded =>
      match Heap.alloc t.heap padded with
      | (.error e, heap) => (.error e, { t with heap })
      | (.ok raw, heap) =>
        if raw = 0 then (.error (.outOfMemory padded 0), { t with heap })
        else
          let block := Block.place t.nextId raw size padded alignment t.now
          (.ok block,
            { t with
              heap
              blocks := t.blocks ++ [block]
              nextId := t.nextId + 1
              usage := t.usage.add padded })

/-- Returns the block that a handle names, whatever else the handle says. -/
def free (t : Tracker H) (handle : Block) : Outcome Block (Tracker H) :=
  match t.lookup handle.id with
  | none => (.error (.notAllocated handle.id), t)
  | some live =>
    (.ok (live.retired t.now),
      { t with
        heap := Heap.release t.heap live.rawAddress
        blocks := t.others live.id
        usage := t.usage.remove live.paddedSize })

/-- Brings the bytes of a resized block to its aligned address, if the heap left them elsewhere. -/
def realign (heap : H) (old resized : Block) : H :=
  if old.padding = resized.padding then heap
  else
    Heap.copy heap (resized.rawAddress + old.padding) resized.address
      (min old.requestedSize resized.requestedSize)

/-- Puts a block of `size` bytes in place of the one that a handle names. -/
def reallocate (t : Tracker H) (handle : Block) (size : Nat) : Outcome Block (Tracker H) :=
  if size = 0 then (.error .zeroReallocation, t)
  else
    match t.lookup handle.id with
    | none => (.error (.cannotReallocate handle.id), t)
    | some old =>
      match old.alignment.paddedSize size with
      | .error e => (.error e, t)
      | .ok padded =>
        match Heap.realloc t.heap old.rawAddress padded with
        | (.error e, heap) => (.error e, { t with heap })
        | (.ok raw, heap) =>
          let resized := Block.place t.nextId raw size padded old.alignment t.now
          (.ok resized,
            { t with
              heap := realign heap old resized
              blocks := t.others old.id ++ [resized]
              nextId := t.nextId + 1
              usage := t.usage.resize old.paddedSize padded })

/-- Returns every live block, and says how many were returned. They go back by rising id; any order would do. -/
def freeAll (t : Tracker H) : Nat × Tracker H :=
  t.blocks.foldl
    (fun (count, t) block =>
      match t.free block with
      | (.ok _, t) => (count + 1, t)
      | (.error _, t) => (count, t))
    (0, t)

end TrackedHeap.Tracker
