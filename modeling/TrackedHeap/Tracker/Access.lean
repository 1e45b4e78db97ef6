import TrackedHeap.CopyMode
import TrackedHeap.Heap.Reading
import TrackedHeap.Tracker.Basic

/-!
# Reading and writing blocks

Every access is checked against the size that the client asked for, never against the padded size, and
the block is the live one of the handle's id. `Tracker.locate` is that check; each operation is one or
two of them and then a call of the heap, or for reads and comparisons a call for each byte
(`Tracker.reading`, `Tracker.comparing`).
-/

namespace TrackedHeap

namespace Tracker

variable {H : Type} [Heap H]

/-- The address of the first of `length` bytes at `offset` in the block that a handle names. -/
def locate (t : Tracker H) (handle : Block) (offset length : Nat) : Except MemoryError Nat :=
  match t.lookup handle.id with
  | none => .error (.freedOrUnknown handle.id)
  | some live =>
    match Word.add? offset length with
    | none => .error (.boundsViolation offset length live.requestedSize)
    | some stop =>
      if stop ≤ live.requestedSize then .ok (live.address + offset)
      else .error (.boundsViolation offset length live.requestedSize)

/-- Sets bytes of a block. -/
def fill (t : Tracker H) (handle : Block) (offset length : Nat) (byte : UInt8) :
    Outcome Unit (Tracker H) :=
  match t.locate handle offset length with
  | .error e => (.error e, t)
  | .ok address => (.ok (), { t with heap := Heap.fill t.heap address length byte })

/-- Sets bytes of a block to 0. -/
def zero (t : Tracker H) (handle : Block) (offset length : Nat) : Outcome Unit (Tracker H) :=
  t.fill handle offset length 0

/-- Writes bytes into a block. -/
def write (t : Tracker H) (handle : Block) (offset : Nat) (bytes : List UInt8) :
    Outcome Unit (Tracker H) :=
  match t.locate handle offset bytes.length with
  | .error e => (.error e, t)
  | .ok address => (.ok (), { t with heap := Heap.store t.heap address bytes })

/-- The calls for the bytes of a block. -/
def reading (t : Tracker H) (handle : Block) (offset length : Nat) :
    Except MemoryError (Reading (List UInt8)) :=
  match t.locate handle offset length with
  | .error e => .error e
  | .ok address => .ok (.bytes address length)

/-- The bytes of a block. -/
def read (t : Tracker H) (handle : Block) (offset length : Nat) :
    Except MemoryError (List UInt8) :=
  match t.reading handle offset length with
  | .error e => .error e
  | .ok calls => .ok (calls.run (Heap.memory t.heap))

/-- Copies bytes between blocks, which may be the same. -/
def copy (t : Tracker H) (source : Block) (sourceOffset : Nat) (target : Block)
    (targetOffset length : Nat) (mode : CopyMode) : Outcome Unit (Tracker H) :=
  match mode.validate length with
  | .error e => (.error e, t)
  | .ok () =>
    match t.locate source sourceOffset length with
    | .error e => (.error e, t)
    | .ok start =>
      match t.locate target targetOffset length with
      | .error e => (.error e, t)
      | .ok stop =>
        match mode with
        | .plain => (.ok (), { t with heap := Heap.copy t.heap start stop length })
        | .byteSwap width =>
          (.ok (), { t with heap := Heap.copySwapped t.heap start stop length width })

/-- The calls for comparing two ranges. -/
def comparing (t : Tracker H) (left : Block) (leftOffset : Nat) (right : Block)
    (rightOffset length : Nat) : Except MemoryError (Reading Int) :=
  match t.locate left leftOffset length with
  | .error e => .error e
  | .ok x =>
    match t.locate right rightOffset length with
    | .error e => .error e
    | .ok y => .ok (.difference x y length)

/-- The difference of the first bytes in which two ranges differ, or 0. -/
def compare (t : Tracker H) (left : Block) (leftOffset : Nat) (right : Block)
    (rightOffset length : Nat) : Except MemoryError Int :=
  match t.comparing left leftOffset right rightOffset length with
  | .error e => .error e
  | .ok calls => .ok (calls.run (Heap.memory t.heap))

/-! ## What reads and comparisons answer -/

/-- What is read is what the heap holds from the address on. -/
theorem read_eq (t : Tracker H) (handle : Block) (offset length : Nat) :
    t.read handle offset length =
      match t.locate handle offset length with
      | .error e => .error e
      | .ok address => .ok ((Heap.memory t.heap).read address length) := by
  rw [read, reading]
  cases t.locate handle offset length with
  | error e => rfl
  | ok address => exact congrArg Except.ok (Reading.run_bytes _ address length)

/-- A comparison says how what can be read of the two ranges differs. -/
theorem compare_eq (t : Tracker H) (left : Block) (leftOffset : Nat) (right : Block)
    (rightOffset length : Nat) :
    t.compare left leftOffset right rightOffset length =
      match t.locate left leftOffset length with
      | .error e => .error e
      | .ok x =>
        match t.locate right rightOffset length with
        | .error e => .error e
        | .ok y =>
          .ok (Bytes.difference ((Heap.memory t.heap).read x length) ((Heap.memory t.heap).read y length)) := by
  rw [compare, comparing]
  cases t.locate left leftOffset length with
  | error e => rfl
  | ok x =>
    cases t.locate right rightOffset length with
    | error e => rfl
    | ok y => exact congrArg Except.ok (Reading.run_difference _ x y length)

end Tracker

end TrackedHeap
