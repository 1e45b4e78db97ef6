import TrackedHeap.Block
import TrackedHeap.Strategy

/-!
# Ranges carved out of blocks

What all strategies share: the range that a client gets, the count of what was asked of a strategy, the
figures it reports, and the checks that come before any strategy's own.
-/

namespace TrackedHeap

/-- A range inside a block. -/
structure CarveOut where
  block : Block
  offset : Nat
  /-- The number of bytes reserved for the client. -/
  grantedSize : Nat
  /-- The number of bytes that the client asked for. -/
  requestedSize : Nat
deriving DecidableEq, Repr

namespace CarveOut

/-- The first byte of the range. -/
def address (c : CarveOut) : Nat :=
  c.block.address + c.offset

/-- The range that is a whole block. -/
def whole (block : Block) : CarveOut where
  block := block
  offset := 0
  grantedSize := block.requestedSize
  requestedSize := block.requestedSize

end CarveOut

/-- How often a strategy was asked to carve, and with what success, and how often a range came back. -/
structure Tally where
  allocations : Nat := 0
  deallocations : Nat := 0
  failures : Nat := 0
deriving DecidableEq, Repr

namespace Tally

/-- One more request, with its result. -/
def record {α : Type} (t : Tally) : Except MemoryError α → Tally
  | .ok _ => { t with allocations := t.allocations + 1 }
  | .error _ => { t with failures := t.failures + 1 }

/-- One more range that came back. -/
def returned (t : Tally) : Tally :=
  { t with deallocations := t.deallocations + 1 }

end Tally

/-- The figures that a strategy reports. -/
structure CarverStats where
  strategy : Strategy
  total : Nat
  allocated : Nat
  free : Nat
  allocations : Nat
  deallocations : Nat
  failures : Nat
  /-- The figures of the parts of a strategy that has parts. -/
  components : List CarverStats

namespace CarverStats

/-- The figures of a strategy without parts. -/
def ofTally (strategy : Strategy) (total allocated : Nat) (tally : Tally) : CarverStats where
  strategy := strategy
  total := total
  allocated := allocated
  free := total - allocated
  allocations := tally.allocations
  deallocations := tally.deallocations
  failures := tally.failures
  components := []

/-- The sum of a figure over parts. -/
def sumOf (figure : CarverStats → Nat) (parts : List CarverStats) : Nat :=
  parts.foldr (fun part sum => figure part + sum) 0

/-- The figures of a hybrid of parts. -/
def ofParts (parts : List CarverStats) : CarverStats where
  strategy := .hybrid
  total := sumOf total parts
  allocated := sumOf allocated parts
  free := sumOf total parts - sumOf allocated parts
  allocations := sumOf allocations parts
  deallocations := sumOf deallocations parts
  failures := sumOf failures parts
  components := parts

/-- The share of the capacity that is in use, in percent. -/
def usage (s : CarverStats) : Float :=
  if s.total = 0 then 0 else Word.toFloat s.allocated / Word.toFloat s.total * 100

end CarverStats

/-- Passes a capacity that is not 0. -/
def requireCapacity (total : Nat) : Except MemoryError Unit :=
  if total = 0 then .error .zeroCapacity else .ok ()

/-- Passes a carve-out of the block that a strategy carves. -/
def CarveOut.requireOwned (c : CarveOut) (base : Block) : Except MemoryError Unit :=
  if c.block.id = base.id then .ok () else .error (.notOwned c.offset c.block.id)

theorem CarveOut.requireOwned_eq_ok {c : CarveOut} {base : Block} :
    c.requireOwned base = .ok () ↔ c.block.id = base.id := by
  unfold requireOwned
  split <;> simp [*]

end TrackedHeap
