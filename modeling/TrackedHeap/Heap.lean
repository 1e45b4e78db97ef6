import TrackedHeap.Error
import TrackedHeap.Memory

/-!
# Heaps

A heap grants ranges of bytes by their first address, takes them back, and reads and writes the bytes
inside them. Everything above reaches memory through this interface alone, so the heap below a tracker
can be any type that has an instance of `Heap`: one that grants addresses upwards (`BumpHeap`), one with
a budget on top of another (`Budgeted`), or one of two (`Sum`).

Bytes are read one at a time. Which calls a read of many bytes makes is said by a `Reading`.

A heap may refuse a request at any time. The interface says what a call does to the state; that calls
are made with addresses that are outstanding is the tracker's part.
-/

namespace TrackedHeap

/-- The operations of a heap whose state is an `H`. -/
class Heap (H : Type) where
  /-- Grants a range of as many bytes. -/
  alloc : H → Nat → Outcome Nat H
  /-- Takes back the range that starts at the address. -/
  release : H → Nat → H
  /-- Grants a range of as many bytes in place of the one that starts at the address, whose bytes are
  carried into it as far as they fit. -/
  realloc : H → Nat → Nat → Outcome Nat H
  /-- Sets bytes from the address on. -/
  fill : H → Nat → Nat → UInt8 → H
  /-- Writes bytes from the address on. -/
  store : H → Nat → List UInt8 → H
  /-- Copies from the first address to the second; the ranges may overlap. -/
  copy : H → Nat → Nat → Nat → H
  /-- Copies from the first address to the second, reversing every element of the given width. -/
  copySwapped : H → Nat → Nat → (length width : Nat) → H
  /-- What a call for the byte at an address answers; the call leaves the heap as it is. -/
  memory : H → Memory
  /-- How many requests for a new range were served, for a heap that counts them. -/
  allocCalls : H → Nat

end TrackedHeap
