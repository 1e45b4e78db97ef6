import TrackedHeap.Heap
import TrackedHeap.Heap.Extent

/-!
# A heap with a budget

`Budgeted H` passes requests on to a heap `H` as long as the bytes granted stay within a budget. The
bytes are reserved before the request is passed on and given back if it fails, or when the range is
taken back; a resized range is charged for its growth only.

A request is refused by the budget exactly when the bytes in use and the bytes asked for, added with
saturation, exceed it.
-/

namespace TrackedHeap

/-- A heap `H` of which at most `budget` bytes may be in use at once. -/
structure Budgeted (H : Type) where
  inner : H
  budget : Nat
  /-- The bytes charged. -/
  used : Nat := 0
  /-- The ranges that were granted, by the address they were granted under. -/
  sizes : List Extent := []

namespace Budgeted

variable {H : Type}

/-- The bytes of the budget that are not in use. -/
def available (h : Budgeted H) : Nat :=
  h.budget - h.used

/-- Charges bytes to the budget. -/
def reserve (h : Budgeted H) (size : Nat) : Except MemoryError (Budgeted H) :=
  if h.budget < Word.addSat h.used size then .error (.outOfMemory size h.available)
  else .ok { h with used := Word.addWrap h.used size }

/-- Gives bytes back to the budget. -/
def refund (h : Budgeted H) (size : Nat) : Budgeted H :=
  { h with used := Word.subWrap h.used size }

variable [Heap H]

def alloc (h : Budgeted H) (size : Nat) : Outcome Nat (Budgeted H) :=
  match h.reserve size with
  | .error e => (.error e, h)
  | .ok charged =>
    match Heap.alloc h.inner size with
    | (.ok address, inner) =>
      (.ok address, { charged with inner, sizes := Extent.insert h.sizes address size })
    | (.error e, inner) => (.error e, { charged.refund size with inner })

def release (h : Budgeted H) (address : Nat) : Budgeted H :=
  let refunded :=
    match Extent.sizeAt? h.sizes address with
    | some size => { h.refund size with sizes := Extent.without h.sizes address }
    | none => h
  { refunded with inner := Heap.release h.inner address }

def realloc (h : Budgeted H) (address : Nat) (size : Nat) : Outcome Nat (Budgeted H) :=
  let old := (Extent.sizeAt? h.sizes address).getD 0
  let growth := size - old
  match (if growth = 0 then .ok h else h.reserve growth) with
  | .error e => (.error e, h)
  | .ok charged =>
    match Heap.realloc h.inner address size with
    | (.ok fresh, inner) =>
      (.ok fresh,
        { charged.refund (old - size) with
          inner
          sizes := Extent.insert (Extent.without h.sizes address) fresh size })
    | (.error e, inner) => (.error e, { charged.refund growth with inner })

end Budgeted

instance {H : Type} [Heap H] : Heap (Budgeted H) where
  alloc := Budgeted.alloc
  release := Budgeted.release
  realloc := Budgeted.realloc
  fill h start length byte := { h with inner := Heap.fill h.inner start length byte }
  store h start bytes := { h with inner := Heap.store h.inner start bytes }
  copy h source target length := { h with inner := Heap.copy h.inner source target length }
  copySwapped h source target length width :=
    { h with inner := Heap.copySwapped h.inner source target length width }
  memory h := Heap.memory h.inner
  allocCalls h := Heap.allocCalls h.inner

end TrackedHeap
