import TrackedHeap.Heap

/-!
# A heap of one of two kinds

A state of either type is a state of a heap, with the operations of its type. So one tracker type serves
where only a configuration decides whether the heap below it has a budget.
-/

namespace TrackedHeap.Heap

variable {A B : Type}

/-- The outcome with its state put on the left. -/
def left {α : Type} : Outcome α A → Outcome α (A ⊕ B)
  | (r, h) => (r, .inl h)

/-- The outcome with its state put on the right. -/
def right {α : Type} : Outcome α B → Outcome α (A ⊕ B)
  | (r, h) => (r, .inr h)

instance [Heap A] [Heap B] : Heap (A ⊕ B) where
  alloc
    | .inl h, size => left (alloc h size)
    | .inr h, size => right (alloc h size)
  release
    | .inl h, address => .inl (release h address)
    | .inr h, address => .inr (release h address)
  realloc
    | .inl h, address, size => left (realloc h address size)
    | .inr h, address, size => right (realloc h address size)
  fill
    | .inl h, start, length, byte => .inl (fill h start length byte)
    | .inr h, start, length, byte => .inr (fill h start length byte)
  store
    | .inl h, start, bytes => .inl (store h start bytes)
    | .inr h, start, bytes => .inr (store h start bytes)
  copy
    | .inl h, source, target, length => .inl (copy h source target length)
    | .inr h, source, target, length => .inr (copy h source target length)
  copySwapped
    | .inl h, source, target, length, width => .inl (copySwapped h source target length width)
    | .inr h, source, target, length, width => .inr (copySwapped h source target length width)
  memory
    | .inl h => memory h
    | .inr h => memory h
  allocCalls
    | .inl h => allocCalls h
    | .inr h => allocCalls h

end TrackedHeap.Heap
