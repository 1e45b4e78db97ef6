import TrackedHeap.Heap.Bump

/-!
# Heaps that do not look at the bytes in them

What a heap grants and refuses follows from which ranges it was asked for and which it was given back, and from
nothing that clients write into them. `Heap.Oblivious` says so of two states of a heap that have seen the same
calls but for the bytes; a `BumpHeap` is such a heap.
-/

namespace TrackedHeap

/-- States that are so related answer every call alike and stay so related, whatever bytes are written to either. -/
structure Heap.Oblivious {H : Type} [Heap H] (Same : H → H → Prop) : Prop where
  refl (h : H) : Same h h
  alloc {h h' : H} (size : Nat) : Same h h' →
    (Heap.alloc h' size).1 = (Heap.alloc h size).1 ∧ Same (Heap.alloc h size).2 (Heap.alloc h' size).2
  release {h h' : H} (address : Nat) : Same h h' → Same (Heap.release h address) (Heap.release h' address)
  realloc {h h' : H} (address size : Nat) : Same h h' →
    (Heap.realloc h' address size).1 = (Heap.realloc h address size).1 ∧
      Same (Heap.realloc h address size).2 (Heap.realloc h' address size).2
  fill {h h' : H} (start length : Nat) (byte byte' : UInt8) : Same h h' →
    Same (Heap.fill h start length byte) (Heap.fill h' start length byte')
  store {h h' : H} (start : Nat) {bytes bytes' : List UInt8} : bytes'.length = bytes.length → Same h h' →
    Same (Heap.store h start bytes) (Heap.store h' start bytes')
  copy {h h' : H} (source target length : Nat) : Same h h' →
    Same (Heap.copy h source target length) (Heap.copy h' source target length)
  copySwapped {h h' : H} (source target length width : Nat) : Same h h' →
    Same (Heap.copySwapped h source target length width) (Heap.copySwapped h' source target length width)

namespace BumpHeap

/-- All but the contents is the same. -/
def SameGrants (h h' : BumpHeap) : Prop :=
  h' = { h with contents := h'.contents }

variable {h h' : BumpHeap}

theorem SameGrants.alloc (hs : SameGrants h h') (size : Nat) :
    (h'.alloc size).1 = (h.alloc size).1 ∧ SameGrants (h.alloc size).2 (h'.alloc size).2 := by
  have hrefuses : h'.refuses size = h.refuses size := by rw [hs]; rfl
  have hnull : h'.plan.null.contains (h'.calls + 1) = h.plan.null.contains (h.calls + 1) := by rw [hs]
  unfold BumpHeap.alloc
  rw [hrefuses, hnull, hs]
  split
  · exact ⟨rfl, rfl⟩
  · split <;> exact ⟨rfl, rfl⟩

theorem SameGrants.realloc (hs : SameGrants h h') (address size : Nat) :
    (h'.realloc address size).1 = (h.realloc address size).1 ∧
      SameGrants (h.realloc address size).2 (h'.realloc address size).2 := by
  have hrefuses : h'.refuses size = h.refuses size := by rw [hs]; rfl
  unfold BumpHeap.realloc
  rw [hrefuses, hs]
  split <;> exact ⟨rfl, rfl⟩

theorem oblivious : Heap.Oblivious SameGrants where
  refl _ := rfl
  alloc size hs := hs.alloc size
  release {h h'} address hs := by
    show h'.release address = _
    rw [hs]
    rfl
  realloc address size hs := hs.realloc address size
  fill {h h'} start length byte byte' hs := by
    show { h' with contents := h'.contents.fill start length byte' } = _
    rw [hs]
    rfl
  store {h h'} start bytes bytes' _ hs := by
    show { h' with contents := h'.contents.store start bytes' } = _
    rw [hs]
    rfl
  copy {h h'} source target length hs := by
    show { h' with contents := h'.contents.copy source target length } = _
    rw [hs]
    rfl
  copySwapped {h h'} source target length width hs := by
    show { h' with contents := h'.contents.copySwapped source target length width } = _
    rw [hs]
    rfl

end BumpHeap

end TrackedHeap
