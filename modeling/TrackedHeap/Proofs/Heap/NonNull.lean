import TrackedHeap.Proofs.Heap.Bump

/-!
# Heaps that may answer with the address 0

`NonNull H` is a heap `H` whose address 0, given for a new range, counts as a refusal: that is how a tracker
takes it. So a heap that may answer so at any call is covered by the laws of `NonNull H`, which say of such a
call what they say of a refusal: nothing was granted, and what was granted before is as it was.

A `BumpHeap` keeps these laws whatever its plan, its first address not being 0.
-/

namespace TrackedHeap

/-- A heap `H`, seen as one that refuses when it answers a request for a new range with the address 0. -/
structure NonNull (H : Type) where
  inner : H

namespace NonNull

variable {H : Type} [Heap H]

def alloc (h : NonNull H) (size : Nat) : Outcome Nat (NonNull H) :=
  match Heap.alloc h.inner size with
  | (.error e, inner) => (.error e, ⟨inner⟩)
  | (.ok address, inner) =>
    if address = 0 then (.error (.outOfMemory size 0), ⟨inner⟩) else (.ok address, ⟨inner⟩)

def realloc (h : NonNull H) (address size : Nat) : Outcome Nat (NonNull H) :=
  match Heap.realloc h.inner address size with
  | (result, inner) => (result, ⟨inner⟩)

end NonNull

instance {H : Type} [Heap H] : Heap (NonNull H) where
  alloc := NonNull.alloc
  release h address := ⟨Heap.release h.inner address⟩
  realloc := NonNull.realloc
  fill h start length byte := ⟨Heap.fill h.inner start length byte⟩
  store h start bytes := ⟨Heap.store h.inner start bytes⟩
  copy h source target length := ⟨Heap.copy h.inner source target length⟩
  copySwapped h source target length width := ⟨Heap.copySwapped h.inner source target length width⟩
  memory h := Heap.memory h.inner
  allocCalls h := Heap.allocCalls h.inner

/-! ## Heaps that grant addresses upwards -/

namespace BumpHeap

/-- The heap with a plan that answers no request with the address 0. -/
def plain (h : BumpHeap) : BumpHeap :=
  { h with plan := { h.plan with null := [] } }

variable {h : BumpHeap}

theorem orderly_plain_ofPlan {plan : Plan} (hb : 0 < plan.base) : (ofPlan plan).plain.Orderly where
  no_null := rfl
  next_pos := hb
  ledger := .nil
  stop_le := by simp [ofPlan, plain]

/-- What a request for a new range does, an answer with the address 0 counting as a refusal. -/
theorem nonNull_alloc_cases (ho : h.plain.Orderly) (size : Nat) :
    (∃ e, NonNull.alloc ⟨h⟩ size = (.error e, ⟨h.count⟩)) ∨
      (¬ h.plain.refuses size = true ∧
        NonNull.alloc ⟨h⟩ size = (.ok h.next, ⟨{ h.grant size with served := h.served + 1 }⟩)) := by
  have hnext : h.next ≠ 0 := Nat.ne_of_gt ho.next_pos
  have hrefuses : h.plain.refuses size = h.refuses size := rfl
  have hcall : Heap.alloc h size = h.alloc size := rfl
  unfold NonNull.alloc
  simp only [hcall, hrefuses]
  unfold BumpHeap.alloc
  by_cases hnull : h.plan.null.contains (h.calls + 1)
  · exact .inl ⟨.outOfMemory size 0, by simp only [if_pos hnull, if_true]⟩
  · rw [if_neg hnull]
    by_cases hr : h.refuses size = true
    · exact .inl ⟨.outOfMemory size 0, by simp only [if_pos hr]⟩
    · exact .inr ⟨hr, by simp only [if_neg hr, if_neg hnext]⟩

/-- What a request to resize an outstanding range does, which is never answered with the address 0. -/
theorem nonNull_realloc_cases (ho : h.plain.Orderly) {address old : Nat}
    (hd : ⟨address, old⟩ ∈ h.extents) (size : Nat) :
    NonNull.realloc ⟨h⟩ address size = (.error (.outOfMemory size 0), ⟨h.count⟩) ∨
      (¬ h.plain.refuses size = true ∧
        NonNull.realloc ⟨h⟩ address size =
          (.ok h.next, ⟨{ (h.release address).grant size with
            contents := h.contents.copy address h.next (min old size) }⟩)) := by
  have hledger : Extent.Ledger h.extents := ho.ledger
  have hcall : Heap.realloc h address size = h.realloc address size := rfl
  unfold NonNull.realloc
  rw [hcall]
  rcases realloc_cases hledger hd size with ⟨-, heq⟩ | ⟨hr, heq⟩
  · exact .inl (by rw [heq])
  · exact .inr ⟨hr, by rw [heq]⟩

end BumpHeap

open BumpHeap

instance : LawfulHeap (NonNull BumpHeap) where
  Sound h := h.inner.plain.Orderly
  Granted h e := e ∈ h.inner.extents
  alloc_ok {h h' size address} ho hsize ha := by
    rcases nonNull_alloc_cases ho size with ⟨e, heq⟩ | ⟨hr, heq⟩ <;>
      rw [show Heap.alloc h size = _ from heq] at ha <;> cases ha
    exact ⟨(ho.grant hsize).congr rfl rfl rfl, ho.fresh_next hr, ho.mem_grant hsize⟩
  alloc_error {h h' size error} ho _ ha := by
    rcases nonNull_alloc_cases ho size with ⟨e, heq⟩ | ⟨hr, heq⟩ <;>
      rw [show Heap.alloc h size = _ from heq] at ha <;> cases ha
    exact ⟨ho.congr rfl rfl rfl, fun _ => Iff.rfl⟩
  release ho hd := ⟨ho.release _, ho.mem_release hd⟩
  realloc_ok {h h' address old size fresh} ho hd hsize ha := by
    rcases nonNull_realloc_cases ho hd size with heq | ⟨hr, heq⟩ <;>
      rw [show Heap.realloc h address size = _ from heq] at ha <;> cases ha
    obtain ⟨ho', hfresh, hmem⟩ := ho.moved hd hsize hr
    exact ⟨ho'.congr rfl rfl rfl, hfresh, hmem⟩
  realloc_error {h h' address old size error} ho hd _ ha := by
    rcases nonNull_realloc_cases ho hd size with heq | ⟨hr, heq⟩ <;>
      rw [show Heap.realloc h address size = _ from heq] at ha <;> cases ha
    exact ⟨ho.congr rfl rfl rfl, fun _ => Iff.rfl⟩
  fill _ ho _ _ := ⟨ho.congr rfl rfl rfl, fun _ => Iff.rfl⟩
  store ho _ _ := ⟨ho.congr rfl rfl rfl, fun _ => Iff.rfl⟩
  copy ho _ _ _ _ := ⟨ho.congr rfl rfl rfl, fun _ => Iff.rfl⟩
  copySwapped ho _ _ _ _ _ _ := ⟨ho.congr rfl rfl rfl, fun _ => Iff.rfl⟩

instance : LawfulBytes (NonNull BumpHeap) where
  alloc_bytes {h h' size result} ho _ ha e _ := by
    rcases nonNull_alloc_cases ho size with ⟨e, heq⟩ | ⟨hr, heq⟩ <;>
      rw [show Heap.alloc h size = _ from heq] at ha <;> cases ha <;> exact .refl _ _
  release_bytes _ _ _ _ _ := .refl _ _
  realloc_bytes {h h' address old size result} ho hd _ ha e he _ := by
    rcases nonNull_realloc_cases ho hd size with heq | ⟨hr, heq⟩ <;>
      rw [show Heap.realloc h address size = _ from heq] at ha <;> cases ha
    · exact .refl _ _
    · exact ho.sameBytes_copy_next he _ _
  realloc_carries {h h' address old size fresh} ho hd _ ha i hi := by
    rcases nonNull_realloc_cases ho hd size with heq | ⟨hr, heq⟩ <;>
      rw [show Heap.realloc h address size = _ from heq] at ha <;> cases ha
    exact Memory.copy_add hi
  realloc_refused {h h' address old size error} ho hd _ ha := by
    rcases nonNull_realloc_cases ho hd size with heq | ⟨hr, heq⟩ <;>
      rw [show Heap.realloc h address size = _ from heq] at ha <;> cases ha
    exact .refl _ _
  fill_bytes _ _ _ _ _ _ := .refl _ _
  store_bytes _ _ _ _ _ := .refl _ _
  copy_bytes _ _ _ _ _ _ _ := .refl _ _
  copySwapped_bytes _ _ _ _ _ _ _ _ _ := .refl _ _

end TrackedHeap
