import TrackedHeap.Heap.Bump
import TrackedHeap.Proofs.Heap.Lawful

/-!
# The laws of heaps that grant addresses upwards

A `BumpHeap` whose plan answers no request with the address 0 keeps the laws. All that it has granted lies
below the next address (`BumpHeap.Orderly`), so a new range is apart from everything before it.
-/

namespace TrackedHeap

namespace BumpHeap

/-- What has been granted lies below the next address, each range at a place of its own. -/
structure Orderly (h : BumpHeap) : Prop where
  no_null : h.plan.null = []
  next_pos : 0 < h.next
  ledger : Extent.Ledger h.extents
  stop_le : ∀ e ∈ h.extents, e.start + e.size ≤ h.next

variable {h : BumpHeap}

theorem orderly_ofPlan {plan : Plan} (hn : plan.null = []) (hb : 0 < plan.base) :
    (ofPlan plan).Orderly where
  no_null := hn
  next_pos := hb
  ledger := .nil
  stop_le := by simp [ofPlan]

/-- The next range starts after the end of the one before. -/
theorem Plan.le_stride (plan : Plan) (size : Nat) : size ≤ plan.stride size := by
  unfold stride
  omega

theorem fits_of_not_refuses {size : Nat} (hr : ¬ h.refuses size = true) :
    h.next + size ≤ Word.limit := by
  simp only [refuses, Bool.or_eq_true, decide_eq_true_eq, not_or] at hr
  omega

namespace Orderly

theorem apart_next (ho : h.Orderly) {e : Extent} (he : e ∈ h.extents) (size : Nat) :
    e.Apart ⟨h.next, size⟩ :=
  .inl (ho.stop_le e he)

theorem fresh_next (ho : h.Orderly) {size : Nat} (hr : ¬ h.refuses size = true) :
    Extent.Fresh (· ∈ h.extents) ⟨h.next, size⟩ where
  start_pos := ho.next_pos
  fits := fits_of_not_refuses hr
  apart _ he := ho.apart_next he size

theorem mem_grant (ho : h.Orderly) {size : Nat} (hsize : 0 < size) (e : Extent) :
    e ∈ (h.grant size).extents ↔ e = ⟨h.next, size⟩ ∨ e ∈ h.extents :=
  ho.ledger.mem_insert_iff hsize (fun _ he => ho.apart_next he size) e

theorem grant (ho : h.Orderly) {size : Nat} (hsize : 0 < size) : (h.grant size).Orderly where
  no_null := ho.no_null
  next_pos := Nat.lt_of_lt_of_le ho.next_pos (Nat.le_add_right _ _)
  ledger := ho.ledger.insert h.next hsize
  stop_le e he := by
    have hs := h.plan.le_stride size
    show e.start + e.size ≤ h.next + h.plan.stride size
    rcases (ho.mem_grant hsize e).mp he with rfl | he
    · exact Nat.add_le_add_left hs _
    · exact Nat.le_trans (ho.stop_le e he) (Nat.le_add_right _ _)

theorem release (ho : h.Orderly) (address : Nat) : (h.release address).Orderly where
  no_null := ho.no_null
  next_pos := ho.next_pos
  ledger := ho.ledger.without address
  stop_le e he := ho.stop_le e (Extent.mem_without.mp he).1

theorem mem_release (ho : h.Orderly) {address size : Nat} (hd : ⟨address, size⟩ ∈ h.extents)
    (e : Extent) :
    e ∈ (h.release address).extents ↔ e ∈ h.extents ∧ e ≠ ⟨address, size⟩ :=
  ho.ledger.mem_without_iff hd e

/-- Only the grants, the plan and the next address count. -/
theorem congr (ho : h.Orderly) {h' : BumpHeap} (hp : h'.plan = h.plan) (hn : h'.next = h.next)
    (he : h'.extents = h.extents) : h'.Orderly where
  no_null := hp ▸ ho.no_null
  next_pos := hn ▸ ho.next_pos
  ledger := he ▸ ho.ledger
  stop_le := by rw [he, hn]; exact ho.stop_le

/-- A new range takes the place of one that is given up. -/
theorem moved (ho : h.Orderly) {address old size : Nat} (hd : ⟨address, old⟩ ∈ h.extents)
    (hsize : 0 < size) (hr : ¬ h.refuses size = true) :
    ((h.release address).grant size).Orderly ∧
      Extent.Fresh (fun e => e ∈ h.extents ∧ e ≠ ⟨address, old⟩) ⟨h.next, size⟩ ∧
        ∀ e, e ∈ ((h.release address).grant size).extents ↔
          e = ⟨h.next, size⟩ ∨ e ∈ h.extents ∧ e ≠ ⟨address, old⟩ := by
  have ho' := ho.release address
  have hmem := ho.mem_release hd
  refine ⟨ho'.grant hsize, ?_, fun e => ?_⟩
  · have : Extent.Fresh _ ⟨h.next, size⟩ := ho'.fresh_next hr
    exact ⟨this.start_pos, this.fits, fun d hd => this.apart d ((hmem d).mpr hd)⟩
  · exact (ho'.mem_grant hsize e).trans (or_congr_right (hmem e))

end Orderly

/-- What a request for a new range does. -/
theorem alloc_cases (ho : h.Orderly) (size : Nat) :
    (h.refuses size = true ∧ h.alloc size = (.error (.outOfMemory size 0), h.count)) ∨
      (¬ h.refuses size = true ∧
        h.alloc size = (.ok h.next, { h.grant size with served := h.served + 1 })) := by
  unfold alloc
  rw [ho.no_null]
  by_cases hr : h.refuses size = true <;> simp [hr]

/-- What a request to resize an outstanding range does. -/
theorem realloc_cases (hl : Extent.Ledger h.extents) {address old : Nat}
    (hd : ⟨address, old⟩ ∈ h.extents) (size : Nat) :
    (h.refuses size = true ∧
        h.realloc address size = (.error (.outOfMemory size 0), h.count)) ∨
      (¬ h.refuses size = true ∧
        h.realloc address size =
          (.ok h.next, { (h.release address).grant size with
            contents := h.contents.copy address h.next (min old size) })) := by
  have hold : Extent.sizeAt? h.extents address = some old := hl.sizeAt?_eq hd
  unfold realloc
  rw [hold]
  by_cases hr : h.refuses size = true <;> simp [hr]

/-- A write past everything granted leaves what was granted as it was. -/
theorem Orderly.sameBytes_copy_next (ho : h.Orderly) {e : Extent} (he : e ∈ h.extents)
    (source length : Nat) :
    e.SameBytes h.contents (h.contents.copy source h.next length) := fun a _ ha => by
  have := ho.stop_le e he
  exact Memory.copy_of_not_mem (.inl (by omega))

end BumpHeap

open BumpHeap

instance : LawfulHeap BumpHeap where
  Sound := Orderly
  Granted h e := e ∈ h.extents
  alloc_ok {h h' size address} ho hsize ha := by
    rcases alloc_cases ho size with ⟨-, heq⟩ | ⟨hr, heq⟩ <;> rw [show Heap.alloc h size = _ from heq] at ha
    · simp at ha
    · simp only [Prod.mk.injEq, Except.ok.injEq] at ha
      obtain ⟨rfl, rfl⟩ := ha
      exact ⟨(ho.grant hsize).congr rfl rfl rfl, ho.fresh_next hr, ho.mem_grant hsize⟩
  alloc_error {h h' size error} ho _ ha := by
    rcases alloc_cases ho size with ⟨-, heq⟩ | ⟨hr, heq⟩ <;> rw [show Heap.alloc h size = _ from heq] at ha
    · simp only [Prod.mk.injEq] at ha
      obtain ⟨-, rfl⟩ := ha
      exact ⟨ho.congr rfl rfl rfl, fun _ => Iff.rfl⟩
    · simp at ha
  release ho hd := ⟨ho.release _, ho.mem_release hd⟩
  realloc_ok {h h' address old size fresh} ho hd hsize ha := by
    rcases realloc_cases ho.ledger hd size with ⟨-, heq⟩ | ⟨hr, heq⟩ <;>
      rw [show Heap.realloc h address size = _ from heq] at ha
    · simp at ha
    · simp only [Prod.mk.injEq, Except.ok.injEq] at ha
      obtain ⟨rfl, rfl⟩ := ha
      obtain ⟨ho', hfresh, hmem⟩ := ho.moved hd hsize hr
      exact ⟨ho'.congr rfl rfl rfl, hfresh, hmem⟩
  realloc_error {h h' address old size error} ho hd _ ha := by
    rcases realloc_cases ho.ledger hd size with ⟨-, heq⟩ | ⟨hr, heq⟩ <;>
      rw [show Heap.realloc h address size = _ from heq] at ha
    · simp only [Prod.mk.injEq] at ha
      obtain ⟨-, rfl⟩ := ha
      exact ⟨ho.congr rfl rfl rfl, fun _ => Iff.rfl⟩
    · simp at ha
  fill _ ho _ _ := ⟨ho.congr rfl rfl rfl, fun _ => Iff.rfl⟩
  store ho _ _ := ⟨ho.congr rfl rfl rfl, fun _ => Iff.rfl⟩
  copy ho _ _ _ _ := ⟨ho.congr rfl rfl rfl, fun _ => Iff.rfl⟩
  copySwapped ho _ _ _ _ _ _ := ⟨ho.congr rfl rfl rfl, fun _ => Iff.rfl⟩

instance : LawfulBytes BumpHeap where
  alloc_bytes {h h' size result} ho _ ha e _ := by
    rcases alloc_cases ho size with ⟨-, heq⟩ | ⟨hr, heq⟩ <;>
      rw [show Heap.alloc h size = _ from heq] at ha <;> cases ha <;> exact .refl _ _
  release_bytes _ _ _ _ _ := .refl _ _
  realloc_bytes {h h' address old size result} ho hd _ ha e he _ := by
    rcases realloc_cases ho.ledger hd size with ⟨-, heq⟩ | ⟨hr, heq⟩ <;>
      rw [show Heap.realloc h address size = _ from heq] at ha <;> cases ha
    · exact .refl _ _
    · exact ho.sameBytes_copy_next he _ _
  realloc_carries {h h' address old size fresh} ho hd _ ha i hi := by
    rcases realloc_cases ho.ledger hd size with ⟨-, heq⟩ | ⟨hr, heq⟩ <;>
      rw [show Heap.realloc h address size = _ from heq] at ha <;> cases ha
    exact Memory.copy_add hi
  realloc_refused {h h' address old size error} ho hd _ ha := by
    rcases realloc_cases ho.ledger hd size with ⟨-, heq⟩ | ⟨hr, heq⟩ <;>
      rw [show Heap.realloc h address size = _ from heq] at ha <;> cases ha
    exact .refl _ _
  fill_bytes _ _ _ _ _ _ := .refl _ _
  store_bytes _ _ _ _ _ := .refl _ _
  copy_bytes _ _ _ _ _ _ _ := .refl _ _
  copySwapped_bytes _ _ _ _ _ _ _ _ _ := .refl _ _

end TrackedHeap
