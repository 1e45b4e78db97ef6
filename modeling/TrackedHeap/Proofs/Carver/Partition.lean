import Mathlib.Data.Nat.Bitwise
import TrackedHeap.Proofs.Carver.Buddy
import TrackedHeap.Proofs.Heap.Footprint

/-!
# The bytes of a region of buddies

After any run, the free and the live chunks of a region share no byte and leave none out, so their sizes
add up to that of the region, and what counts as allocated is the size of the live ones
(`Buddy.run_partition`).

That chunks tile the region is `Buddy.coalesced_run`. Here the count of allocated bytes is tied to the
live chunks (`Buddy.Counted`), and the tiling turned into a sum (`Chunk.Tiles.sum_size`).
-/

namespace TrackedHeap

namespace Chunk

/-- The buddy starts where one bit of the place is the other way round. -/
theorem offset_buddy (c : Chunk) : c.buddy.offset = c.offset ^^^ c.size := by
  obtain ⟨k, i⟩ := c
  have hbit : (if i % 2 = 0 then i + 1 else i - 1) = i ^^^ 1 := by
    split
    · next h => rw [Nat.xor_one_of_even (Nat.even_iff.mpr h)]
    · next h => rw [Nat.xor_one_of_odd (Nat.odd_iff.mpr (by omega))]
  simp only [offset, size, buddy, hbit]
  rw [Nat.one_shiftLeft, ← Nat.shiftLeft_eq, ← Nat.shiftLeft_eq, Nat.shiftLeft_xor_distrib,
    Nat.one_shiftLeft]

namespace Tiles

variable {order : Nat} {cs : List Chunk} {c : Chunk}

/-- The sizes of chunks that tile a region add up to its size. -/
theorem sum_size (h : Tiles order cs) : (cs.map Chunk.size).sum = 2 ^ order := by
  have hmap : (cs.map extent).map Extent.size = cs.map Chunk.size := by
    rw [List.map_map]
    rfl
  have hapart : (cs.map extent).Pairwise Extent.Apart := List.pairwise_map.mpr h.apart
  have hin : ∀ e ∈ cs.map extent, 0 ≤ e.start ∧ e.start + e.size ≤ 2 ^ order := by
    rw [List.forall_mem_map]
    intro c hc
    exact ⟨Nat.zero_le _, h.inside c hc⟩
  have hfill : ∀ x, 0 ≤ x → x < 2 ^ order →
      ∃ e ∈ cs.map extent, e.start ≤ x ∧ x < e.start + e.size := by
    intro x _ hx
    obtain ⟨c, hc, hcx⟩ := h.covers x hx
    exact ⟨c.extent, List.mem_map_of_mem hc, hcx⟩
  rw [← hmap, Extent.sum_size_eq hapart hin hfill, Nat.sub_zero]

/-- Every byte lies in one chunk and in no other. -/
theorem existsUnique (h : Tiles order cs) {x : Nat} (hx : x < 2 ^ order) :
    ∃! c, c ∈ cs ∧ c.offset ≤ x ∧ x < c.offset + c.size := by
  obtain ⟨c, hc, hcx⟩ := h.covers x hx
  refine ⟨c, ⟨hc, hcx⟩, ?_⟩
  rintro d ⟨hd, hdx⟩
  exact h.eq_of_has hd hc hdx hcx

end Tiles

end Chunk

namespace Buddy

/-- What counts as allocated is the size of the live chunks. -/
def Counted (b : Buddy) : Prop :=
  b.allocated = (b.live.map Chunk.size).sum

variable {b : Buddy}

theorem counted_ofBase (base : Block) (order : Nat) : (ofBase base order).Counted :=
  rfl

/-! ## One step -/

theorem Counted.carve (h : b.Counted) (size : Nat) : (b.carve size).2.Counted := by
  fun_cases Buddy.carve b size
  case case1 => exact h
  case case2 => exact h
  case case3 hsize order c hfind chunk free hsplit =>
    show b.allocated + chunk.size = ((chunk :: b.live).map Chunk.size).sum
    rw [h, List.map_cons, List.sum_cons, Nat.add_comm]

theorem Counted.release (h : b.Counted) (handle : CarveOut) : (b.release handle).2.Counted := by
  fun_cases Buddy.release b handle
  case case1 => exact h
  case case2 => exact h
  case case3 howned c hfind =>
    have hc : c ∈ b.live := List.mem_of_find?_eq_some hfind
    have hsum := ((List.perm_cons_erase hc).map Chunk.size).sum_eq
    show b.allocated - c.size = ((b.live.erase c).map Chunk.size).sum
    rw [h, hsum, List.map_cons, List.sum_cons, Nat.add_sub_cancel_left]

theorem counted_reset (b : Buddy) : b.reset.Counted :=
  rfl

theorem Counted.act (h : b.Counted) (a : Act) : (b.act a).Counted := by
  cases a with
  | allocate size => exact h.carve size
  | release handle => exact h.release handle
  | reset => exact b.counted_reset

/-! ## Runs -/

theorem Counted.run (h : b.Counted) (acts : List Act) : (b.run acts).Counted := by
  induction acts generalizing b with
  | nil => exact h
  | cons a acts ih => exact ih (h.act a)

/-- After any run from a new region, its free and live chunks are an exact partition of its bytes into
ranges of a power of two at multiples of their sizes, and the allocated bytes are those of the live ones. -/
theorem run_partition {H : Type} [Heap H] {t t' : Tracker H} {total : Nat} {alignment : Alignment}
    {new : Buddy} (hm : make t total alignment = (.ok new, t')) (acts : List Act) :
    let b := new.run acts
    let chunks := b.free ++ b.live
    b.total = 2 ^ Chunk.orderFor total ∧
      (∀ c ∈ chunks, c.size = 2 ^ c.order ∧ 2 ^ c.order ∣ c.offset ∧ c.order ≤ b.maxOrder ∧
        c.offset + c.size ≤ b.total) ∧
      chunks.Pairwise (fun c d => c.extent.Apart d.extent) ∧
      (∀ x < b.total, ∃! c, c ∈ chunks ∧ c.offset ≤ x ∧ x < c.offset + c.size) ∧
      (chunks.map Chunk.size).sum = b.total ∧
      b.allocated = (b.live.map fun c => 2 ^ c.order).sum := by
  intro b chunks
  have hnew := (make_ok hm).1
  have htiles : Chunk.Tiles b.maxOrder chunks := (coalesced_run hm acts).tiles
  have hcounted : b.Counted := by
    have hstart : new.Counted := by
      rw [hnew]
      exact counted_ofBase _ _
    exact hstart.run acts
  refine ⟨?_, fun c hc => ?_, htiles.apart, ?_, ?_, ?_⟩
  · rw [total_eq, new.maxOrder_run acts, hnew]
    rfl
  · have hin : c.Inside b.maxOrder := htiles.inside c hc
    refine ⟨c.size_eq, ?_, hin.order_le, ?_⟩
    · rw [← c.size_eq]
      exact Nat.dvd_mul_left _ _
    · rw [total_eq]
      exact hin
  · rw [total_eq]
    intro x hx
    exact htiles.existsUnique hx
  · rw [total_eq]
    exact htiles.sum_size
  · unfold Counted at hcounted
    rw [hcounted]
    exact congrArg List.sum (List.map_congr_left fun c _ => c.size_eq)

/-- A region of 64 bytes with three requests, one of them given back twice, after a reset. -/
theorem run_partition_mixed :
    let base := Block.place 1 65536 64 64 .byte 0
    let b := (ofBase base 6).run
      [.allocate 9, .allocate 30, .reset, .allocate 5, .allocate 16, .allocate 3,
        .release ⟨base, 0, 8, 5⟩, .release ⟨base, 0, 8, 5⟩]
    b.live = [⟨2, 2⟩, ⟨4, 1⟩] ∧ b.free = [⟨2, 3⟩, ⟨3, 0⟩, ⟨5, 1⟩] ∧ b.allocated = 20 ∧
      ((b.free ++ b.live).map Chunk.size).sum = b.total := by
  intro base b
  have hm : make (.ofHeap (BumpHeap.ofPlan { }) none) 50 .byte =
      (.ok (ofBase base 6), (Tracker.allocate (.ofHeap (BumpHeap.ofPlan { }) none) 64 .byte).2) := rfl
  obtain ⟨-, -, -, -, hsum, -⟩ := run_partition hm
    [.allocate 9, .allocate 30, .reset, .allocate 5, .allocate 16, .allocate 3,
      .release ⟨base, 0, 8, 5⟩, .release ⟨base, 0, 8, 5⟩]
  exact ⟨by decide +kernel, by decide +kernel, by decide +kernel, hsum⟩

end Buddy

end TrackedHeap
