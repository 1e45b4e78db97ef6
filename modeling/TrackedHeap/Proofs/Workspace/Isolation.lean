import TrackedHeap.Proofs.Heap.Bump
import TrackedHeap.Proofs.Tracker.Isolation
import TrackedHeap.Proofs.Workspace.Steps

/-!
# The blocks of a workspace

After any run, every live block is placed as its alignment asks, live blocks share no usable byte, and what
is read through a live block is changed by no operation on another one (`Tracker.Isolated`,
`Workspace.run_isolated`).
-/

namespace TrackedHeap

/-- Blocks are placed as they should be, apart from one another, and not disturbed by operations on
others. -/
structure Tracker.Isolated {H : Type} [Heap H] (t : Tracker H) : Prop where
  aligned : ∀ b ∈ t.blocks, b.alignment.bytes ∣ b.address
  raw_le : ∀ b ∈ t.blocks, b.rawAddress ≤ b.address
  padding_lt : ∀ b ∈ t.blocks, b.address - b.rawAddress < b.alignment.bytes
  padded_eq : ∀ b ∈ t.blocks, b.paddedSize = b.requestedSize + b.alignment.bytes - 1
  stop_le : ∀ b ∈ t.blocks, b.address + b.requestedSize ≤ b.rawAddress + b.paddedSize
  apart : ∀ b ∈ t.blocks, ∀ c ∈ t.blocks, b ≠ c → b.usable.Apart c.usable
  allocate : ∀ size alignment handle, t.isLive handle = true →
    t.ReadsSame (t.allocate size alignment).2 handle
  free : ∀ victim handle, handle.id ≠ victim.id → t.ReadsSame (t.free victim).2 handle
  reallocate : ∀ victim size handle, t.isLive handle = true → handle.id ≠ victim.id →
    t.ReadsSame (t.reallocate victim size).2 handle
  /-- Beside other blocks, the rest of the block that is set stays the same. -/
  fill : ∀ target offset length byte handle o l,
    handle.id ≠ target.id ∨ o + l ≤ offset ∨ offset + length ≤ o →
      (t.fill target offset length byte).2.read handle o l = t.read handle o l
  zero : ∀ target offset length handle o l,
    handle.id ≠ target.id ∨ o + l ≤ offset ∨ offset + length ≤ o →
      (t.zero target offset length).2.read handle o l = t.read handle o l
  write : ∀ target offset bytes handle o l,
    handle.id ≠ target.id ∨ o + l ≤ offset ∨ offset + bytes.length ≤ o →
      (t.write target offset bytes).2.read handle o l = t.read handle o l
  copy : ∀ source sourceOffset target targetOffset length mode handle o l,
    handle.id ≠ target.id ∨ o + l ≤ targetOffset ∨ targetOffset + length ≤ o →
      (t.copy source sourceOffset target targetOffset length mode).2.read handle o l =
        t.read handle o l

theorem Tracker.WellFormed.isolated {H : Type} [Heap H] [LawfulBytes H] {t : Tracker H}
    (h : t.WellFormed) : t.Isolated where
  aligned b hb := by
    rw [(h.layout.placed b hb).address_eq]
    exact b.alignment.dvd_alignUp _
  raw_le b hb := (h.layout.placed b hb).raw_le
  padding_lt b hb := (h.layout.placed b hb).padding_lt
  padded_eq b hb := by
    have := b.alignment.bytes_pos
    rw [(h.layout.placed b hb).padded_eq]
    omega
  stop_le b hb := (h.layout.placed b hb).stop_le
  apart b hb c hc hne := h.layout.usable_apart hb hc fun e => hne (h.layout.eq_of_id hb hc e)
  allocate size alignment _ hlive := h.read_allocate size alignment hlive
  free victim _ hne := h.read_free victim hne
  reallocate victim size _ hlive hne := h.read_reallocate victim size hlive hne
  fill target offset length byte _ _ _ hd := h.read_fill target offset length byte hd
  zero target offset length _ _ _ hd := h.read_fill target offset length 0 hd
  write target offset bytes _ _ _ hd := h.read_write target offset bytes hd
  copy source offset target offset' length mode _ _ _ hd :=
    h.read_copy source offset target offset' length mode hd

namespace Workspace

open LawfulHeap (Sound Granted)

/-- Whatever is asked of a workspace, its live blocks do not disturb one another. -/
theorem run_isolated {H : Type} [Heap H] [LawfulBytes H] {heap : H} (hs : Sound heap)
    (hg : ∀ e, ¬ Granted heap e) (budget : Option Nat) (alignment : Alignment)
    (requests : List Request) :
    ((opened heap budget alignment).run requests).tracker.Isolated :=
  (wellFormed_run hs hg budget alignment requests).isolated

/-- Two blocks of different alignments, the first moved by a resize after both were written. -/
theorem run_isolated_resized :
    let t := ((opened (BumpHeap.ofPlan { base := 65537 }) none .byte).run
      [.allocate 3 .page, .allocate 4 .word, .write (.place 1 0 0 0 .byte 0) 0 [1, 2, 3],
        .fill (.place 2 0 0 0 .byte 0) 1 2 9, .reallocate (.place 1 0 0 0 .byte 0) 5]).tracker
    t.Isolated ∧ t.blocks.map Block.address = [69656, 73728] ∧
      t.read (.place 2 0 0 0 .byte 0) 0 4 = .ok [0, 9, 9, 0] ∧
      t.read (.place 3 0 0 0 .byte 0) 0 5 = .ok [1, 2, 3, 0, 0] := by
  refine ⟨run_isolated ?_ ?_ none .byte _, by decide +kernel, by decide +kernel, by decide +kernel⟩
  · exact BumpHeap.orderly_ofPlan rfl (by decide)
  · exact fun _ => List.not_mem_nil

end Workspace

end TrackedHeap
