import TrackedHeap.Proofs.Heap.Bump
import TrackedHeap.Proofs.Heap.Recorded
import TrackedHeap.Proofs.Workspace.Steps

/-!
# Heaps are called within their contract

Whatever clients ask, and whatever their handles say, the heap below a workspace is called within its
contract only (`Workspace.calls_legal`): ranges are taken back and resized while they are outstanding,
bytes are read and written inside one outstanding range, and elements are reversed at a width that divides
the length. The outstanding ranges are those of the live blocks, one for each.

The calls are those that a recording heap has seen. A call for a byte leaves a heap as it is, so reads and
comparisons are taken one by one: at any state of a run, the calls that a read makes are put on the record after those
of the run, and what the read answers is what these calls yield.
-/

namespace TrackedHeap

namespace Tracker

variable {H : Type} [Heap H] [LawfulHeap H] {t : Tracker (Recorded H)}

namespace WellFormed

/-- An access that is let through lies inside one outstanding range. -/
theorem inside_of_locate (h : t.WellFormed) {handle : Block} {offset length address : Nat}
    (hl : t.locate handle offset length = .ok address) :
    Call.Inside t.heap.granted address length := by
  obtain ⟨b, -, -, hg, hc⟩ := h.covers_of_locate hl
  exact ⟨_, hg, hc⟩

/-- A read asks for the bytes of its range, which lies inside one outstanding range. -/
theorem reading_legal (h : t.WellFormed) {handle : Block} {offset length : Nat} {calls : Reading (List UInt8)}
    (hr : t.reading handle offset length = .ok calls) :
    t.read handle offset length = .ok (t.heap.read calls).1 ∧
      ∃ address, t.locate handle offset length = .ok address ∧ Call.Inside t.heap.granted address length ∧
        calls.asked (Heap.memory t.heap) = List.range' address length ∧ (t.heap.read calls).2.Lawful := by
  refine ⟨by rw [Tracker.read, hr, t.heap.read_fst], ?_⟩
  unfold reading at hr
  split at hr
  · cases hr
  · next address hl =>
    cases hr
    have hinside := h.inside_of_locate hl
    have hasked := Reading.asked_bytes (Heap.memory t.heap) address length
    refine ⟨address, hl, hinside, hasked, h.sound.read fun a ha => ?_⟩
    rw [hasked, List.mem_range'_1] at ha
    exact hinside.byte ha.1 ha.2

/-- A comparison asks for bytes of its two ranges, each of which lies inside one outstanding range. -/
theorem comparing_legal (h : t.WellFormed) {left right : Block} {offset offset' length : Nat} {calls : Reading Int}
    (hr : t.comparing left offset right offset' length = .ok calls) :
    t.compare left offset right offset' length = .ok (t.heap.read calls).1 ∧
      ∃ x y, t.locate left offset length = .ok x ∧ t.locate right offset' length = .ok y ∧
        Call.Inside t.heap.granted x length ∧ Call.Inside t.heap.granted y length ∧
        (∀ a ∈ calls.asked (Heap.memory t.heap), (x ≤ a ∧ a < x + length) ∨ (y ≤ a ∧ a < y + length)) ∧
        (t.heap.read calls).2.Lawful := by
  refine ⟨by rw [Tracker.compare, hr, t.heap.read_fst], ?_⟩
  unfold comparing at hr
  split at hr
  · cases hr
  · next x hx =>
    split at hr
    · cases hr
    · next y hy =>
      cases hr
      have hleft := h.inside_of_locate hx
      have hright := h.inside_of_locate hy
      refine ⟨x, y, hx, hy, hleft, hright, fun a => Reading.of_mem_asked_difference, h.sound.read fun a ha => ?_⟩
      rcases Reading.of_mem_asked_difference ha with ⟨hle, hlt⟩ | ⟨hle, hlt⟩
      · exact hleft.byte hle hlt
      · exact hright.byte hle hlt

/-- No two live blocks are in one range. -/
theorem nodup_extents (h : t.WellFormed) : (t.blocks.map Block.extent).Nodup :=
  List.Nodup.map_on (fun _ hb _ hc he => h.layout.eq_of_extent hb hc he)
    (List.Nodup.of_map _ h.layout.nodup_ids)

/-- The outstanding ranges are those of the live blocks, each once. -/
theorem granted_perm (h : t.WellFormed) : t.heap.granted.Perm (t.blocks.map Block.extent) := by
  refine (List.perm_ext_iff_of_nodup h.sound.ledger.nodup h.nodup_extents).mpr fun e => ?_
  rw [List.mem_map]
  exact h.granted_iff e

end WellFormed

end Tracker

namespace Workspace

open LawfulHeap (Sound Granted)

/-- Every call of the heap is legal, those for the bytes of any read or comparison too, and the outstanding ranges are
those of the live blocks. A read that is let through calls for the bytes from the located address on, each once; a
comparison calls for no byte outside its two located ranges; and both answer what these calls yield. -/
theorem calls_legal {H : Type} [Heap H] [LawfulHeap H] {heap : H} (hs : Sound heap)
    (hg : ∀ e, ¬ Granted heap e) (budget : Option Nat) (alignment : Alignment)
    (requests : List Request) :
    let t := ((opened ({ inner := heap } : Recorded H) budget alignment).run requests).tracker
    (∀ entry ∈ t.heap.calls, entry.1.Legal entry.2) ∧
      (∀ handle offset length calls, t.reading handle offset length = .ok calls →
        t.read handle offset length = .ok (t.heap.read calls).1 ∧
          (∀ entry ∈ (t.heap.read calls).2.calls, entry.1.Legal entry.2) ∧
          ∃ address, t.locate handle offset length = .ok address ∧
            Call.Inside t.heap.granted address length ∧
            calls.asked (Heap.memory t.heap) = List.range' address length) ∧
      (∀ left offset right offset' length calls, t.comparing left offset right offset' length = .ok calls →
        t.compare left offset right offset' length = .ok (t.heap.read calls).1 ∧
          (∀ entry ∈ (t.heap.read calls).2.calls, entry.1.Legal entry.2) ∧
          ∃ x y, t.locate left offset length = .ok x ∧ t.locate right offset' length = .ok y ∧
            Call.Inside t.heap.granted x length ∧ Call.Inside t.heap.granted y length ∧
            ∀ a ∈ calls.asked (Heap.memory t.heap), (x ≤ a ∧ a < x + length) ∨ (y ≤ a ∧ a < y + length)) ∧
      t.heap.granted.Perm (t.blocks.map Block.extent) ∧ t.heap.granted.Nodup := by
  intro t
  have hwf : t.WellFormed :=
    wellFormed_run (Recorded.lawful_of_inner hs hg) (fun _ => List.not_mem_nil) budget alignment
      requests
  refine ⟨hwf.sound.legal, ?_, ?_, hwf.granted_perm, hwf.sound.ledger.nodup⟩
  · intro handle offset length calls hr
    obtain ⟨hanswer, address, hl, hinside, hasked, hlawful⟩ := hwf.reading_legal hr
    exact ⟨hanswer, hlawful.legal, address, hl, hinside, hasked⟩
  · intro left offset right offset' length calls hr
    obtain ⟨hanswer, x, y, hx, hy, hleft, hright, hasked, hlawful⟩ := hwf.comparing_legal hr
    exact ⟨hanswer, hlawful.legal, x, y, hx, hy, hleft, hright, hasked⟩

/-- A block that is moved inside its new range when it is resized, a handle of no block, and a ring that is
let go. A read calls for two bytes of the resized block. -/
theorem calls_legal_resized :
    let t := ((opened ({ inner := .ofPlan { base := 65537 } } : Recorded BumpHeap) none .byte).run
      [.allocate 10 .page, .build "ring" .ringBuffer 64 .word,
        .reallocate (.place 1 0 0 0 .byte 0) 20, .free (.place 9 0 0 0 .byte 0), .letGo "ring"]).tracker
    t.heap.calls.map Prod.fst =
        [.release 69649, .copy 73824 73728 10, .realloc 65537 4115, .alloc 71, .alloc 4105] ∧
      (∀ entry ∈ t.heap.calls, entry.1.Legal entry.2) ∧
      t.heap.granted.Perm (t.blocks.map Block.extent) ∧
      t.reading (.place 3 0 0 0 .byte 0) 18 2 = .ok (.bytes 73746 2) ∧
      (∀ entry ∈ (t.heap.read (.bytes 73746 2)).2.calls, entry.1.Legal entry.2) ∧
      ((t.heap.read (.bytes 73746 2)).2.calls.map Prod.fst).take 3 =
        [.read 73747, .read 73746, .release 69649] := by
  intro t
  have hs : Sound (BumpHeap.ofPlan { base := 65537 }) := BumpHeap.orderly_ofPlan rfl (by decide)
  have hg : ∀ e, ¬ Granted (BumpHeap.ofPlan { base := 65537 }) e := fun _ => List.not_mem_nil
  obtain ⟨hlegal, hread, -, hperm, -⟩ := calls_legal hs hg none .byte
    [.allocate 10 .page, .build "ring" .ringBuffer 64 .word,
      .reallocate (.place 1 0 0 0 .byte 0) 20, .free (.place 9 0 0 0 .byte 0), .letGo "ring"]
  have hlocate : t.locate (.place 3 0 0 0 .byte 0) 18 2 = .ok 73746 := by decide +kernel
  have hreading : t.reading (.place 3 0 0 0 .byte 0) 18 2 = .ok (.bytes 73746 2) := by
    rw [Tracker.reading, hlocate]
  exact ⟨by decide +kernel, hlegal, hperm, hreading, (hread _ _ _ _ hreading).2.1, by decide +kernel⟩

end Workspace

end TrackedHeap
