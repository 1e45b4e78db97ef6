import TrackedHeap.Proofs.Heap.NonNull
import TrackedHeap.Proofs.Tracker.Compare
import TrackedHeap.Proofs.Workspace.Steps

/-!
# Comparisons in a workspace

After any run, a comparison within live blocks gives the order of the bytes that reading shows there
(`Workspace.run_compared`), whether they are in one block or in two, and however the two ranges overlap.

The heap may place ranges where it likes, and may have answered any call with a refusal or the address 0.
-/

namespace TrackedHeap.Workspace

open LawfulHeap (Sound Granted)

/-- A comparison within live blocks has the sign of the order of the bytes that are read there, is the difference of
the first two bytes that differ, and is its opposite the other way round. After a plain copy between ranges that do
not overlap it is 0. -/
theorem run_compared {H : Type} [Heap H] [LawfulBytes (NonNull H)] {heap : H} (hs : Sound (NonNull.mk heap))
    (hg : ∀ e, ¬ Granted (NonNull.mk heap) e) (budget : Option Nat) (alignment : Alignment)
    (requests : List Request) :
    let t := ((opened heap budget alignment).run requests).tracker
    ∀ (left : Block) (offset : Nat) (right : Block) (offset' length : Nat),
      (t.Reaches left offset length → t.Reaches right offset' length →
        ∃ x y d, t.read left offset length = .ok x ∧ t.read right offset' length = .ok y ∧
          x.length = length ∧ y.length = length ∧ t.compare left offset right offset' length = .ok d ∧
          Bytes.Compared x y d ∧ t.compare right offset' left offset length = .ok (-d)) ∧
      ∀ t', t.copy left offset right offset' length .plain = (.ok (), t') →
        left.id ≠ right.id ∨ offset + length ≤ offset' ∨ offset' + length ≤ offset →
        t'.compare left offset right offset' length = .ok 0 := by
  intro t left offset right offset' length
  have hsteps := steps_run (opened heap budget alignment) requests
  have hview : t.nonNull.WellFormed := hsteps.wellFormed_nonNull hs hg
  have hguarded : t.Guarded := (hsteps.sized (Tracker.sized_ofHeap heap budget)).guarded
  constructor
  · intro hleft hright
    obtain ⟨x, hx, hxl⟩ := hguarded.exists_read hleft
    obtain ⟨y, hy, hyl⟩ := hguarded.exists_read hright
    refine ⟨x, y, Bytes.difference x y, hx, hy, hxl, hyl, Tracker.compare_of_reads hx hy,
      Bytes.compared (hxl.trans hyl.symm), ?_⟩
    rw [Tracker.compare_of_reads hy hx, Bytes.difference_comm]
  · intro t' hcopy happart
    exact (Tracker.copied_of_nonNull hview hcopy).compare happart

/-- A byte of 128 is more than one of 127, whatever comes after them. -/
theorem run_compared_unsigned :
    let block : Block := .place 1 65536 8 8 .byte 0
    let t := ((opened BumpHeap.system none .byte).run
      [.allocate 8 .byte, .write block 0 [7, 128, 0, 7, 127, 9]]).tracker
    t.Reaches block 0 3 ∧ t.Reaches block 3 3 ∧ t.compare block 0 block 3 3 = .ok 1 ∧
      t.compare block 3 block 0 3 = .ok (-1) ∧ [7, 127, 9] < ([7, 128, 0] : List UInt8) ∧
      ∃ t', t.copy block 0 block 3 3 .plain = (.ok (), t') ∧ t'.compare block 0 block 3 3 = .ok 0 := by
  intro block t
  have hs : Sound (NonNull.mk BumpHeap.system) := BumpHeap.orderly_plain_ofPlan (by decide)
  obtain ⟨hordered, hcopied⟩ := run_compared hs (fun _ => List.not_mem_nil) none .byte
    [.allocate 8 .byte, .write block 0 [7, 128, 0, 7, 127, 9]] block 0 block 3 3
  have hleft : t.Reaches block 0 3 := by
    refine ⟨block, ?_, ?_⟩ <;> decide +kernel
  have hright : t.Reaches block 3 3 := by
    refine ⟨block, ?_, ?_⟩ <;> decide +kernel
  have hx : t.read block 0 3 = .ok [7, 128, 0] := by decide +kernel
  have hy : t.read block 3 3 = .ok [7, 127, 9] := by decide +kernel
  obtain ⟨x, y, d, hx', hy', -, -, hd, hcompared, hback⟩ := hordered hleft hright
  obtain rfl := Except.ok.inj (hx.symm.trans hx')
  obtain rfl := Except.ok.inj (hy.symm.trans hy')
  obtain rfl := hcompared.first [7] 128 127 [0] [9] rfl rfl (by decide)
  have hgranted : (t.copy block 0 block 3 3 .plain).1 = .ok () := by decide +kernel
  exact ⟨hleft, hright, hd, hback, hcompared.pos_iff.mp (by decide), _, Prod.ext hgranted rfl,
    hcopied _ (Prod.ext hgranted rfl) (.inr (.inl (by decide)))⟩

end TrackedHeap.Workspace
