import TrackedHeap.Proofs.Heap.Bump
import TrackedHeap.Proofs.Heap.NonNull
import TrackedHeap.Proofs.Tracker.Resize
import TrackedHeap.Proofs.Tracker.Stale
import TrackedHeap.Proofs.Workspace.Steps

/-!
# Resized blocks of a workspace

After any run, whenever resizing a live block succeeds, the result holds the bytes of the old block at an aligned
address, under an id that no block had before, and the totals differ by the padded sizes (`Workspace.run_resized`).

The heap may move the range or leave it, and may have answered any call with a refusal or the address 0.
-/

namespace TrackedHeap

namespace Workspace

open LawfulHeap (Sound Granted)

/-- Resizing succeeds with the bytes of the block, after any operations, and whatever is asked of a workspace is a
run of them. -/
theorem run_resized {H : Type} [Heap H] [LawfulBytes (NonNull H)] {heap : H} (hs : Sound (NonNull.mk heap))
    (hg : ∀ e, ¬ Granted (NonNull.mk heap) e) (budget : Option Nat) :
    (∀ acts, ∀ old ∈ ((Tracker.ofHeap heap budget).run acts).blocks, ∀ handle : Block, handle.id = old.id →
      ∀ size block t', ((Tracker.ofHeap heap budget).run acts).reallocate handle size = (.ok block, t') →
        ((Tracker.ofHeap heap budget).run acts).Resized t' old size block ∧
          ∀ past, past <+: acts → ∀ b ∈ ((Tracker.ofHeap heap budget).run past).blocks, b.id < block.id) ∧
      ∀ alignment (requests : List Request), ∃ acts,
        (Tracker.ofHeap heap budget).run acts = ((opened heap budget alignment).run requests).tracker := by
  refine ⟨fun acts old hold handle hid size block t' hr => ?_, fun alignment requests => ?_⟩
  · have hresized := Tracker.resized_run hs hg budget acts hold hid hr
    refine ⟨hresized, fun past hpast b hb => ?_⟩
    rw [hresized.id_eq]
    exact Tracker.id_lt_of_mem_run hpast hb
  · exact (steps_run (opened heap budget alignment) requests).exists_run

/-- A block of three bytes of which the padding shrinks as it is moved, once to two bytes and once to a larger size. -/
theorem run_resized_moved :
    let acts : List Tracker.Act :=
      [.advance 7, .allocate 3 .page, .allocate 4 .word, .write (.place 1 0 0 0 .byte 0) 0 [1, 2, 3]]
    let t := (Tracker.ofHeap (BumpHeap.ofPlan { base := 65537 }) none).run acts
    let old : Block := .place 1 65537 3 4098 .page 7
    let small : Block := .place 3 69665 2 4097 .page 7
    let large : Block := .place 3 69665 5000 9095 .page 7
    old ∈ t.blocks ∧ small.padding < old.padding ∧
      ((t.reallocate old 2).1 = .ok small ∧ t.Resized (t.reallocate old 2).2 old 2 small) ∧
      (t.reallocate old 5000).1 = .ok large ∧ t.Resized (t.reallocate old 5000).2 old 5000 large := by
  intro acts t old small large
  have hs : Sound (NonNull.mk (BumpHeap.ofPlan { base := 65537 })) :=
    BumpHeap.orderly_plain_ofPlan (by decide)
  have hrun := (run_resized hs (fun _ => List.not_mem_nil) none).1 acts
  have hold : old ∈ t.blocks := by decide +kernel
  have hsmall : (t.reallocate old 2).1 = .ok small := by decide +kernel
  have hlarge : (t.reallocate old 5000).1 = .ok large := by decide +kernel
  have hresult {size : Nat} {block : Block} (hr : (t.reallocate old size).1 = .ok block) :
      t.Resized (t.reallocate old size).2 old size block :=
    (hrun old hold old rfl size block _ (Prod.ext hr rfl)).1
  exact ⟨hold, by decide, ⟨hsmall, hresult hsmall⟩, hlarge, hresult hlarge⟩

end Workspace

end TrackedHeap
