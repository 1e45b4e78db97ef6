import TrackedHeap.Proofs.Heap.NonNull
import TrackedHeap.Proofs.Tracker.Copy
import TrackedHeap.Proofs.Workspace.Steps

/-!
# Copies in a workspace

After any run, a copy between live blocks takes its source as it was before the copy, in both modes and however the
ranges overlap, and changes nothing but the target (`Workspace.run_copied`).

The heap may place ranges where it likes, and may have answered any call with a refusal or the address 0.
-/

namespace TrackedHeap.Workspace

open LawfulHeap (Sound Granted)

/-- Copies succeed exactly within live blocks and in whole elements. The target then holds what the source held
before, with every element reversed if asked, and all else that can be read is as it was. Copied onto themselves
twice, bytes are as they were, and copied to another place and back, those at the first place are. -/
theorem run_copied {H : Type} [Heap H] [LawfulBytes (NonNull H)] {heap : H} (hs : Sound (NonNull.mk heap))
    (hg : ∀ e, ¬ Granted (NonNull.mk heap) e) (budget : Option Nat) (alignment : Alignment)
    (requests : List Request) :
    let t := ((opened heap budget alignment).run requests).tracker
    ∀ (source : Block) (offset : Nat) (target : Block) (offset' length : Nat) (mode : CopyMode),
      ((t.copy source offset target offset' length mode).1 = .ok () ↔
        mode.Fits length ∧ t.Reaches source offset length ∧ t.Reaches target offset' length) ∧
      ∀ t', t.copy source offset target offset' length mode = (.ok (), t') →
        t.Copied t' source offset target offset' length mode ∧
        ∃ t'', t'.copy target offset' source offset length mode = (.ok (), t'') ∧
          t''.read source offset length = t.read source offset length ∧
          (∀ (handle : Block) (o l : Nat), handle.id ≠ target.id ∨ o + l ≤ offset' ∨ offset' + length ≤ o →
            t''.read handle o l = t.read handle o l) ∧
          (target = source → offset' = offset → ∀ handle, t.ReadsSame t'' handle) := by
  intro t source offset target offset' length mode
  have hsteps := steps_run (opened heap budget alignment) requests
  have hview : t.nonNull.WellFormed := hsteps.wellFormed_nonNull hs hg
  have hsized : t.Sized := hsteps.sized (Tracker.sized_ofHeap heap budget)
  refine ⟨hsized.guarded.copy_eq_ok_iff, fun t' hc => ?_⟩
  have hcopied := Tracker.copied_of_nonNull hview hc
  obtain ⟨t'', hback, hcopied'⟩ := Tracker.Copied.exists_back hview hsized hc
  obtain ⟨hsource, hrest⟩ := hcopied.there_and_back hcopied'
  refine ⟨hcopied, t'', hback, hsource, hrest, ?_⟩
  rintro rfl rfl handle
  exact hcopied.twice hcopied'

/-- Two elements of four bytes moved three bytes up in their block, and moved back. -/
theorem run_copied_three_up :
    let block : Block := .place 1 65536 12 12 .byte 0
    let t := ((opened BumpHeap.system none .byte).run
      [.allocate 12 .byte, .write block 0 [0, 1, 2, 3, 4, 5, 6, 7, 8, 9, 10, 11]]).tracker
    ∃ t' t'', t.copy block 0 block 3 8 (.byteSwap 4) = (.ok (), t') ∧
      t'.read block 3 8 = .ok [3, 2, 1, 0, 7, 6, 5, 4] ∧ t'.read block 0 3 = .ok [0, 1, 2] ∧
      t'.copy block 3 block 0 8 (.byteSwap 4) = (.ok (), t'') ∧ t''.read block 0 8 = .ok [0, 1, 2, 3, 4, 5, 6, 7] := by
  intro block t
  have hs : Sound (NonNull.mk BumpHeap.system) := BumpHeap.orderly_plain_ofPlan (by decide)
  obtain ⟨hok, hcopy⟩ := run_copied hs (fun _ => List.not_mem_nil) none .byte
    [.allocate 12 .byte, .write block 0 [0, 1, 2, 3, 4, 5, 6, 7, 8, 9, 10, 11]] block 0 block 3 8 (.byteSwap 4)
  have hread : t.read block 0 8 = .ok [0, 1, 2, 3, 4, 5, 6, 7] := by decide +kernel
  have hgranted : (t.copy block 0 block 3 8 (.byteSwap 4)).1 = .ok () := by
    refine hok.mpr ⟨fun w hw => by cases hw; decide, ⟨block, ?_, ?_⟩, ⟨block, ?_, ?_⟩⟩ <;> decide +kernel
  obtain ⟨hcopied, t'', hback, hsame, -, -⟩ := hcopy _ (Prod.ext hgranted rfl)
  obtain ⟨bytes, hsource, htarget⟩ := hcopied.arrived
  obtain rfl := Except.ok.inj (hread.symm.trans hsource)
  refine ⟨_, t'', Prod.ext hgranted rfl, htarget, ?_, hback, hsame.trans hread⟩
  rw [hcopied.kept block 0 3 (by decide)]
  decide +kernel

end TrackedHeap.Workspace
