import TrackedHeap.Proofs.Tracker.Accounting
import TrackedHeap.Proofs.Workspace.Steps

/-!
# The figures that a tracker reports

After any run of operations, the figures that a tracker reports are those of its live blocks, and the peak
is the most that was held after any operation so far (`Tracker.Audited`). All that pools, carvers and
registries do is such a run, so the figures are right in every workspace (`Workspace.run_audited`).

The heap may refuse at any call, and may do so by answering with the address 0.
-/

namespace TrackedHeap

/-- The figures after a run of operations that began in a given state. -/
structure Tracker.Audited {H : Type} [Heap H] (start : Tracker H) (acts : List Act) : Prop where
  /-- The bytes held are the padded sizes of the live blocks. -/
  current : (start.run acts).report.current = ((start.run acts).blocks.map Block.paddedSize).sum
  /-- Every live block has an id of its own, and there are as many as reported. -/
  active : (start.run acts).report.active = {id | ((start.run acts).lookup id).isSome}.ncard
  nodup : ((start.run acts).blocks.map Block.id).Nodup
  net : Word.subWrap (start.run acts).report.allocated (start.run acts).report.freed =
    (start.run acts).report.current
  peak : IsGreatest {n | ∃ past, past <+: acts ∧ (start.run past).report.current = n}
    (start.run acts).report.peak
  /-- What would be refused next would change no figure. -/
  refused : ∀ a e, ((start.run acts).act a).1 = .error e →
    ((start.run acts).act a).2.report = (start.run acts).report

namespace Workspace

open LawfulHeap (Sound Granted)

variable {H : Type} [Heap H] [LawfulHeap (NonNull H)]

/-- The figures are right after any operations, and whatever is asked of a workspace is a run of them. -/
theorem run_audited {heap : H} (hs : Sound (NonNull.mk heap))
    (hg : ∀ e, ¬ Granted (NonNull.mk heap) e) (budget : Option Nat) :
    (∀ acts, (Tracker.ofHeap heap budget).Audited acts) ∧
      ∀ alignment (requests : List Request), ∃ stages : List (List Tracker.Act),
        stages.length = requests.length ∧
          ∀ n, ((opened heap budget alignment).run (requests.take n)).tracker =
            (Tracker.ofHeap heap budget).run (stages.take n).flatten := by
  refine ⟨fun acts => ?_, fun alignment requests => exists_stages _ requests⟩
  have htallies := Tracker.tallies_run hs hg budget acts
  have hview : ((Tracker.ofHeap heap budget).run acts).nonNull.WellFormed :=
    (Tracker.steps_run _ acts).wellFormed_nonNull hs hg
  refine ⟨htallies.current, hview.ncard_live.symm, hview.layout.nodup_ids, ?_, ?_, ?_⟩
  · have hlt := hview.held_lt
    have hnet := htallies.net
    rw [← htallies.current] at hnet
    exact Word.subWrap_of_modEq hnet (htallies.current.trans_lt hlt)
  · refine Tracker.isGreatest_peak rfl (fun past => ?_) acts
    have hpast := Tracker.tallies_run hs hg budget past
    exact hpast.current.trans_le hpast.le_peak
  · exact fun a e hact => Tracker.report_refused hact

/-- A request answered with the address 0, one refused, a block that grows and shrinks, and one that goes. -/
theorem run_audited_mixed :
    let t : Tracker BumpHeap := .ofHeap (.ofPlan { null := [2], failing := [3] }) none
    let acts : List Tracker.Act :=
      [.allocate 100 .byte, .allocate 10 .byte, .allocate 20 .byte,
        .reallocate (.place 1 0 0 0 .byte 0) 300, .reallocate (.place 2 0 0 0 .byte 0) 50,
        .allocate 30 .word, .free (.place 3 0 0 0 .byte 0)]
    t.Audited acts ∧ (t.run acts).usage = ⟨337, 300, 37, 300⟩ := by
  refine ⟨(run_audited ?_ ?_ none).1 _, by decide +kernel⟩
  · exact BumpHeap.orderly_plain_ofPlan (by decide)
  · exact fun _ => List.not_mem_nil

end Workspace

end TrackedHeap
