import TrackedHeap.Heap.Bump
import TrackedHeap.Proofs.Tracker.Access
import TrackedHeap.Proofs.Workspace.Steps

/-!
# Forged handles reach nothing

Clients may make up handles, or keep them when a block is resized. In whatever state a workspace is, and over
whatever heap, what such a handle says besides its id changes nothing, and no access is granted beyond the size
that the tracker has on record (`Workspace.run_guarded`).
-/

namespace TrackedHeap.Workspace

/-- Handles with one id do the same, accesses are granted exactly within bounds, and elements are reversed exactly
if they are of 2, 4 or 8 bytes and fill the length. -/
theorem run_guarded {H : Type} [Heap H] (heap : H) (budget : Option Nat) (alignment : Alignment)
    (requests : List Request) :
    let t := ((opened heap budget alignment).run requests).tracker
    t.Interchangeable ∧ t.Guarded ∧
      ∀ (mode : CopyMode) (length : Nat), (mode.validate length = .ok () ↔ mode.Fits length) ∧
        ∀ e, mode.validate length = .error e → e.kind = .invalidArgument := by
  intro t
  have hsized : t.Sized := (steps_run _ requests).sized (Tracker.sized_ofHeap heap budget)
  exact ⟨t.interchangeable, hsized.guarded,
    fun mode length => ⟨CopyMode.validate_eq_ok_iff, fun e => CopyMode.kind_of_validate⟩⟩

/-- Of a block of 10 bytes in a range of 73, a handle that claims a page reaches 10 bytes, and neither the byte after
them nor one whose place is no word. -/
theorem run_guarded_forged :
    let t := ((opened (BumpHeap.ofPlan {}) none .byte).run [.allocate 10 .cacheLine]).tracker
    let own : Block := .place 1 65536 10 73 .cacheLine 0
    let forged : Block := .place 1 0 4096 8191 .page 5
    t.lookup 1 = some own ∧ t.free own = t.free forged ∧ t.access forged 0 10 = .ok () ∧
      t.access forged 10 1 = .error (.boundsViolation 10 1 10) ∧
      t.access forged (Word.limit - 1) 1 = .error (.boundsViolation (Word.limit - 1) 1 10) ∧
      (t.copy own 0 forged 4 6 (.byteSwap 2)).1 = .ok () ∧
      (t.copy own 0 forged 6 6 (.byteSwap 2)).1 = .error (.boundsViolation 6 6 10) := by
  intro t own forged
  obtain ⟨hsame, hguarded, hmode⟩ := run_guarded (BumpHeap.ofPlan {}) none .byte [.allocate 10 .cacheLine]
  have hlive : t.lookup 1 = some own := by decide +kernel
  have hgranted {offset length : Nat} (h : offset + length ≤ 10) (b : Block) (hb : b.id = 1) :
      t.access b offset length = .ok () :=
    (hguarded.granted b offset length).mpr ⟨own, hb ▸ hlive, h⟩
  have hrefused {offset length : Nat} (h : 10 < offset + length) :
      t.access forged offset length = .error (.boundsViolation offset length 10) :=
    ((hguarded.outside forged offset length _).mpr ⟨own, hlive, h, rfl⟩).1
  have hswap : (CopyMode.byteSwap 2).validate 6 = .ok () :=
    (hmode _ _).1.mpr fun w hw => by cases hw; decide
  refine ⟨hlive, hsame.free own forged rfl, hgranted (by decide) forged rfl, hrefused (by decide),
    hrefused (by decide), ?_, ?_⟩
  · rw [hguarded.copy, hswap, hgranted (by decide) own rfl, hgranted (by decide) forged rfl]
    rfl
  · rw [hguarded.copy, hswap, hgranted (by decide) own rfl, hrefused (by decide)]
    rfl

end TrackedHeap.Workspace
