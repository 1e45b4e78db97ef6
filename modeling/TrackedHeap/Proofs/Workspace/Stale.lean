import TrackedHeap.Proofs.Tracker.Stale
import TrackedHeap.Proofs.Workspace.Steps

/-!
# Stale handles stay stale

Over whatever heap, ids are given out in rising order, and a handle whose id was taken out of use is refused
ever after, whatever is done in between and whatever else the handle says (`Workspace.retired_spent`). In a
workspace the block may have been returned by a pool, a carver or a registry: once it was live and is live
no longer, its handles are refused.
-/

namespace TrackedHeap

namespace Workspace

open Tracker (Spent)

theorem run_append {H : Type} [Heap H] (w : Workspace H) (requests later : List Request) :
    w.run (requests ++ later) = (w.run requests).run later :=
  List.foldl_append

/-- No id is given out twice, and handles of an id that went out of use are refused for good. -/
theorem retired_spent {H : Type} [Heap H] (heap : H) (budget : Option Nat) :
    (∀ acts, ((Tracker.ofHeap heap budget).issued acts).Pairwise (· < ·)) ∧
      (∀ before a later id, ((Tracker.ofHeap heap budget).run before).Retires id a →
        ∀ handle : Block, handle.id = id →
          ((Tracker.ofHeap heap budget).run (before ++ a :: later)).Spent handle) ∧
      ∀ alignment before since later id,
        (((opened heap budget alignment).run before).tracker.lookup id).isSome →
        ((opened heap budget alignment).run (before ++ since)).tracker.lookup id = none →
        ∀ handle : Block, handle.id = id →
          ((opened heap budget alignment).run (before ++ since ++ later)).tracker.Spent handle := by
  have hstart : (Tracker.ofHeap heap budget).Assigned := Tracker.assigned_ofHeap heap budget
  refine ⟨fun acts => Tracker.pairwise_issued _ acts, ?_, ?_⟩
  · rintro before a later id hretires handle rfl
    have hassigned := (Tracker.steps_run _ before).assigned hstart
    have hgone := hretires.gone hassigned
    rw [Tracker.run_append]
    exact Tracker.spent_of_lookup ((Tracker.steps_run _ later).gone hgone).unknown
  · rintro alignment before since later id hlive hdead handle rfl
    have hassigned := (steps_run (opened heap budget alignment) before).assigned hstart
    rw [run_append] at hdead
    have hgone := (steps_run _ since).gone_of_lookup hassigned hlive hdead
    rw [run_append, run_append]
    exact Tracker.spent_of_lookup ((steps_run _ later).gone hgone).unknown

/-- A heap with a single place, which it grants to every request. -/
structure SinglePlace where
  contents : Memory := Memory.blank

instance : Heap SinglePlace where
  alloc h _ := (.ok 4096, h)
  release h _ := h
  realloc h _ _ := (.ok 4096, h)
  fill h start length byte := { h with contents := h.contents.fill start length byte }
  store h start bytes := { h with contents := h.contents.store start bytes }
  copy h source target length := { h with contents := h.contents.copy source target length }
  copySwapped h source target length width :=
    { h with contents := h.contents.copySwapped source target length width }
  memory := SinglePlace.contents
  allocCalls _ := 0

/-- A handle of a block that was returned, while a newer block has its address; and one of a block that a
pool returned. -/
theorem retired_spent_reused :
    let t : Tracker SinglePlace := .ofHeap {} none
    let stale : Block := .place 1 4096 8 8 .byte 0
    let w : Workspace SinglePlace := .opened {} none .byte
    let pooled := [.makePool "p" 8 .byte 1, .acquire "p", .release "p" (.place 1 4096 8 8 .byte 0)]
    (t.run [.allocate 8 .byte, .free stale, .allocate 8 .byte]).Spent stale ∧
      (t.run [.allocate 8 .byte, .free stale, .allocate 8 .byte]).blocks =
        [.place 2 4096 8 8 .byte 0] ∧
      (w.run (pooled ++ [.clear "p"] ++ [.allocate 8 .byte])).tracker.Spent stale ∧
      (w.run (pooled ++ [.clear "p"] ++ [.allocate 8 .byte])).tracker.blocks =
        [.place 2 4096 8 8 .byte 0] := by
  intro t stale w pooled
  obtain ⟨-, hacts, hrequests⟩ := retired_spent (SinglePlace.mk Memory.blank) none
  refine ⟨?_, by decide +kernel, ?_, by decide +kernel⟩
  · exact hacts [.allocate 8 .byte] (.free stale) [.allocate 8 .byte] 1 ⟨rfl, _, rfl⟩ stale rfl
  · exact hrequests .byte pooled [.clear "p"] [.allocate 8 .byte] 1 (by decide +kernel)
      (by decide +kernel) stale rfl

end Workspace

end TrackedHeap
