import TrackedHeap.Proofs.Carver.Refusal
import TrackedHeap.Proofs.Tracker.NonNull
import TrackedHeap.Proofs.Workspace.Steps

/-!
# What is refused changes nothing

In every workspace, whatever is refused by the tracker, a pool or a carver leaves all of it as it was: the
live blocks with their bytes, the ids, the totals, what the pool keeps, and what the carver has carved, of
which a refused request is at most counted (`Workspace.run_unharmed`). Handles may be made up, and the heap
may refuse at any call, also by answering with the address 0.
-/

namespace TrackedHeap

namespace Pool

variable {H : Type} [Heap H] {p p' : Pool} {t t' : Tracker H} {e : MemoryError}

theorem acquire_refused (h : p.acquire t = (.error e, p', t')) : p' = p ∧ t.Denied e t' := by
  revert h
  fun_cases Pool.acquire p t
  case case1 => exact fun h => by cases h
  case case2 ha => exact fun h => by cases h; exact ⟨rfl, .inr ⟨_, _, ha⟩⟩
  case case3 => exact fun h => by cases h

theorem release_refused {handle : Block} (h : p.release t handle = (.error e, p', t')) :
    p' = p ∧ t' = t := by
  revert h
  fun_cases Pool.release p t handle
  case case1 => exact fun h => by cases h
  case case2 => exact fun h => by cases h; exact ⟨rfl, rfl⟩
  case case3 hzero => exact fun h => by cases h; exact ⟨rfl, Tracker.fill_refused hzero⟩
  case case4 => exact fun h => by cases h
  case case5 hsize hnew t₁ hzero hfull e' t₂ hfree =>
    intro h
    -- a block that could be set to zero is live, so it can be returned
    obtain ⟨hblocks, hlive⟩ := Tracker.fill_ok hzero
    rw [← hblocks] at hlive
    obtain ⟨b, hok⟩ := Tracker.free_of_live hlive
    rw [hfree] at hok
    cases hok
  case case6 => exact fun h => by cases h

end Pool

theorem Tracker.Denied.unharmed {H : Type} [Heap H] [LawfulBytes (NonNull H)] {t t' : Tracker H}
    {e : MemoryError} (h : t.Denied e t') (hview : t.nonNull.WellFormed) : t.Unharmed t' := by
  rcases h with rfl | ⟨size, alignment, ha⟩
  · exact .refl _
  · have hact : (t.act (.allocate size alignment)).1 = .error e := answered_eq_error.mpr (by rw [ha])
    have hunharmed := unharmed_act_of_nonNull hview hact
    rw [act, answered_snd, ha] at hunharmed
    exact hunharmed

namespace Workspace

open LawfulHeap (Sound Granted)

/-- Whatever fails in a workspace has no effect, but that a carver counts it. -/
theorem run_unharmed {H : Type} [Heap H] [LawfulBytes (NonNull H)] {heap : H}
    (hs : Sound (NonNull.mk heap)) (hg : ∀ e, ¬ Granted (NonNull.mk heap) e) (budget : Option Nat)
    (alignment : Alignment) (requests : List Request) :
    let t := ((opened heap budget alignment).run requests).tracker
    (∀ a e, (t.act a).1 = .error e → t.Unharmed (t.act a).2) ∧
      (∀ p e p' t', Pool.acquire p t = (.error e, p', t') → p' = p ∧ t.Unharmed t') ∧
      (∀ p handle e p' t', Pool.release p t handle = (.error e, p', t') → p' = p ∧ t' = t) ∧
      (∀ c size e c' t', Carver.allocate c t size = (.error e, c', t') →
        c' = c.missed size ∧ t.Unharmed t') ∧
      ∀ c handle e c' t', Carver.release c t handle = (.error e, c', t') → c' = c ∧ t' = t := by
  intro t
  have hview : t.nonNull.WellFormed :=
    (steps_run (opened heap budget alignment) requests).wellFormed_nonNull hs hg
  refine ⟨?_, ?_, ?_, ?_, ?_⟩
  · intro a e h
    exact Tracker.unharmed_act_of_nonNull hview h
  · intro p e p' t' h
    obtain ⟨rfl, hd⟩ := Pool.acquire_refused h
    exact ⟨rfl, hd.unharmed hview⟩
  · intro p handle e p' t' h
    exact Pool.release_refused h
  · intro c size e c' t' h
    obtain ⟨rfl, hd⟩ := Carver.allocate_refused h
    exact ⟨rfl, hd.unharmed hview⟩
  · intro c handle e c' t' h
    exact Carver.release_refused h

/-- The second call of the heap is refused: when a block is resized, and when a carver asks for its first
slab, where the answer is the address 0. -/
theorem run_unharmed_refused :
    let handle : Block := .place 1 0 0 0 .byte 0
    let t := ((opened (BumpHeap.ofPlan { failing := [2], null := [2] }) none .byte).run
      [.allocate 8 .word, .write handle 0 [1, 2, 3]]).tracker
    let c : Carver := .slab { alignment := .byte, total := 100, slabSize := 10 }
    ((t.act (.reallocate handle 16)).1 = .error (.outOfMemory 23 0) ∧
        t.Unharmed (t.act (.reallocate handle 16)).2) ∧
      (c.allocate t 5).1 = .error (.outOfMemory 10 0) ∧ (c.allocate t 5).2.1 = c.missed 5 ∧
        t.Unharmed (c.allocate t 5).2.2 := by
  intro handle t c
  have hs : Sound (NonNull.mk (BumpHeap.ofPlan { failing := [2], null := [2] })) :=
    BumpHeap.orderly_plain_ofPlan (by decide)
  obtain ⟨hact, -, -, hcarve, -⟩ := run_unharmed hs (fun _ => List.not_mem_nil) none .byte
    [.allocate 8 .word, .write handle 0 [1, 2, 3]]
  have hresize : (t.act (.reallocate handle 16)).1 = .error (.outOfMemory 23 0) := by decide +kernel
  have hslab : (c.allocate t 5).1 = .error (.outOfMemory 10 0) := by decide +kernel
  exact ⟨⟨hresize, hact _ _ hresize⟩, hslab, hcarve c 5 _ _ _ (Prod.ext hslab rfl)⟩

end Workspace

end TrackedHeap
