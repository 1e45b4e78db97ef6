import TrackedHeap.Pool
import TrackedHeap.Proofs.Tracker.Turnover

/-!
# What a pool may return

A pool returns blocks that it was handed, and those are the only ones it ever names to the tracker.
-/

namespace TrackedHeap.Pool

open Tracker (Turnover)

variable {H : Type}

/-- The ids of the kept blocks. -/
def kept (p : Pool) : List Nat :=
  p.queue.map Block.id

theorem eq_of_make {p : Pool} {blockSize limit : Nat} {alignment : Alignment}
    (hm : make blockSize alignment limit = .ok p) : p = { blockSize, alignment, limit } := by
  unfold make at hm
  split at hm
  · cases hm
  · split at hm <;> cases hm
    rfl

theorem kept_of_make {p : Pool} {blockSize limit : Nat} {alignment : Alignment}
    (hm : make blockSize alignment limit = .ok p) : p.kept = [] := by
  rw [eq_of_make hm]
  rfl

variable [Heap H]

theorem turnover_acquire (p : Pool) (t : Tracker H) : Turnover t (p.acquire t).2.2 [] [] := by
  have hturn := t.turnover_allocate p.blockSize p.alignment
  fun_cases Pool.acquire p t
  case case1 => exact .refl _ _
  case case2 h => rwa [h] at hturn
  case case3 h => rwa [h] at hturn

theorem kept_acquire {p : Pool} {t : Tracker H} {id : Nat} (h : id ∈ (p.acquire t).2.1.kept) :
    id ∈ p.kept := by
  revert h
  fun_cases Pool.acquire p t
  case case1 block rest hq =>
    intro h
    rw [kept, hq]
    exact List.mem_cons_of_mem _ h
  all_goals exact fun h => h

theorem turnover_release (p : Pool) (t : Tracker H) (handle : Block) :
    Turnover t (p.release t handle).2.2 [handle.id] [] := by
  have hzero := t.turnover_fill handle 0 handle.requestedSize 0
  rw [← Tracker.zero] at hzero
  have hnone {t' : Tracker H} (h : Turnover t t' [] []) : Turnover t t' [handle.id] [] :=
    h.widen (by simp)
  fun_cases Pool.release p t handle
  case case1 => exact hnone (.refl _ _)
  case case2 => exact hnone (.refl _ _)
  case case3 h =>
    rw [h] at hzero
    exact hnone hzero
  case case4 h _ =>
    rw [h] at hzero
    exact hnone hzero
  case case5 t₁ h _ _ _ h' =>
    rw [h] at hzero
    have hfree := t₁.turnover_free handle
    rw [h'] at hfree
    exact (hnone hzero).andThen hfree
  case case6 t₁ h _ _ _ h' =>
    rw [h] at hzero
    have hfree := t₁.turnover_free handle
    rw [h'] at hfree
    exact (hnone hzero).andThen hfree

/-- The block of a handle that a pool keeps is live, for it was set to zero. -/
theorem kept_release {p : Pool} {t : Tracker H} (hn : t.Numbered) {handle : Block} {id : Nat}
    (h : id ∈ (p.release t handle).2.1.kept) :
    id ∈ p.kept ∨ id = handle.id ∧ handle.id < t.nextId := by
  revert h
  fun_cases Pool.release p t handle
  case case4 hzero _ =>
    intro h
    rw [kept, List.map_append, List.mem_append, List.map_singleton, List.mem_singleton] at h
    refine h.imp_right fun he => ⟨he, ?_⟩
    obtain ⟨-, b, hb, hid⟩ := Tracker.fill_ok hzero
    exact hid ▸ hn.issued b hb
  all_goals exact .inl

/-- What was kept goes back to the tracker, one block after another. -/
theorem clear_tracker (p : Pool) (t : Tracker H) : (p.clear t).2.2 = t.returnAll p.queue := by
  unfold clear Tracker.returnAll
  refine (List.foldl_hom Prod.snd fun s block => ?_).symm
  obtain ⟨count, t⟩ := s
  simp only
  split <;> next h => rw [h]

theorem turnover_clear (p : Pool) (t : Tracker H) : Turnover t (p.clear t).2.2 p.kept [] := by
  rw [clear_tracker]
  exact t.turnover_returnAll (fun _ => List.mem_map_of_mem) (by simp) (by simp)

end TrackedHeap.Pool
