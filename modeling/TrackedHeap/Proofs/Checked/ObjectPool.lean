import TrackedHeap.Proofs.Carver.Tally
import TrackedHeap.Proofs.Checked.Basic
import TrackedHeap.Proofs.Ownership.Usage

/-!
# Object pools within words

A request that is no word together with the bytes of the pool is the one thing that stops it
(`ObjectPool.allocateChecked_overflow`, `ObjectPool.Exact.allocateChecked`). What waits and what clients have is in
the bytes of the pool, which fit into its capacity, so no other sum of sizes is larger. What comes back is taken off
the bytes as far as they go. A reset counts the blocks that it returns with fewer bits than a word has, and so it stops
exactly if too many ranges wait (`ObjectPool.Sound.resetChecked`).
-/

namespace TrackedHeap.ObjectPool

open Checked (add sub countOne countLimit ok_bind add_eq sub_eq countOne_eq)
open CarveOut (grantedBytes_append)

variable {H : Type} {t : Tracker H} {p : ObjectPool} {out : List CarveOut} {size : Nat}

/-- Keeps the range of a handle for reuse, as the handle describes it. -/
def releaseChecked (p : ObjectPool) (t : Tracker H) (handle : CarveOut) : Checked (Outcome Unit ObjectPool) :=
  if handle.offset ≠ 0 ∨ handle.block.id ∉ p.owned then
    .ok (.error (.notOwnedByPool handle.offset handle.block.id), p)
  else if handle.requestedSize ≠ handle.block.requestedSize then
    .ok (.error (.holdsOtherSize handle.block.id handle.block.requestedSize handle.requestedSize), p)
  else if !t.isLive handle.block then .ok (.error (.notAllocated handle.block.id), p)
  else if p.holds handle then .ok (.error (.alreadyPooled handle.block.id), p)
  else do
    let tally ← p.tally.returnedChecked
    return (.ok (),
      { p with queued := p.queued ++ [handle], allocated := p.allocated - handle.requestedSize, tally })

theorem releaseChecked_eq (hr : p.tally.HasRoom) (t : Tracker H) (handle : CarveOut) :
    p.releaseChecked t handle = .ok (p.release t handle) := by
  rw [releaseChecked, hr.returnedChecked, ok_bind]
  fun_cases ObjectPool.release p t handle
  case case1 hforeign => exact if_pos hforeign
  case case2 howned hsize => rw [if_neg howned, if_pos hsize]
  case case3 howned hsize hdead => rw [if_neg howned, if_neg hsize, if_pos hdead]
  case case4 howned hsize hlive hheld => rw [if_neg howned, if_neg hsize, if_neg hlive, if_pos hheld]
  case case5 howned hsize hlive hnot =>
    rw [if_neg howned, if_neg hsize, if_neg hlive, if_neg hnot]
    rfl

variable [Heap H]

/-- Takes a range for a request, which is not counted yet. -/
def carveChecked (p : ObjectPool) (t : Tracker H) (size : Nat) :
    Checked (Outcome CarveOut (ObjectPool × Tracker H)) :=
  if size = 0 then .ok (.error .zeroAllocation, p, t)
  else
    match p.queued.find? fun c => c.requestedSize == size with
    | some c => do
      let allocated ← add p.allocated size
      return (.ok c, { p with queued := p.queued.erase c, allocated }, t)
    | none => do
      let needed ← add p.used size
      if p.total < needed then do
        let rest ← sub p.total p.used
        return (.error (.outOfMemory size rest), p, t)
      else do
        match ← t.allocateChecked size p.alignment with
        | (.error e, t) => return (.error e, p, t)
        | (.ok block, t) => do
          let used ← add p.used size
          let allocated ← add p.allocated size
          return (.ok { block, offset := 0, grantedSize := size, requestedSize := size },
            { p with owned := block.id :: p.owned, used, allocated }, t)

/-- Takes a range for a request. -/
def allocateChecked (p : ObjectPool) (t : Tracker H) (size : Nat) :
    Checked (Outcome CarveOut (ObjectPool × Tracker H)) := do
  let (result, p, t) ← p.carveChecked t size
  let tally ← p.tally.recordChecked result
  return (result, { p with tally }, t)

/-- Returns the block of one more range to the tracker, and counts it if the tracker takes it. -/
def returnChecked : Nat × Outcome Unit (ObjectPool × Tracker H) → CarveOut →
    Checked (Nat × Outcome Unit (ObjectPool × Tracker H))
  | (released, result, p, t), c =>
    match t.free c.block with
    | (.ok _, t) => do
      let released ← countOne released
      return (released, result, p.forget c, t)
    | (.error e, t) =>
      match result with
      | .ok () => .ok (released, .error e, p.forget c, t)
      | .error first => .ok (released, .error first, p.forget c, t)

/-- Returns the blocks of ranges to the tracker, counts those that it takes, and keeps the first refusal. -/
def drainChecked (p : ObjectPool) (t : Tracker H) (ranges : List CarveOut) :
    Checked (Nat × Outcome Unit (ObjectPool × Tracker H)) :=
  ranges.foldlM returnChecked (0, .ok (), p, t)

/-- Returns every range that waits to the tracker; the others stay with the clients. -/
def resetChecked (p : ObjectPool) (t : Tracker H) : Checked (Outcome Unit (ObjectPool × Tracker H)) := do
  let (_, result, p, t) ← p.drainChecked t p.queued
  return (result, { p with queued := [], allocated := p.used }, t)

/-- A request that is no word together with the bytes of the pool stops it, unless a range of the size waits. -/
theorem allocateChecked_overflow (t : Tracker H) (hsize : size ≠ 0)
    (hnone : (p.queued.find? fun c => c.requestedSize == size) = none) (hover : Word.limit ≤ p.used + size) :
    p.allocateChecked t size = .error .overflow := by
  have hsum : add p.used size = .error .overflow := if_neg (Nat.not_lt.mpr hover)
  rw [allocateChecked, carveChecked, if_neg hsize]
  simp only [hnone, hsum]
  rfl

namespace Exact

omit [Heap H] in
theorem allocated_le_used (h : p.Exact out) : p.allocated ≤ p.used := by
  rw [h.allocated_eq, h.used_eq, grantedBytes_append]
  exact Nat.le_add_left _ _

theorem carveChecked (h : p.Exact out) (hs : p.Sound t out) (ht : t.Regular) (htotal : p.total < Word.limit)
    (hsize : p.used + size < Word.limit) : p.carveChecked t size = .ok (p.carve t size) := by
  have hle := h.allocated_le_used
  rw [ObjectPool.carveChecked]
  fun_cases ObjectPool.carve p t size
  case case1 hzero => exact if_pos hzero
  case case2 hzero c hfind =>
    have hmem := List.mem_of_find?_eq_some hfind
    have hrequested : c.requestedSize = size := by simpa using List.find?_some hfind
    have hw := hs.whole c (List.mem_append_left _ hmem)
    have hsum : p.allocated + size < Word.limit := by
      have hreused := (h.reuse hmem (hw.granted_eq.trans hw.requested_eq.symm)).le_total
      rw [← hrequested]
      exact Nat.lt_of_le_of_lt hreused htotal
    rw [if_neg hzero]
    simp only [hfind]
    rw [add_eq hsum, ObjectPool.reuse, hrequested]
    rfl
  case case3 hzero hnone hfull =>
    rw [if_neg hzero]
    simp only [hnone]
    rw [add_eq hsize, ok_bind, if_pos hfull, sub_eq h.used_le]
    rfl
  case case4 hzero hnone hroom e t₁ ha =>
    rw [if_neg hzero]
    simp only [hnone]
    rw [add_eq hsize, ok_bind, if_neg hroom, ht.allocateChecked, ok_bind, ha]
    rfl
  case case5 hzero hnone hroom block t₁ ha =>
    rw [if_neg hzero]
    simp only [hnone]
    rw [add_eq hsize, ok_bind, if_neg hroom, ht.allocateChecked, ok_bind, ha, add_eq (by omega)]
    rfl

theorem allocateChecked (h : p.Exact out) (hs : p.Sound t out) (ht : t.Regular) (hr : p.tally.HasRoom)
    (htotal : p.total < Word.limit) (hsize : p.used + size < Word.limit) :
    p.allocateChecked t size = .ok (p.allocate t size) := by
  rw [ObjectPool.allocateChecked, h.carveChecked hs ht htotal hsize, ok_bind]
  simp only [p.tally_carve, hr.recordChecked, ok_bind]
  rw [ObjectPool.allocate, ← p.tally_carve t size]
  rfl

end Exact

/-! ## Resets -/

/-- What bounds the sums of a pool. -/
structure Bounded (p : ObjectPool) : Prop where
  total_lt : p.total < Word.limit
  /-- What waits was counted when it came back. -/
  queued_le : p.queued.length ≤ p.tally.deallocations

theorem bounded_of_make {total : Nat} {alignment : Alignment} (htotal : total < Word.limit)
    (hm : make total alignment = .ok p) : p.Bounded := by
  revert hm
  rw [make]
  split
  · exact fun hm => by cases hm
  · intro hm
    cases hm
    exact ⟨htotal, Nat.le_refl _⟩

namespace Bounded

theorem with_queue (h : p.Bounded) {p' : ObjectPool} (htotal : p'.total = p.total)
    (hqueued : p'.queued.length ≤ p.queued.length) (htally : p'.tally.deallocations = p.tally.deallocations) :
    p'.Bounded :=
  ⟨htotal ▸ h.total_lt, htally ▸ Nat.le_trans hqueued h.queued_le⟩

theorem allocate (h : p.Bounded) (t : Tracker H) (size : Nat) : (p.allocate t size).2.1.Bounded := by
  have htally : (p.allocate t size).2.1.tally.deallocations = p.tally.deallocations := by
    rw [p.tally_allocate]
    cases (p.allocate t size).1 <;> rfl
  refine h.with_queue ?_ ?_ htally
  · show (p.carve t size).2.1.total = p.total
    fun_cases ObjectPool.carve p t size <;> rfl
  · show (p.carve t size).2.1.queued.length ≤ p.queued.length
    fun_cases ObjectPool.carve p t size
    case case2 hsize c hfind => exact List.length_erase_le
    all_goals exact Nat.le_refl _

omit [Heap H] in
theorem release (h : p.Bounded) (t : Tracker H) (handle : CarveOut) : (p.release t handle).2.Bounded := by
  fun_cases ObjectPool.release p t handle
  case case5 => exact ⟨h.total_lt, by simpa [Tally.returned] using h.queued_le⟩
  all_goals exact h

theorem reset (h : p.Bounded) (t : Tracker H) : (p.reset t).2.1.Bounded := by
  have htotal : (p.reset t).2.1.total = p.total := by
    show (p.drain t p.queued).2.1.total = p.total
    rw [drain_pool]
    exact (p.used_forget p.queued).2
  exact h.with_queue htotal (Nat.zero_le _) (by rw [p.tally_reset])

end Bounded

/-- Blocks that can all go back do so and are counted one after another, as long as the count goes. -/
theorem foldlM_returnChecked {ranges : List CarveOut} {n : Nat} (hn : n < countLimit)
    (h : t.Returnable (ranges.map CarveOut.block)) (p : ObjectPool) :
    ranges.foldlM returnChecked (n, .ok (), p, t) =
      if n + ranges.length < countLimit then .ok (n + ranges.length, p.drain t ranges) else .error .overflow := by
  induction ranges generalizing n p t with
  | nil => exact (if_pos hn).symm
  | cons c ranges ih =>
    obtain ⟨b, hfree⟩ := Tracker.free_of_live (h.live c.block List.mem_cons_self)
    have htail := h.tail
    generalize (t.free c.block).2 = t' at hfree htail
    have hdrain : p.drain t (c :: ranges) = (p.forget c).drain t' ranges := by
      simp only [drain, List.foldl_cons, hfree]
    rw [List.foldlM_cons, List.length_cons, hdrain, returnChecked, hfree]
    by_cases hone : n + 1 < countLimit
    · simp only [countOne_eq hone, ok_bind]
      rw [show n + (ranges.length + 1) = n + 1 + ranges.length by omega]
      exact ih hone htail (p.forget c)
    · have hstop : countOne n = .error .overflow := if_neg hone
      rw [if_neg (by omega)]
      simp only [hstop]
      rfl

/-- A reset stops exactly if it has more blocks to return than it can count. -/
theorem Sound.resetChecked (h : p.Sound t out) :
    p.resetChecked t = if p.queued.length < countLimit then .ok (p.reset t) else .error .overflow := by
  rw [ObjectPool.resetChecked, drainChecked, foldlM_returnChecked (by decide) h.returnable, Nat.zero_add]
  split
  · rfl
  · rfl

end TrackedHeap.ObjectPool
