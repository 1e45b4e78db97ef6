import TrackedHeap.Proofs.Checked.Run

/-!
# Too many ranges for a reset

A pool of bytes, over a heap that refuses nothing, is asked for one byte again and again, then gets every range back
and is reset (`Carver.crowd`). Every step of this is fair. But a reset counts the ranges that it returns in 32 bits with
a sign, so with `2 ^ 31` of them or more it stops (`Carver.runChecked_crowd`).

How far such a run has come is told by how many ranges were granted and how many of them came back (`ObjectPool.Crowd`).
-/

namespace TrackedHeap

/-- The range that the `i`-th request for a byte is granted, counted from 0. -/
def CarveOut.crowd (i : Nat) : CarveOut :=
  .whole (.place (i + 1) (65536 + 16 * i) 1 1 .byte 0)

/-! ## One step -/

namespace ObjectPool

/-- A pool that has granted `n` ranges of a byte and got the first `k` of them back. -/
structure Crowd (n k : Nat) (p : ObjectPool) (t : Tracker BumpHeap) : Prop where
  plan : t.heap.plan = {}
  next : t.heap.next = 65536 + 16 * n
  nextId : t.nextId = n + 1
  clock : t.clock = 0
  alignment : p.alignment = .byte
  used : p.used = n
  live : ∀ i < n, (CarveOut.crowd i).block ∈ t.blocks
  owned : ∀ i < n, i + 1 ∈ p.owned
  queued : p.queued = (List.range k).map .crowd

namespace Crowd

variable {n k : Nat} {p : ObjectPool} {t : Tracker BumpHeap}

theorem heap_alloc (h : p.Crowd n k t) (hn : n < 2 ^ 40) :
    Heap.alloc t.heap 1 = (.ok (65536 + 16 * n), { t.heap.grant 1 with served := t.heap.served + 1 }) := by
  have hroom : ¬ Word.limit < 65536 + 16 * n + 1 := by
    rw [Word.limit]
    omega
  have hrefuses : t.heap.refuses 1 = false := by simp [BumpHeap.refuses, h.plan, h.next, hroom]
  show t.heap.alloc 1 = _
  rw [BumpHeap.alloc, hrefuses, h.plan, ← h.next]
  rfl

theorem tracker_allocate (h : p.Crowd n k t) (hn : n < 2 ^ 40) :
    t.allocate 1 .byte =
      (.ok (CarveOut.crowd n).block,
        { t with
          heap := { t.heap.grant 1 with served := t.heap.served + 1 }
          blocks := t.blocks ++ [(CarveOut.crowd n).block]
          nextId := t.nextId + 1
          usage := t.usage.add 1 }) := by
  have halloc := h.heap_alloc hn
  have hnow : t.now = 0 := by
    rw [Tracker.now, h.clock]
    rfl
  have hpadded : Alignment.byte.paddedSize 1 = .ok 1 := by decide
  fun_cases Tracker.allocate t 1 .byte
  case case5 hsize padded hp raw heap ha hraw block =>
    cases hpadded.symm.trans hp
    cases halloc.symm.trans ha
    have hblock : block = (CarveOut.crowd n).block := by
      show Block.place t.nextId (65536 + 16 * n) 1 1 .byte t.now = _
      rw [h.nextId, hnow]
      rfl
    rw [hblock]
  case case1 hsize => exact absurd hsize one_ne_zero
  case case2 hsize e hp => cases hpadded.symm.trans hp
  case case3 hsize padded hp e heap ha =>
    cases hpadded.symm.trans hp
    cases halloc.symm.trans ha
  case case4 hsize padded hp heap ha =>
    cases hpadded.symm.trans hp
    have haddress : 65536 + 16 * n = 0 := Except.ok.inj (Prod.mk.inj (halloc.symm.trans ha)).1
    omega

/-- A new pool over a new heap. -/
theorem new (total : Nat) :
    ({ alignment := .byte, total } : ObjectPool).Crowd 0 0 (.ofHeap (.ofPlan {}) none) where
  plan := rfl
  next := rfl
  nextId := rfl
  clock := rfl
  alignment := rfl
  used := rfl
  live i hi := absurd hi (Nat.not_lt_zero i)
  owned i hi := absurd hi (Nat.not_lt_zero i)
  queued := rfl

/-- A pool with room grants the next range. -/
theorem allocate (h : p.Crowd n 0 t) (hn : n < 2 ^ 40) (hroom : n < p.total) :
    ∃ p' t', p.allocate t 1 = (.ok (CarveOut.crowd n), p', t') ∧ p'.Crowd (n + 1) 0 t' ∧ p'.total = p.total := by
  have hnone : (p.queued.find? fun c => c.requestedSize == 1) = none := by
    rw [h.queued]
    rfl
  have hfits : ¬ p.total < p.used + 1 := by
    rw [h.used]
    omega
  have hcarve : p.carve t 1 = (.ok (CarveOut.crowd n), p.adopt (CarveOut.crowd n).block 1, (t.allocate 1 .byte).2) := by
    rw [ObjectPool.carve, if_neg one_ne_zero]
    simp only [hnone, if_neg hfits, h.alignment, h.tracker_allocate hn]
    rfl
  refine ⟨{ p.adopt (CarveOut.crowd n).block 1 with tally := p.tally.record (.ok (CarveOut.crowd n)) },
    (t.allocate 1 .byte).2, by rw [ObjectPool.allocate, hcarve]; rfl, ?_, rfl⟩
  rw [h.tracker_allocate hn]
  refine ⟨h.plan, ?_, ?_, h.clock, h.alignment, ?_, fun i hi => ?_, fun i hi => ?_, h.queued⟩
  · show t.heap.next + t.heap.plan.stride 1 = _
    rw [h.next, h.plan]
    rfl
  · show t.nextId + 1 = _
    rw [h.nextId]
  · show p.used + 1 = _
    rw [h.used]
  · rcases Nat.lt_succ_iff_lt_or_eq.mp hi with hi | rfl
    · exact List.mem_append_left _ (h.live i hi)
    · exact List.mem_append_right _ (List.mem_singleton_self _)
  · rcases Nat.lt_succ_iff_lt_or_eq.mp hi with hi | rfl
    · exact List.mem_cons_of_mem _ (h.owned i hi)
    · exact List.mem_cons_self

/-- A range that has not come back is taken back. -/
theorem release (h : p.Crowd n k t) (hk : k < n) :
    ∃ p', p.release t (.crowd k) = (.ok (), p') ∧ p'.Crowd n (k + 1) t := by
  have howned : ¬ ((CarveOut.crowd k).offset ≠ 0 ∨ (CarveOut.crowd k).block.id ∉ p.owned) :=
    not_or.mpr ⟨not_not.mpr rfl, not_not.mpr (h.owned k hk)⟩
  have hlive : t.isLive (CarveOut.crowd k).block = true :=
    Tracker.isSome_lookup_iff.mpr (List.mem_map_of_mem (h.live k hk))
  have hholds : p.holds (.crowd k) = false := by
    rw [ObjectPool.holds, List.any_eq_false]
    intro c hc
    have hmem := (List.mem_filter.mp hc).1
    rw [h.queued] at hmem
    obtain ⟨i, hi, rfl⟩ := List.mem_map.mp hmem
    have hne : i ≠ k := Nat.ne_of_lt (List.mem_range.mp hi)
    simpa [CarveOut.crowd, CarveOut.whole, Block.place] using hne
  have hsize : ¬ (CarveOut.crowd k).requestedSize ≠ (CarveOut.crowd k).block.requestedSize := not_not.mpr rfl
  refine ⟨_, by rw [ObjectPool.release, if_neg howned, if_neg hsize, hlive, hholds]; rfl, ?_⟩
  refine ⟨h.plan, h.next, h.nextId, h.clock, h.alignment, h.used, h.live, h.owned, ?_⟩
  show p.queued ++ [.crowd k] = _
  rw [h.queued, List.range_succ, List.map_append]
  rfl

end Crowd

end ObjectPool

/-! ## All steps -/

namespace Carver

open Checked

/-- As many requests for one byte, all ranges back in the order in which they were granted, and a reset. -/
def crowd (n : Nat) : List Act :=
  List.replicate n (.allocate 1) ++ (((List.range' 0 n).map fun i => .release (.crowd i)) ++ [.reset])

theorem length_crowd (n : Nat) : (crowd n).length = 2 * n + 1 := by
  simp [crowd]
  omega

/-- Every operation is fair, and some reset has more ranges to count than it can. -/
def Overfull (s : Carver × Tracker BumpHeap) (issued : List CarveOut) (acts : List Act) : Prop :=
  FairRun s issued acts ∧ ¬ CountedRun s acts

theorem Overfull.cons {s : Carver × Tracker BumpHeap} {issued : List CarveOut} {a : Act} {acts : List Act}
    (h : Overfull (act s a).2 (issuedAfter s issued a) acts) (hf : Fair s issued a) : Overfull s issued (a :: acts) :=
  ⟨⟨hf, h.1⟩, fun hc => h.2 hc.2⟩

variable {n k m : Nat} {p : ObjectPool} {t : Tracker BumpHeap} {issued : List CarveOut}

/-- The ranges come back. -/
theorem overfull_releases (h : p.Crowd n k t) (hissued : ∀ i < n, .crowd i ∈ issued) (hmany : countLimit ≤ n)
    (hm : k + m = n) :
    Overfull (.objectPool p, t) issued (((List.range' k m).map fun i => .release (.crowd i)) ++ [.reset]) := by
  induction m generalizing k p with
  | zero =>
    refine ⟨⟨trivial, trivial⟩, fun hc => ?_⟩
    have hwaits : p.queued.length < countLimit := hc.1 rfl
    rw [h.queued, List.length_map, List.length_range] at hwaits
    omega
  | succ m ih =>
    obtain ⟨p', hrelease, h'⟩ := h.release (show k < n by omega)
    have hact : (act (.objectPool p, t) (.release (.crowd k))).2 = (.objectPool p', t) := by
      show (Carver.release (.objectPool p) t (.crowd k)).2 = _
      rw [Carver.release, hrelease]
      rfl
    rw [List.range'_succ, List.map_cons, List.cons_append]
    refine Overfull.cons ?_ fun _ _ => hissued k (by omega)
    rw [hact]
    exact ih h' (by omega)

/-- The ranges are granted, and come back. -/
theorem overfull_requests {total : Nat} (h : p.Crowd n 0 t) (hissued : ∀ i < n, .crowd i ∈ issued)
    (hmany : countLimit ≤ total) (htotal : total ≤ 2 ^ 40) (hp : p.total = total) (hm : n + m = total) :
    Overfull (.objectPool p, t) issued
      (List.replicate m (.allocate 1) ++
        (((List.range' 0 total).map fun i => .release (.crowd i)) ++ [.reset])) := by
  induction m generalizing n p t issued with
  | zero =>
    obtain rfl : n = total := hm
    exact overfull_releases h hissued hmany (Nat.zero_add n)
  | succ m ih =>
    obtain ⟨p', t', hallocate, h', htotal'⟩ := h.allocate (by omega) (by omega)
    have hanswer : Carver.allocate (.objectPool p) t 1 = (.ok (.crowd n), .objectPool p', t') := by
      rw [Carver.allocate, hallocate]
      rfl
    have hafter : (act (.objectPool p, t) (.allocate 1)).2 = (.objectPool p', t') := by
      show (Carver.allocate (.objectPool p) t 1).2 = _
      rw [hanswer]
    have hgranted : issuedAfter (.objectPool p, t) issued (.allocate 1) = .crowd n :: issued := by
      show CarveOut.taken (Carver.allocate (.objectPool p) t 1).1 issued = _
      rw [hanswer]
      rfl
    have hword : p.used + 1 < Word.limit := by
      rw [h.used, Word.limit]
      omega
    rw [List.replicate_succ, List.cons_append]
    refine Overfull.cons ?_ hword
    rw [hafter, hgranted]
    refine ih h' (fun i hi => ?_) (htotal'.trans hp) (by omega)
    rcases Nat.lt_succ_iff_lt_or_eq.mp hi with hi | rfl
    · exact List.mem_cons_of_mem _ (hissued i hi)
    · exact List.mem_cons_self

/-- The pool of `n` bytes before anything was asked of it. -/
def emptyPool (n : Nat) : Carver × Tracker BumpHeap :=
  (.objectPool { alignment := .byte, total := n }, .ofHeap (.ofPlan {}) none)

theorem build_emptyPool (hn : n ≠ 0) :
    Carver.build (.ofHeap (.ofPlan {}) none : Tracker BumpHeap) .objectPool n .byte =
      (.ok (emptyPool n).1, (emptyPool n).2) := by
  rw [Carver.build, ObjectPool.make, requireCapacity, if_neg hn]
  rfl

/-- With as many ranges as a reset cannot count, the run is fair, and stops. -/
theorem runChecked_crowd (hmany : countLimit ≤ n) (hn : n ≤ 2 ^ 40) :
    FairRun (emptyPool n) [] (crowd n) ∧
      CarverRow.runChecked ((emptyPool n).1.row, (emptyPool n).2) (crowd n) = .error .overflow := by
  have hpos : n ≠ 0 := by
    rw [countLimit] at hmany
    omega
  obtain ⟨hfair, hnot⟩ : Overfull (emptyPool n) [] (crowd n) :=
    overfull_requests (.new n) (fun i hi => absurd hi (Nat.not_lt_zero i)) hmany hn rfl (Nat.zero_add n)
  have hs : LawfulHeap.Sound (NonNull.mk (BumpHeap.ofPlan {})) := BumpHeap.orderly_plain_ofPlan (by decide)
  have hregular : (Tracker.ofHeap (BumpHeap.ofPlan {}) none).Regular :=
    Tracker.regular_of_steps hs (fun _ => List.not_mem_nil) .refl
  have hword : n < Word.limit := by
    rw [Word.limit]
    omega
  have hsteady := steady_of_build hregular hword (build_emptyPool hpos)
  refine ⟨hfair, hsteady.runChecked_overflow hfair ?_ hnot⟩
  show 0 + (crowd n).length < Word.limit
  rw [length_crowd, Word.limit]
  omega

/-- `2 ^ 31` ranges of a byte, in a pool that has room for just as many. -/
theorem run_overflows :
    Carver.build (.ofHeap (.ofPlan {}) none : Tracker BumpHeap) .objectPool (2 ^ 31) .byte =
        (.ok (emptyPool (2 ^ 31)).1, (emptyPool (2 ^ 31)).2) ∧
      (crowd (2 ^ 31)).length = 2 ^ 32 + 1 ∧ FairRun (emptyPool (2 ^ 31)) [] (crowd (2 ^ 31)) ∧
      CarverRow.runChecked ((emptyPool (2 ^ 31)).1.row, (emptyPool (2 ^ 31)).2) (crowd (2 ^ 31)) =
        .error .overflow := by
  obtain ⟨hfair, hstop⟩ := runChecked_crowd (Nat.le_refl countLimit) (by decide)
  exact ⟨build_emptyPool (by decide), by rw [length_crowd]; rfl, hfair, hstop⟩

end Carver

end TrackedHeap
