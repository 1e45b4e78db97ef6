import TrackedHeap.Proofs.Carver.Partition
import TrackedHeap.Proofs.Carver.Run
import TrackedHeap.Proofs.Carver.Slab

/-!
# What a hybrid reports of its parts

Whatever is kept by the operations of the parts is kept by those of a hybrid (`Hybrid.Each`). So the slabs and the
buddies of a hybrid never give out more than they have (`Hybrid.Counted`), but its arena may: it grows past its
capacity. The figures of a hybrid are the sums of those of its parts (`Hybrid.run_aggregates`), but for the bytes
that are free. These are the capacity without what is allocated, so what the arena has too much is missing
there from what the other parts have free.
-/

namespace TrackedHeap

namespace Hybrid

/-! ## The parts -/

/-- Each part has a property of its own. -/
structure Each (P : SlabCarver → Prop) (Q : Buddy → Prop) (R : Arena → Prop) (h : Hybrid) : Prop where
  small : P h.small
  medium : Q h.medium
  large : R h.large

namespace Each

variable {P : SlabCarver → Prop} {Q : Buddy → Prop} {R : Arena → Prop} {h : Hybrid}

theorem release (hp : Each P Q R h) {handle : CarveOut} (hP : P h.small → P (h.small.release handle).2)
    (hQ : Q h.medium → Q (h.medium.release handle).2) : Each P Q R (h.release handle).2 := by
  cases htier : Tier.ofSize handle.requestedSize with
  | small =>
    rw [release_small htier]
    exact ⟨hP hp.small, hp.medium, hp.large⟩
  | medium =>
    rw [release_medium htier]
    exact ⟨hp.small, hQ hp.medium, hp.large⟩
  | large =>
    rw [release_large htier]
    exact hp

variable {H : Type} [Heap H] {t : Tracker H}

theorem allocate (hp : Each P Q R h) {size : Nat} (hP : P h.small → P (h.small.allocate t size).2.1)
    (hQ : Q h.medium → Q (h.medium.allocate size).2) (hR : R h.large → R (h.large.allocate t size).2.1) :
    Each P Q R (h.allocate t size).2.1 := by
  by_cases hsize : size = 0
  · rw [Hybrid.allocate, if_pos hsize]
    exact hp
  cases htier : Tier.ofSize size with
  | small =>
    rw [allocate_small hsize htier]
    exact ⟨hP hp.small, hp.medium, hp.large⟩
  | medium =>
    rw [allocate_medium hsize htier]
    exact ⟨hp.small, hQ hp.medium, hp.large⟩
  | large =>
    rw [allocate_large hsize htier]
    exact ⟨hp.small, hp.medium, hR hp.large⟩

end Each

/-! ## Figures -/

/-- What is allocated of slabs and of buddies is counted. -/
abbrev Counted : Hybrid → Prop :=
  Each SlabCarver.Counted (fun b => b.Coalesced ∧ b.Counted) fun _ => True

variable {H : Type} [Heap H] {t t' : Tracker H} {h : Hybrid}

theorem counted_of_make {total : Nat} {alignment : Alignment} (hm : make t total alignment = (.ok h, t')) :
    h.Counted := by
  obtain ⟨hsmall, t₁, hmedium, -⟩ := make_ok hm
  refine ⟨SlabCarver.counted_of_make hsmall, ?_, trivial⟩
  rw [(Buddy.make_ok hmedium).1]
  exact ⟨Buddy.coalesced_ofBase _ _, Buddy.counted_ofBase _ _⟩

end Hybrid

/-- A region gives out no more than it has. -/
theorem Buddy.Counted.allocated_le {b : Buddy} (h : b.Counted) (hc : b.Coalesced) : b.allocated ≤ b.total := by
  have hsum := hc.tiles.sum_size
  rw [List.map_append, List.sum_append] at hsum
  rw [h, Buddy.total_eq]
  omega

namespace CarverStats

theorem sumOf_eq (figure : CarverStats → Nat) (parts : List CarverStats) :
    sumOf figure parts = (parts.map figure).sum :=
  List.foldr_map.symm

/-- Figures are the sums of those of three parts, but for the bytes that are free: what the last part has given out
beyond its capacity is missing there. -/
structure Aggregates (s small medium large : CarverStats) : Prop where
  components : s.components = [small, medium, large]
  total : s.total = (s.components.map CarverStats.total).sum
  allocated : s.allocated = (s.components.map CarverStats.allocated).sum
  allocations : s.allocations = (s.components.map CarverStats.allocations).sum
  deallocations : s.deallocations = (s.components.map CarverStats.deallocations).sum
  failures : s.failures = (s.components.map CarverStats.failures).sum
  free : s.free = s.total - s.allocated
  free_sub : s.free = (s.components.map CarverStats.free).sum - (large.allocated - large.total)
  free_iff : s.free = (s.components.map CarverStats.free).sum ↔
    large.allocated ≤ large.total ∨ small.free = 0 ∧ medium.free = 0

/-- All that is asked of the first two parts is that they have not given out more than they have. -/
theorem aggregates_ofParts {small medium large : CarverStats}
    (hfree : ∀ part ∈ [small, medium, large], part.free = part.total - part.allocated)
    (hsmall : small.allocated ≤ small.total) (hmedium : medium.allocated ≤ medium.total) :
    (ofParts [small, medium, large]).Aggregates small medium large := by
  simp only [List.forall_mem_cons, List.not_mem_nil, false_implies, implies_true, and_true] at hfree
  obtain ⟨hfs, hfm, hfl⟩ := hfree
  refine ⟨rfl, sumOf_eq .., sumOf_eq .., sumOf_eq .., sumOf_eq .., sumOf_eq .., rfl, ?_, ?_⟩ <;>
    simp only [ofParts, sumOf, List.foldr_cons, List.foldr_nil, List.map_cons, List.map_nil, List.sum_cons,
      List.sum_nil] <;> omega

end CarverStats

/-! ## Runs -/

namespace Carver

/-- The carver is a hybrid whose slabs and buddies are counted. -/
def CountedHybrid (c : Carver) : Prop :=
  ∃ h : Hybrid, c = .hybrid h ∧ h.Counted

variable {H : Type} [Heap H] {t t' : Tracker H} {total : Nat} {alignment : Alignment} {new : Carver}

theorem lasting_countedHybrid : Lasting H (fun _ => True) CountedHybrid where
  allocate t size := by
    rintro ⟨h, rfl, hc⟩
    exact ⟨_, rfl, hc.allocate (fun hs => hs.allocate t size)
      (fun hb => ⟨hb.1.allocate size, hb.2.carve size⟩) fun _ => trivial⟩
  release t handle _ := by
    rintro ⟨h, rfl, hc⟩
    exact ⟨_, rfl, hc.release (fun hs => hs.release handle) fun hb => ⟨hb.1.release handle, hb.2.release handle⟩⟩
  reset t := by
    rintro ⟨h, rfl, hc⟩
    exact ⟨_, rfl, h.small.counted_reset t, ⟨hc.medium.1.reset, h.medium.counted_reset⟩, trivial⟩

/-- In whatever state a hybrid is, over whatever tracker and whatever handles came back, it reports the sums of what
its parts report, and as free what they have free without what its arena has given out beyond its capacity. -/
theorem run_aggregates (hb : Carver.build t .hybrid total alignment = (.ok new, t')) (acts : List Act) :
    let c := (run (new, t') acts).1
    ∃ h : Hybrid, c = .hybrid h ∧ c.stats.Aggregates h.small.stats h.medium.stats h.large.stats := by
  intro c
  have hcounted : c.CountedHybrid := by
    obtain ⟨h, hm, rfl⟩ := built_ok hb
    exact lasting_countedHybrid.run (s := (.hybrid h, t')) ⟨h, rfl, Hybrid.counted_of_make hm⟩ fun _ _ => trivial
  obtain ⟨h, hc, hparts⟩ := hcounted
  refine ⟨h, hc, ?_⟩
  rw [hc]
  refine CarverStats.aggregates_ofParts ?_ hparts.small.allocated_le (hparts.medium.2.allocated_le hparts.medium.1)
  simp only [List.forall_mem_cons, List.not_mem_nil, false_implies, implies_true, and_true]
  exact ⟨rfl, rfl, rfl⟩

/-- A hybrid with a range in every part, after a request of no bytes. -/
theorem run_aggregates_mixed :
    let acts : List Act := [.allocate 100, .allocate 2000, .allocate 70000, .allocate 0]
    ∃ new t', Carver.build (.ofHeap (BumpHeap.ofPlan {}) none) .hybrid 400000 .word = (.ok new, t') ∧
      let c := (run (new, t') acts).1
      (∃ h : Hybrid, c = .hybrid h ∧ c.stats.Aggregates h.small.stats h.medium.stats h.large.stats) ∧
        c.stats.allocated = 72148 ∧ c.stats.allocations = 3 ∧ c.stats.failures = 0 ∧ c.stats.free = 389996 ∧
        (c.stats.components.map CarverStats.free).sum = 389996 := by
  intro acts
  have hb : Carver.build (.ofHeap (BumpHeap.ofPlan {}) none) .hybrid 400000 .word = (.ok _, _) := rfl
  refine ⟨_, _, hb, run_aggregates hb acts, ?_⟩
  decide +kernel

/-- The arena of a hybrid has given out 40000 bytes beyond its capacity, which are missing from the bytes that are
free in the other parts. -/
theorem run_free_missing :
    let acts : List Act := [.allocate 70000, .allocate 70000]
    ∃ new t', Carver.build (.ofHeap (BumpHeap.ofPlan {}) none) .hybrid 400000 .word = (.ok new, t') ∧
      let stats := (run (new, t') acts).1.stats
      stats.free = 322144 ∧ (stats.components.map CarverStats.free).sum = 362144 := by
  intro acts
  refine ⟨_, _, rfl, ?_⟩
  decide +kernel

end Carver

end TrackedHeap
