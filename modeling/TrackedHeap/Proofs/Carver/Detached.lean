import TrackedHeap.Proofs.Carver.Outstanding
import TrackedHeap.Proofs.Twin.Growing
import TrackedHeap.Proofs.Workspace.Steps

/-!
# Carvers whose blocks are gone

A client may free the block behind a carver through the tracker. The carver does not notice: whether a request is
granted, and what it gets, does not depend on which blocks are live (`SlabCarver.allocate_withBlocks`,
`Arena.allocate_withBlocks`). So what is known of a carver whose blocks are live is known of it over the tracker in
which just these blocks are (`Tracker.withBlocks`), whatever became of them in the real one.
-/

namespace TrackedHeap

variable {H : Type}

namespace Tracker

/-- The tracker with certain blocks for the live ones. -/
def withBlocks (t : Tracker H) (blocks : List Block) : Tracker H :=
  { t with blocks }

theorem numbered_withBlocks {t : Tracker H} {blocks : List Block} (hissued : ∀ b ∈ blocks, b.id < t.nextId)
    (hn : (blocks.map Block.id).Nodup) : (t.withBlocks blocks).Numbered where
  issued := hissued
  unique _ hb _ hc he := List.inj_on_of_nodup_map hn hb hc he

/-- A request for a block is answered from the heap. -/
theorem allocate_withBlocks [Heap H] (t : Tracker H) (blocks : List Block) (size : Nat) (alignment : Alignment) :
    ((t.withBlocks blocks).allocate size alignment).1 = (t.allocate size alignment).1 ∧
      ((t.withBlocks blocks).allocate size alignment).2.nextId = (t.allocate size alignment).2.nextId := by
  fun_cases Tracker.allocate t size alignment
  case case1 hsize => simp only [allocate, if_pos hsize, withBlocks, and_self]
  case case2 hsize e hp => simp only [allocate, if_neg hsize, hp, withBlocks, and_self]
  case case3 hsize padded hp e heap ha => simp only [allocate, withBlocks, if_neg hsize, hp, ha, and_self]
  case case4 hsize padded hp heap ha => simp only [allocate, withBlocks, if_neg hsize, hp, ha, if_true, and_self]
  case case5 hsize padded hp raw heap ha hraw block =>
    have hnow : (t.withBlocks blocks).now = t.now := rfl
    simp only [withBlocks] at hnow
    simp only [allocate, withBlocks, if_neg hsize, hp, ha, if_neg hraw, hnow, block, and_self]

end Tracker

variable [Heap H] {t t' : Tracker H}

namespace SlabCarver

/-- Of a tracker only its answer counts. -/
theorem allocate_congr (s : SlabCarver)
    (h : (t.allocate s.slabSize s.alignment).1 = (t'.allocate s.slabSize s.alignment).1) (size : Nat) :
    (s.allocate t size).1 = (s.allocate t' size).1 ∧ (s.allocate t size).2.1 = (s.allocate t' size).2.1 := by
  have hcarve : (s.carve t size).1 = (s.carve t' size).1 ∧ (s.carve t size).2.1 = (s.carve t' size).2.1 := by
    cases ha : s.asks size with
    | none =>
      by_cases hsize : size = 0
      · simp only [carve, if_pos hsize, and_self]
      · cases hs : s.slabFor? size with
        | some slab => simp only [carve, if_neg hsize, hs, and_self]
        | none =>
          rw [carve_of_asks_eq_none hsize hs ha, carve_of_asks_eq_none hsize hs ha]
          exact ⟨rfl, rfl⟩
    | some request =>
      rcases hx : t.allocate s.slabSize s.alignment with ⟨e | base, u⟩ <;>
        rcases hy : t'.allocate s.slabSize s.alignment with ⟨e' | base', u'⟩ <;>
        rw [hx, hy] at h <;> cases h
      · rw [(carve_of_asks_eq_some ha t).1 e u hx, (carve_of_asks_eq_some ha t').1 e u' hy]
        exact ⟨rfl, rfl⟩
      · rw [(carve_of_asks_eq_some ha t).2 base u hx, (carve_of_asks_eq_some ha t').2 base u' hy]
        exact ⟨rfl, rfl⟩
  simp only [allocate, hcarve.1, hcarve.2, and_self]

theorem allocate_withBlocks (s : SlabCarver) (t : Tracker H) (blocks : List Block) (size : Nat) :
    (s.allocate (t.withBlocks blocks) size).1 = (s.allocate t size).1 ∧
      (s.allocate (t.withBlocks blocks) size).2.1 = (s.allocate t size).2.1 ∧
      (s.allocate (t.withBlocks blocks) size).2.2.nextId = (s.allocate t size).2.2.nextId := by
  obtain ⟨hanswer, hcarver⟩ := s.allocate_congr (t.allocate_withBlocks blocks s.slabSize s.alignment).1 size
  refine ⟨hanswer, hcarver, ?_⟩
  rw [allocate_tracker, allocate_tracker]
  cases s.asks size with
  | none => rfl
  | some request => exact (t.allocate_withBlocks blocks _ _).2

end SlabCarver

namespace Arena

/-- Of a tracker only its answer counts. -/
theorem allocate_congr (a : Arena)
    (h : (t.allocate a.arenaSize a.alignment).1 = (t'.allocate a.arenaSize a.alignment).1) (size : Nat) :
    (a.allocate t size).1 = (a.allocate t' size).1 ∧ (a.allocate t size).2.1 = (a.allocate t' size).2.1 := by
  have hcarve : (a.carve t size).1 = (a.carve t' size).1 ∧ (a.carve t size).2.1 = (a.carve t' size).2.1 := by
    cases ha : a.asks size with
    | none =>
      by_cases hsize : size = 0
      · simp only [carve, if_pos hsize, and_self]
      · by_cases hfits : a.arenaSize < size
        · simp only [carve, if_neg hsize, if_pos hfits, and_self]
        · rw [carve_of_asks_eq_none hsize hfits ha, carve_of_asks_eq_none hsize hfits ha]
          exact ⟨rfl, rfl⟩
    | some request =>
      rcases hx : t.allocate a.arenaSize a.alignment with ⟨e | block, u⟩ <;>
        rcases hy : t'.allocate a.arenaSize a.alignment with ⟨e' | block', u'⟩ <;>
        rw [hx, hy] at h <;> cases h
      · rw [(carve_of_asks_eq_some ha t).1 e u hx, (carve_of_asks_eq_some ha t').1 e u' hy]
        exact ⟨rfl, rfl⟩
      · rw [(carve_of_asks_eq_some ha t).2 block u hx, (carve_of_asks_eq_some ha t').2 block u' hy]
        exact ⟨rfl, rfl⟩
  simp only [allocate, hcarve.1, hcarve.2, and_self]

theorem allocate_withBlocks (a : Arena) (t : Tracker H) (blocks : List Block) (size : Nat) :
    (a.allocate (t.withBlocks blocks) size).1 = (a.allocate t size).1 ∧
      (a.allocate (t.withBlocks blocks) size).2.1 = (a.allocate t size).2.1 ∧
      (a.allocate (t.withBlocks blocks) size).2.2.nextId = (a.allocate t size).2.2.nextId := by
  obtain ⟨hanswer, harena⟩ := a.allocate_congr (t.allocate_withBlocks blocks a.arenaSize a.alignment).1 size
  refine ⟨hanswer, harena, ?_⟩
  rw [allocate_tracker, allocate_tracker]
  cases a.asks size with
  | none => rfl
  | some request => exact (t.allocate_withBlocks blocks _ _).2

end Arena

end TrackedHeap
