import TrackedHeap.Proofs.Carver.Buddy
import TrackedHeap.Proofs.Carver.Refusal
import TrackedHeap.Proofs.Ownership.Carver
import TrackedHeap.Proofs.Tracker.Accounting
import TrackedHeap.Proofs.Workspace.Steps

/-!
# Carvers that are built, and carvers that cannot be

A carver that is built has taken the blocks that it needs from the start. One that cannot be built has asked
nothing of its tracker, or for a block that was refused, or it is a hybrid whose last part was refused its
block and which has returned the block of the part before (`Carver.build_refused`). In each case the live
blocks, their bytes and what they hold are as they were (`Carver.restored_of_build`). Ids, the peak and the
totals of what was ever taken and returned may have moved on.
-/

namespace TrackedHeap

namespace Tracker

variable {H : Type} [Heap H] {t t' t₁ t₂ : Tracker H} {e : MemoryError} {size : Nat} {alignment : Alignment}

/-- The live blocks, their bytes and what is held are as before. -/
structure Restored (t t' : Tracker H) : Prop where
  blocks : t'.blocks = t.blocks
  bytes : ∀ b ∈ t.blocks, b.extent.SameBytes (Heap.memory t.heap) (Heap.memory t'.heap)
  current : t'.usage.current = t.usage.current

theorem Denied.nonNull (h : t.Denied e t') : t.nonNull.Denied e t'.nonNull := by
  rcases h with rfl | ⟨size, alignment, ha⟩
  · exact .inl rfl
  · refine .inr ⟨size, alignment, ?_⟩
    rw [allocate_nonNull, ha]
    rfl

theorem Denied.blocks_eq (h : t.Denied e t') : t'.blocks = t.blocks := by
  rcases h with rfl | ⟨size, alignment, ha⟩
  · rfl
  · exact (allocate_error ha).1

theorem Denied.wellFormed [LawfulHeap H] (h : t.Denied e t') (hw : t.WellFormed) : t'.WellFormed := by
  rcases h with rfl | ⟨size, alignment, ha⟩
  · exact hw
  · simpa [ha] using hw.allocate size alignment

namespace WellFormed

variable [LawfulBytes H]

/-- A request for a block changes no byte of a live one. -/
theorem sameBytes_allocate (h : t.WellFormed) {result : Except MemoryError Block}
    (ha : t.allocate size alignment = (result, t')) :
    ∀ b ∈ t.blocks, b.extent.SameBytes (Heap.memory t.heap) (Heap.memory t'.heap) := by
  cases result with
  | error e => exact (h.unharmed_allocate ha).bytes
  | ok block =>
    revert ha
    fun_cases Tracker.allocate t size alignment
    case case5 hsize padded hp raw heap hcall hraw block =>
      intro ha b hb
      rw [← (Prod.mk.inj ha).2]
      exact LawfulBytes.alloc_bytes h.sound (Alignment.paddedSize_pos hsize hp) hcall _ (h.granted hb)
    all_goals exact fun ha => by cases ha

/-- Returning a block changes no byte of another. -/
theorem sameBytes_free (h : t.WellFormed) (victim : Block) {b : Block} (hb : b ∈ t.blocks)
    (hne : b.id ≠ victim.id) :
    b.extent.SameBytes (Heap.memory t.heap) (Heap.memory (t.free victim).2.heap) := by
  fun_cases Tracker.free t victim
  case case1 => exact .refl _ _
  case case2 live hl =>
    obtain ⟨hm, hid⟩ := mem_of_lookup hl
    exact LawfulBytes.release_bytes h.sound (h.granted hm) _ (h.granted hb)
      (h.layout.extent_ne hb hm (by rwa [hid]))

theorem sameBytes_denied (h : t.WellFormed) (hd : t.Denied e t') :
    ∀ b ∈ t.blocks, b.extent.SameBytes (Heap.memory t.heap) (Heap.memory t'.heap) := by
  rcases hd with rfl | ⟨size, alignment, ha⟩
  · exact fun _ _ => .refl _ _
  · exact h.sameBytes_allocate ha

end WellFormed

end Tracker

variable {H : Type} [Heap H] {t t' : Tracker H} {e : MemoryError} {total : Nat} {alignment : Alignment}

/-! ## Carvers that can be built -/

theorem Arena.make_ok {a : Arena} (hm : Arena.make t total alignment = (.ok a, t')) :
    a = { alignment, total, arenaSize := min total sizeLimit, first := a.first } ∧
      t.allocate (min total sizeLimit) alignment = (.ok a.first, t') := by
  revert hm
  fun_cases Arena.make t total alignment
  case case3 ha =>
    intro hm
    cases hm
    exact ⟨rfl, ha⟩
  all_goals exact fun hm => by cases hm

theorem RingBuffer.make_ok {r : RingBuffer} (hm : RingBuffer.make t total alignment = (.ok r, t')) :
    r = { base := r.base, capacity := total } ∧ t.allocate total alignment = (.ok r.base, t') := by
  revert hm
  fun_cases RingBuffer.make t total alignment
  case case3 ha =>
    intro hm
    cases hm
    exact ⟨rfl, ha⟩
  all_goals exact fun hm => by cases hm

theorem Hybrid.make_ok {h : Hybrid} (hm : Hybrid.make t total alignment = (.ok h, t')) :
    SlabCarver.make (total / 4) alignment = .ok h.small ∧
      ∃ t₁, Buddy.make t (total / 2) alignment = (.ok h.medium, t₁) ∧
        Arena.make t₁ (total / 4) alignment = (.ok h.large, t') := by
  revert hm
  fun_cases Hybrid.make t total alignment
  case case5 small hsmall medium t₁ hmedium large t₂ hlarge =>
    intro hm
    cases hm
    exact ⟨hsmall, t₁, hmedium, hlarge⟩
  all_goals exact fun hm => by cases hm

/-! ## Carvers that cannot -/

theorem Buddy.make_refused (h : Buddy.make t total alignment = (.error e, t')) : t.Denied e t' := by
  revert h
  fun_cases Buddy.make t total alignment
  case case3 ha => exact fun h => by cases h; exact .inr ⟨_, _, ha⟩
  case case4 => exact fun h => by cases h
  all_goals exact fun h => .inl (Prod.mk.inj h).2.symm

theorem Arena.make_refused (h : Arena.make t total alignment = (.error e, t')) : t.Denied e t' := by
  revert h
  fun_cases Arena.make t total alignment
  case case2 ha => exact fun h => by cases h; exact .inr ⟨_, _, ha⟩
  case case3 => exact fun h => by cases h
  all_goals exact fun h => .inl (Prod.mk.inj h).2.symm

theorem RingBuffer.make_refused (h : RingBuffer.make t total alignment = (.error e, t')) :
    t.Denied e t' := by
  revert h
  fun_cases RingBuffer.make t total alignment
  case case2 ha => exact fun h => by cases h; exact .inr ⟨_, _, ha⟩
  case case3 => exact fun h => by cases h
  all_goals exact fun h => .inl (Prod.mk.inj h).2.symm

/-- What a carver that could not be built has asked of its tracker. -/
inductive Tracker.Withdrawn (t : Tracker H) (e : MemoryError) (t' : Tracker H) : Prop where
  | denied (denied : t.Denied e t')
  /-- A block was granted, the next one was refused, and the first went back. -/
  | returned {size : Nat} {alignment : Alignment} {base : Block} {t₁ t₂ : Tracker H}
    (granted : t.allocate size alignment = (.ok base, t₁)) (denied : t₁.Denied e t₂)
    (back : t' = (t₂.free base).2)

theorem Hybrid.make_refused (h : Hybrid.make t total alignment = (.error e, t')) : t.Withdrawn e t' := by
  revert h
  fun_cases Hybrid.make t total alignment
  case case3 hmedium => exact fun h => by cases h; exact .denied (Buddy.make_refused hmedium)
  case case4 medium t₁ hmedium e' t₂ hlarge =>
    intro h
    cases h
    exact .returned (Buddy.make_ok hmedium).2 (Arena.make_refused hlarge) rfl
  case case5 => exact fun h => by cases h
  all_goals exact fun h => .denied (.inl (Prod.mk.inj h).2.symm)

/-- Only a hybrid takes a block before it knows whether it can be built. -/
theorem Carver.build_refused {strategy : Strategy}
    (h : Carver.build t strategy total alignment = (.error e, t')) : t.Withdrawn e t' := by
  cases strategy with
  | buddy => exact .denied (Buddy.make_refused (Carver.built_error h))
  | slab => exact .denied (.inl (Prod.mk.inj (Carver.built_error h)).2.symm)
  | arena => exact .denied (Arena.make_refused (Carver.built_error h))
  | ringBuffer => exact .denied (RingBuffer.make_refused (Carver.built_error h))
  | objectPool => exact .denied (.inl (Prod.mk.inj (Carver.built_error h)).2.symm)
  | hybrid => exact Hybrid.make_refused (Carver.built_error h)

namespace Tracker

theorem Withdrawn.nonNull (h : t.Withdrawn e t') : t.nonNull.Withdrawn e t'.nonNull := by
  cases h with
  | denied hd => exact .denied hd.nonNull
  | @returned size alignment base t₁ t₂ ha hd hback =>
    have hview : t.nonNull.allocate size alignment = (.ok base, t₁.nonNull) := by
      rw [allocate_nonNull, ha]
      rfl
    refine .returned hview hd.nonNull ?_
    rw [free_nonNull, hback]
    rfl

/-- What was taken went back: the live blocks are those from before. -/
theorem Withdrawn.blocks_eq (h : t.Withdrawn e t') (hn : t.Numbered) : t'.blocks = t.blocks := by
  cases h with
  | denied hd => exact hd.blocks_eq
  | @returned size alignment base t₁ t₂ ha hd hback =>
    have hold : t.others base.id = t.blocks :=
      List.filter_eq_self.mpr fun b hb => bne_iff_ne.mpr (hn.ne_of_allocate ha hb)
    rw [hback, (t₂.free_blocks base).1, others, hd.blocks_eq, (allocate_ok ha).1, List.filter_append]
    simpa [others] using hold

theorem WellFormed.sameBytes_withdrawn [LawfulBytes H] (h : t.WellFormed) (hw : t.Withdrawn e t') :
    ∀ b ∈ t.blocks, b.extent.SameBytes (Heap.memory t.heap) (Heap.memory t'.heap) := by
  cases hw with
  | denied hd => exact h.sameBytes_denied hd
  | @returned size alignment base t₁ t₂ ha hd hback =>
    intro b hb
    have h₁ : t₁.WellFormed := by simpa [ha] using h.allocate size alignment
    have h₂ : t₂.WellFormed := hd.wellFormed h₁
    have hb₁ : b ∈ t₁.blocks := (allocate_ok ha).1 ▸ List.mem_append_left _ hb
    have hb₂ : b ∈ t₂.blocks := hd.blocks_eq ▸ hb₁
    rw [hback]
    exact ((h.sameBytes_allocate ha b hb).trans (h₁.sameBytes_denied hd b hb₁)).trans
      (h₂.sameBytes_free base hb₂ (h.numbered.ne_of_allocate ha hb))

open LawfulHeap (Sound Granted) in
/-- A tracker that has the live blocks from before holds as much. -/
theorem Steps.current_eq [LawfulHeap (NonNull H)] {heap : H} {budget : Option Nat}
    (hs : Sound (NonNull.mk heap)) (hg : ∀ e, ¬ Granted (NonNull.mk heap) e)
    (before : Steps (ofHeap heap budget) t) (after : Steps t t') (hb : t'.blocks = t.blocks) :
    t'.usage.current = t.usage.current := by
  have hcurrent {s : Tracker H} (h : Steps (ofHeap heap budget) s) : s.usage.current = s.held := by
    obtain ⟨acts, rfl⟩ := h.exists_run
    exact (tallies_run hs hg budget acts).current
  rw [hcurrent before, hcurrent (before.trans after), held, held, hb]

end Tracker

/-- A carver that could not be built has left no trace in the live blocks. -/
theorem Carver.restored_of_build [LawfulBytes (NonNull H)] {heap : H} {budget : Option Nat}
    (hs : LawfulHeap.Sound (NonNull.mk heap)) (hg : ∀ e, ¬ LawfulHeap.Granted (NonNull.mk heap) e)
    (before : Tracker.Steps (.ofHeap heap budget) t) {strategy : Strategy}
    (h : Carver.build t strategy total alignment = (.error e, t')) : t.Restored t' := by
  have hview : t.nonNull.WellFormed := before.wellFormed_nonNull hs hg
  have hw := Carver.build_refused h
  have hafter : Tracker.Steps t t' := by simpa [h] using Carver.steps_build t strategy total alignment
  have hn : t.Numbered := ⟨hview.numbered.issued, hview.numbered.unique⟩
  have hblocks := hw.blocks_eq hn
  exact ⟨hblocks, hview.sameBytes_withdrawn hw.nonNull, before.current_eq hs hg hafter hblocks⟩

end TrackedHeap
