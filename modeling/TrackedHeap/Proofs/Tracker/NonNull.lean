import TrackedHeap.Proofs.Heap.NonNull
import TrackedHeap.Proofs.Tracker.Refusal

/-!
# Trackers of heaps that may answer with the address 0

A tracker cannot tell a heap from its view as `NonNull`: each operation answers the same over both and leaves
states that differ in the view alone (`Tracker.act_nonNull`, `Tracker.run_nonNull`). So a tracker is well
formed in that view after any steps (`Steps.wellFormed_nonNull`), over every heap whose view keeps the laws.
-/

namespace TrackedHeap.Tracker

variable {H : Type}

/-- The tracker over its heap seen as one that refuses when it answers with the address 0. -/
def nonNull (t : Tracker H) : Tracker (NonNull H) where
  heap := ⟨t.heap⟩
  budget := t.budget
  blocks := t.blocks
  nextId := t.nextId
  usage := t.usage
  clock := t.clock

/-- The outcome with its tracker in that view. -/
def viewed {α : Type} (o : Outcome α (Tracker H)) : Outcome α (Tracker (NonNull H)) :=
  (o.1, o.2.nonNull)

theorem locate_nonNull (t : Tracker H) (handle : Block) (offset length : Nat) :
    t.nonNull.locate handle offset length = t.locate handle offset length :=
  rfl

theorem answered_viewed {α : Type} (answer : α → Answer) (o : Outcome α (Tracker H)) :
    answered answer (viewed o) = viewed (answered answer o) :=
  rfl

variable [Heap H]

/-! ## Each operation -/

theorem allocate_nonNull (t : Tracker H) (size : Nat) (alignment : Alignment) :
    t.nonNull.allocate size alignment = viewed (t.allocate size alignment) := by
  have hcall (padded : Nat) : Heap.alloc t.nonNull.heap padded = NonNull.alloc ⟨t.heap⟩ padded := rfl
  fun_cases Tracker.allocate t size alignment
  case case1 hsize =>
    simp only [allocate, if_pos hsize]
    rfl
  case case2 hsize e hp =>
    simp only [allocate, if_neg hsize, hp]
    rfl
  case case3 hsize padded hp e heap ha =>
    simp only [allocate, if_neg hsize, hp, hcall, NonNull.alloc, ha]
    rfl
  case case4 hsize padded hp heap ha =>
    -- the view refuses where the tracker does
    simp only [allocate, if_neg hsize, hp, hcall, NonNull.alloc, ha]
    rfl
  case case5 hsize padded hp raw heap ha hraw block =>
    simp only [allocate, if_neg hsize, hp, hcall, NonNull.alloc, ha, if_neg hraw]
    rfl

theorem free_nonNull (t : Tracker H) (handle : Block) :
    t.nonNull.free handle = viewed (t.free handle) := by
  have hlookup : t.nonNull.lookup handle.id = t.lookup handle.id := rfl
  simp only [free, hlookup]
  split <;> rfl

theorem realign_nonNull (heap : H) (old resized : Block) :
    realign (NonNull.mk heap) old resized = ⟨realign heap old resized⟩ := by
  unfold realign
  split <;> rfl

theorem reallocate_nonNull (t : Tracker H) (handle : Block) (size : Nat) :
    t.nonNull.reallocate handle size = viewed (t.reallocate handle size) := by
  have hlookup : t.nonNull.lookup handle.id = t.lookup handle.id := rfl
  have hcall (address padded : Nat) :
      Heap.realloc t.nonNull.heap address padded = NonNull.realloc ⟨t.heap⟩ address padded := rfl
  fun_cases Tracker.reallocate t handle size
  case case1 hsize =>
    simp only [reallocate, if_pos hsize]
    rfl
  case case2 hsize hl =>
    simp only [reallocate, if_neg hsize, hlookup, hl]
    rfl
  case case3 hsize old hl e hp =>
    simp only [reallocate, if_neg hsize, hlookup, hl, hp]
    rfl
  case case4 hsize old hl padded hp e heap ha =>
    simp only [reallocate, if_neg hsize, hlookup, hl, hp, hcall, NonNull.realloc, ha]
    rfl
  case case5 hsize old hl padded hp raw heap ha resized =>
    simp only [reallocate, if_neg hsize, hlookup, hl, hp, hcall, NonNull.realloc, ha,
      realign_nonNull]
    rfl

theorem fill_nonNull (t : Tracker H) (handle : Block) (offset length : Nat) (byte : UInt8) :
    t.nonNull.fill handle offset length byte = viewed (t.fill handle offset length byte) := by
  simp only [fill, locate_nonNull]
  split <;> rfl

theorem write_nonNull (t : Tracker H) (handle : Block) (offset : Nat) (bytes : List UInt8) :
    t.nonNull.write handle offset bytes = viewed (t.write handle offset bytes) := by
  simp only [write, locate_nonNull]
  split <;> rfl

theorem copy_nonNull (t : Tracker H) (source : Block) (sourceOffset : Nat) (target : Block)
    (targetOffset length : Nat) (mode : CopyMode) :
    t.nonNull.copy source sourceOffset target targetOffset length mode =
      viewed (t.copy source sourceOffset target targetOffset length mode) := by
  simp only [copy, locate_nonNull]
  cases mode.validate length with
  | error e => rfl
  | ok =>
    cases t.locate source sourceOffset length with
    | error e => rfl
    | ok start =>
      cases t.locate target targetOffset length with
      | error e => rfl
      | ok stop => cases mode <;> rfl

theorem freeAll_nonNull (t : Tracker H) :
    t.nonNull.freeAll = (t.freeAll.1, t.freeAll.2.nonNull) := by
  let view (s : Nat × Tracker H) : Nat × Tracker (NonNull H) := (s.1, s.2.nonNull)
  refine @List.foldl_hom _ _ _ view _ _ t.blocks (0, t) fun s block => ?_
  obtain ⟨count, t⟩ := s
  simp only [view, free_nonNull, viewed]
  rcases t.free block with ⟨e | _, t'⟩ <;> rfl

/-! ## Any operations -/

/-- Both trackers answer the same and stay views of each other. -/
theorem act_nonNull (t : Tracker H) (a : Act) : t.nonNull.act a = viewed (t.act a) := by
  cases a with
  | advance n => rfl
  | allocate size alignment => simp only [act, allocate_nonNull, answered_viewed]
  | free handle => simp only [act, free_nonNull, answered_viewed]
  | reallocate handle size => simp only [act, reallocate_nonNull, answered_viewed]
  | freeAll => simp only [act, freeAll_nonNull, viewed]
  | fill handle offset length byte => simp only [act, fill_nonNull, answered_viewed]
  | write handle offset bytes => simp only [act, write_nonNull, answered_viewed]
  | copy source offset target offset' length mode => simp only [act, copy_nonNull, answered_viewed]

theorem run_nonNull (t : Tracker H) (acts : List Act) :
    (t.run acts).nonNull = t.nonNull.run acts := by
  refine (List.foldl_hom nonNull fun t a => ?_).symm
  rw [act_nonNull, viewed]

/-- A tracker whose view is well formed keeps it so. -/
theorem Steps.view_wellFormed [LawfulHeap (NonNull H)] {t t' : Tracker H} (s : Steps t t')
    (h : t.nonNull.WellFormed) : t'.nonNull.WellFormed := by
  obtain ⟨acts, rfl⟩ := s.exists_run
  rw [run_nonNull]
  exact (steps_run _ acts).wellFormed h

open LawfulHeap (Sound Granted) in
/-- The view of a tracker is well formed after any steps from a heap that has granted nothing. -/
theorem Steps.wellFormed_nonNull [LawfulHeap (NonNull H)] {heap : H} {budget : Option Nat}
    {t : Tracker H} (s : Steps (ofHeap heap budget) t) (hs : Sound (NonNull.mk heap))
    (hg : ∀ e, ¬ Granted (NonNull.mk heap) e) : t.nonNull.WellFormed := by
  have hstart : (ofHeap (NonNull.mk heap) budget).WellFormed := wellFormed_ofHeap hs hg
  exact s.view_wellFormed hstart

/-- A refusal that is harmless in the view is harmless. -/
theorem Unharmed.of_nonNull {t t' : Tracker H} (h : t.nonNull.Unharmed t'.nonNull) :
    t.Unharmed t' where
  books := by
    have hview := h.books
    obtain ⟨heap, budget, blocks, nextId, usage, clock⟩ := t
    obtain ⟨heap', budget', blocks', nextId', usage', clock'⟩ := t'
    simp only [nonNull, mk.injEq, true_and] at hview ⊢
    exact hview
  bytes := h.bytes

/-- Whatever operation is refused, the live blocks and their bytes stay as they were. -/
theorem unharmed_act_of_nonNull [LawfulBytes (NonNull H)] {t : Tracker H} (h : t.nonNull.WellFormed)
    {a : Act} {e : MemoryError} (hact : (t.act a).1 = .error e) : t.Unharmed (t.act a).2 := by
  have hview : (t.nonNull.act a).1 = .error e := by
    rw [act_nonNull]
    exact hact
  have hunharmed := h.unharmed_act hview
  rw [act_nonNull] at hunharmed
  exact hunharmed.of_nonNull

end TrackedHeap.Tracker
