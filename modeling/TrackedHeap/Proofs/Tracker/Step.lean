import Mathlib.Logic.Relation
import TrackedHeap.Proofs.Tracker.WellFormed

/-!
# Steps of a tracker

Pools, carvers and workspaces reach a tracker through its operations alone. `Tracker.Step` is one of
these, with whatever arguments and whatever answer, and `Tracker.Steps` any number of them: what every
step keeps holds after everything that is built on trackers. `Steps.wellFormed` is the first such
property.

In the table of live blocks and in the totals over it a step does one of four things (`Tracker.Change`,
`Step.change`), whatever the heap.
-/

namespace TrackedHeap.Tracker

variable {H : Type} [Heap H]

/-- One operation of a tracker, whatever it answers. -/
inductive Step : Tracker H → Tracker H → Prop where
  | advance (t : Tracker H) (microseconds : Nat) : Step t (t.advance microseconds)
  | allocate (t : Tracker H) (size : Nat) (alignment : Alignment) :
    Step t (t.allocate size alignment).2
  | free (t : Tracker H) (handle : Block) : Step t (t.free handle).2
  | reallocate (t : Tracker H) (handle : Block) (size : Nat) : Step t (t.reallocate handle size).2
  | fill (t : Tracker H) (handle : Block) (offset length : Nat) (byte : UInt8) :
    Step t (t.fill handle offset length byte).2
  | write (t : Tracker H) (handle : Block) (offset : Nat) (bytes : List UInt8) :
    Step t (t.write handle offset bytes).2
  | copy (t : Tracker H) (source : Block) (sourceOffset : Nat) (target : Block)
    (targetOffset length : Nat) (mode : CopyMode) :
    Step t (t.copy source sourceOffset target targetOffset length mode).2

/-- Any number of operations. -/
abbrev Steps : Tracker H → Tracker H → Prop :=
  Relation.ReflTransGen Step

/-- What becomes of the table of live blocks, the next id and the totals. -/
inductive Change (t t' : Tracker H) : Prop where
  /-- Nothing. -/
  | same (blocks : t'.blocks = t.blocks) (nextId : t'.nextId = t.nextId) (usage : t'.usage = t.usage)
  /-- A block was taken, under the next id. -/
  | taken (block : Block) (id : block.id = t.nextId) (blocks : t'.blocks = t.blocks ++ [block])
    (nextId : t'.nextId = t.nextId + 1) (usage : t'.usage = t.usage.add block.paddedSize)
  /-- A live block was returned. -/
  | returned (block : Block) (live : block ∈ t.blocks) (blocks : t'.blocks = t.others block.id)
    (nextId : t'.nextId = t.nextId) (usage : t'.usage = t.usage.remove block.paddedSize)
  /-- A block under the next id took the place of a live one. -/
  | resized (old block : Block) (live : old ∈ t.blocks) (id : block.id = t.nextId)
    (blocks : t'.blocks = t.others old.id ++ [block]) (nextId : t'.nextId = t.nextId + 1)
    (usage : t'.usage = t.usage.resize old.paddedSize block.paddedSize)

theorem change_allocate (t : Tracker H) (size : Nat) (alignment : Alignment) :
    Change t (t.allocate size alignment).2 := by
  fun_cases Tracker.allocate t size alignment
  case case5 hsize padded hp raw heap ha hraw block => exact .taken block rfl rfl rfl rfl
  all_goals exact .same rfl rfl rfl

theorem change_free (t : Tracker H) (handle : Block) : Change t (t.free handle).2 := by
  fun_cases Tracker.free t handle
  case case1 => exact .same rfl rfl rfl
  case case2 live hl => exact .returned live (mem_of_lookup hl).1 rfl rfl rfl

theorem change_reallocate (t : Tracker H) (handle : Block) (size : Nat) :
    Change t (t.reallocate handle size).2 := by
  fun_cases Tracker.reallocate t handle size
  case case5 hsize old hl padded hp raw heap ha resized =>
    exact .resized old resized (mem_of_lookup hl).1 rfl rfl rfl rfl
  all_goals exact .same rfl rfl rfl

theorem Step.change {t t' : Tracker H} (s : Step t t') : Change t t' := by
  cases s with
  | advance n => exact .same rfl rfl rfl
  | allocate size alignment => exact t.change_allocate size alignment
  | free handle => exact t.change_free handle
  | reallocate handle size => exact t.change_reallocate handle size
  | fill handle offset length byte =>
    fun_cases Tracker.fill t handle offset length byte <;> exact .same rfl rfl rfl
  | write handle offset bytes =>
    fun_cases Tracker.write t handle offset bytes <;> exact .same rfl rfl rfl
  | copy source offset target offset' length mode =>
    fun_cases Tracker.copy t source offset target offset' length mode <;> exact .same rfl rfl rfl

theorem Step.wellFormed [LawfulHeap H] {t t' : Tracker H} (s : Step t t') (h : t.WellFormed) :
    t'.WellFormed := by
  cases s with
  | advance n => exact h.advance n
  | allocate size alignment => exact h.allocate size alignment
  | free handle => exact h.free handle
  | reallocate handle size => exact h.reallocate handle size
  | fill handle offset length byte => exact h.fill handle offset length byte
  | write handle offset bytes => exact h.write handle offset bytes
  | copy source offset target offset' length mode =>
    exact h.copy source offset target offset' length mode

namespace Steps

variable {t t' : Tracker H}

theorem wellFormed [LawfulHeap H] (s : Steps t t') (h : t.WellFormed) : t'.WellFormed := by
  induction s with
  | refl => exact h
  | tail _ last ih => exact last.wellFormed ih

theorem allocate {size : Nat} {alignment : Alignment} {result : Except MemoryError Block}
    (h : t.allocate size alignment = (result, t')) : Steps t t' := by
  have := Step.allocate t size alignment
  rw [h] at this
  exact .single this

theorem free {handle : Block} {result : Except MemoryError Block}
    (h : t.free handle = (result, t')) : Steps t t' := by
  have := Step.free t handle
  rw [h] at this
  exact .single this

theorem fill {handle : Block} {offset length : Nat} {byte : UInt8}
    {result : Except MemoryError Unit} (h : t.fill handle offset length byte = (result, t')) :
    Steps t t' := by
  have := Step.fill t handle offset length byte
  rw [h] at this
  exact .single this

/-- A fold each of whose rounds operates on the tracker operates on it. -/
theorem foldl {σ α : Type} (tracker : σ → Tracker H) {f : σ → α → σ}
    (hf : ∀ s a, Steps (tracker s) (tracker (f s a))) (l : List α) (s : σ) :
    Steps (tracker s) (tracker (l.foldl f s)) := by
  induction l generalizing s with
  | nil => exact .refl
  | cons a l ih => exact (hf s a).trans (ih (f s a))

theorem freeAll (t : Tracker H) : Steps t t.freeAll.2 := by
  refine foldl Prod.snd (fun s block => ?_) t.blocks (0, t)
  obtain ⟨count, t⟩ := s
  have := Step.free t block
  simp only
  split <;> next h => rw [h] at this; exact .single this

end Steps

end TrackedHeap.Tracker
