import TrackedHeap.Proofs.Tracker.Isolation
import TrackedHeap.Proofs.Tracker.Run

/-!
# Refused operations of a tracker

A tracker checks everything before it calls its heap, so the operations that can be refused once a heap
has been called are those that ask for a new or a resized range (`Tracker.act_eq_error`). Over whatever
heap, a refused operation changes nothing but the heap (`Tracker.act_refused`). Over a heap that keeps the
laws, it leaves the bytes of all live blocks as they were too (`Tracker.Unharmed`,
`WellFormed.unharmed_act`).
-/

namespace TrackedHeap.Tracker

variable {H : Type} [Heap H] {t t' : Tracker H} {e : MemoryError}

theorem free_refused {handle : Block} (h : t.free handle = (.error e, t')) : t' = t := by
  revert h
  fun_cases Tracker.free t handle
  case case1 => exact fun h => by cases h; rfl
  case case2 => exact fun h => by cases h

theorem fill_refused {handle : Block} {offset length : Nat} {byte : UInt8}
    (h : t.fill handle offset length byte = (.error e, t')) : t' = t := by
  revert h
  fun_cases Tracker.fill t handle offset length byte
  case case1 => exact fun h => by cases h; rfl
  case case2 => exact fun h => by cases h

theorem write_refused {handle : Block} {offset : Nat} {bytes : List UInt8}
    (h : t.write handle offset bytes = (.error e, t')) : t' = t := by
  revert h
  fun_cases Tracker.write t handle offset bytes
  case case1 => exact fun h => by cases h; rfl
  case case2 => exact fun h => by cases h

theorem copy_refused {source target : Block} {offset offset' length : Nat} {mode : CopyMode}
    (h : t.copy source offset target offset' length mode = (.error e, t')) : t' = t := by
  revert h
  fun_cases Tracker.copy t source offset target offset' length mode
  case case4 => exact fun h => by cases h
  case case5 => exact fun h => by cases h
  all_goals exact fun h => by cases h; rfl

/-- A refused operation left everything alone, unless it asked for a new or a resized range. -/
theorem act_eq_error {a : Act} (h : (t.act a).1 = .error e) :
    (t.act a).2 = t ∨
      (∃ size alignment, t.allocate size alignment = (.error e, (t.act a).2)) ∨
      ∃ handle size, t.reallocate handle size = (.error e, (t.act a).2) := by
  cases a with
  | advance n => cases h
  | allocate size alignment =>
    exact .inr (.inl ⟨size, alignment, Prod.ext (answered_eq_error.mp h) rfl⟩)
  | free handle => exact .inl (free_refused (Prod.ext (answered_eq_error.mp h) rfl))
  | reallocate handle size => exact .inr (.inr ⟨handle, size, Prod.ext (answered_eq_error.mp h) rfl⟩)
  | freeAll => cases h
  | fill handle offset length byte =>
    exact .inl (fill_refused (Prod.ext (answered_eq_error.mp h) rfl))
  | write handle offset bytes => exact .inl (write_refused (Prod.ext (answered_eq_error.mp h) rfl))
  | copy source offset target offset' length mode =>
    exact .inl (copy_refused (Prod.ext (answered_eq_error.mp h) rfl))

/-! ## Over whatever heap -/

theorem allocate_refused {size : Nat} {alignment : Alignment}
    (h : t.allocate size alignment = (.error e, t')) : t' = { t with heap := t'.heap } := by
  revert h
  fun_cases Tracker.allocate t size alignment
  case case5 => exact fun h => by cases h
  all_goals exact fun h => by cases h; rfl

theorem reallocate_refused {handle : Block} {size : Nat}
    (h : t.reallocate handle size = (.error e, t')) : t' = { t with heap := t'.heap } := by
  revert h
  fun_cases Tracker.reallocate t handle size
  case case5 => exact fun h => by cases h
  all_goals exact fun h => by cases h; rfl

/-- A refused operation changes at most the heap. -/
theorem act_refused {a : Act} (h : (t.act a).1 = .error e) :
    (t.act a).2 = { t with heap := (t.act a).2.heap } := by
  rcases act_eq_error h with heq | ⟨size, alignment, ha⟩ | ⟨handle, size, ha⟩
  · rw [heq]
  · exact allocate_refused ha
  · exact reallocate_refused ha

/-! ## Over a heap that keeps the laws -/

/-- All but the heap is as before, and the heap has the same bytes in every live block. -/
structure Unharmed (t t' : Tracker H) : Prop where
  books : t' = { t with heap := t'.heap }
  bytes : ∀ b ∈ t.blocks, b.extent.SameBytes (Heap.memory t.heap) (Heap.memory t'.heap)

theorem Unharmed.refl (t : Tracker H) : t.Unharmed t where
  books := rfl
  bytes _ _ := .refl _ _

namespace WellFormed

variable [LawfulBytes H]

theorem unharmed_allocate (h : t.WellFormed) {size : Nat} {alignment : Alignment}
    (ha : t.allocate size alignment = (.error e, t')) : t.Unharmed t' := by
  refine ⟨allocate_refused ha, ?_⟩
  revert ha
  fun_cases Tracker.allocate t size alignment
  case case3 hsize padded hp error heap hcall =>
    intro ha b hb
    cases ha
    have hpos := Alignment.paddedSize_pos hsize hp
    exact LawfulBytes.alloc_bytes h.sound hpos hcall _ (h.granted hb)
  case case4 hsize padded hp heap hcall =>
    intro ha b hb
    cases ha
    have hpos := Alignment.paddedSize_pos hsize hp
    exact LawfulBytes.alloc_bytes h.sound hpos hcall _ (h.granted hb)
  case case5 => exact fun ha => by cases ha
  all_goals exact fun ha b _ => by cases ha; exact .refl _ _

/-- A block that could not be resized keeps its bytes, as all others do. -/
theorem unharmed_reallocate (h : t.WellFormed) {handle : Block} {size : Nat}
    (ha : t.reallocate handle size = (.error e, t')) : t.Unharmed t' := by
  refine ⟨reallocate_refused ha, ?_⟩
  revert ha
  fun_cases Tracker.reallocate t handle size
  case case4 hsize old hl padded hp error heap hcall =>
    intro ha b hb
    cases ha
    have hpos := Alignment.paddedSize_pos hsize hp
    have hold := h.granted (mem_of_lookup hl).1
    by_cases hext : b.extent = old.extent
    · rw [hext]
      exact LawfulBytes.realloc_refused h.sound hold hpos hcall
    · exact LawfulBytes.realloc_bytes h.sound hold hpos hcall _ (h.granted hb) hext
  case case5 => exact fun ha => by cases ha
  all_goals exact fun ha b _ => by cases ha; exact .refl _ _

/-- Whatever operation is refused, every live block is there as before, with its bytes. -/
theorem unharmed_act (h : t.WellFormed) {a : Act} (hact : (t.act a).1 = .error e) :
    t.Unharmed (t.act a).2 := by
  rcases act_eq_error hact with heq | ⟨size, alignment, ha⟩ | ⟨handle, size, ha⟩
  · rw [heq]
    exact .refl t
  · exact h.unharmed_allocate ha
  · exact h.unharmed_reallocate ha

end WellFormed

end TrackedHeap.Tracker
