import TrackedHeap.Proofs.Ownership.Pool
import TrackedHeap.Proofs.Tracker.Stale

/-!
# Owners that leave no block behind

`Tracker.Turnover` says that an owner does nothing to the blocks of others. `Tracker.Tidy` is the other half:
an owner leaves none of its own behind. A live block that it does not have after an operation was live before,
and was not one of its own either. So a block that somebody has is with somebody for as long as it is live.

Pools are tidy with the blocks that they keep, apart from those that they hand to clients and take back from
them. Of an owner that takes its blocks from the tracker alone, `Tracker.Draws` says in addition that those
that it has afterwards are old or new ones.
-/

namespace TrackedHeap

namespace Tracker

variable {H : Type} {t t' t'' : Tracker H} {before middle after : List Nat}

/-- A block that is live after an operation of the owner of some ids has one of the ids of the owner then, or
was live before and had none. -/
def Tidy (t t' : Tracker H) (before after : List Nat) : Prop :=
  ∀ b ∈ t'.blocks, b.id ∈ after ∨ b ∈ t.blocks ∧ b.id ∉ before

namespace Tidy

/-- Nothing becomes live. -/
theorem of_subset (h : ∀ b ∈ t'.blocks, b ∈ t.blocks) (ids : List Nat) : t.Tidy t' ids ids := fun b hb =>
  or_iff_not_imp_left.mpr fun hid => ⟨h b hb, hid⟩

theorem refl (t : Tracker H) (ids : List Nat) : t.Tidy t ids ids :=
  .of_subset (fun _ hb => hb) ids

theorem trans (h : t.Tidy t' before middle) (h' : t'.Tidy t'' middle after) : t.Tidy t'' before after :=
  fun b hb => (h' b hb).imp_right fun ⟨hb', hid⟩ => (h b hb').resolve_left hid

theorem mono {before' after' : List Nat} (h : t.Tidy t' before after) (hb : ∀ id ∈ before', id ∈ before)
    (ha : ∀ id ∈ after, id ∈ after') : t.Tidy t' before' after' :=
  fun b hm => (h b hm).imp (ha b.id) fun ⟨hm', hid⟩ => ⟨hm', fun hid' => hid (hb _ hid')⟩

/-- An owner of more than the operation is about. -/
theorem append_right (h : t.Tidy t' before after) (rest : List Nat) :
    t.Tidy t' (before ++ rest) (after ++ rest) := fun b hb => by
  rw [List.mem_append, List.mem_append, not_or]
  rcases h b hb with hid | ⟨hb', hid⟩
  · exact .inl (.inl hid)
  · by_cases hr : b.id ∈ rest
    · exact .inl (.inr hr)
    · exact .inr ⟨hb', hid, hr⟩

theorem perm {before' after' : List Nat} (h : t.Tidy t' before after) (hb : before'.Perm before)
    (ha : after'.Perm after) : t.Tidy t' before' after' :=
  h.mono (fun _ => hb.mem_iff.mp) fun _ => ha.mem_iff.mpr

theorem append_left (h : t.Tidy t' before after) (rest : List Nat) :
    t.Tidy t' (rest ++ before) (rest ++ after) :=
  (h.append_right rest).perm List.perm_append_comm List.perm_append_comm

end Tidy

variable [Heap H] {size : Nat} {alignment : Alignment} {block : Block}

theorem tidy_allocate_ok (h : t.allocate size alignment = (.ok block, t')) (ids : List Nat) :
    t.Tidy t' ids (block.id :: ids) := fun b hb => by
  rw [(allocate_ok h).1, List.mem_append, List.mem_singleton] at hb
  rcases hb with hb | rfl
  · exact ((Tidy.refl t ids) b hb).imp_left (List.mem_cons_of_mem _)
  · exact .inl List.mem_cons_self

theorem tidy_allocate_error {e : MemoryError} (h : t.allocate size alignment = (.error e, t'))
    (ids : List Nat) : t.Tidy t' ids ids :=
  .of_subset (fun _ hb => (allocate_error h).1 ▸ hb) ids

theorem tidy_returnAll (t : Tracker H) {blocks : List Block}
    (h : ∀ id ∈ before, id ∈ after ∨ id ∈ blocks.map Block.id) : t.Tidy (t.returnAll blocks) before after :=
  fun b hb => by
    obtain ⟨hb', hid⟩ := mem_returnAll.mp hb
    by_cases hm : b.id ∈ before
    · exact .inl ((h _ hm).resolve_right hid)
    · exact .inr ⟨hb', hm⟩

theorem tidy_free {handle : Block} {result : Except MemoryError Block} (h : t.free handle = (result, t'))
    (rest : List Nat) : t.Tidy t' (handle.id :: rest) rest := by
  have hback : t.Tidy (t.returnAll [handle]) [handle.id] [] := t.tidy_returnAll fun _ => .inr
  rw [show t' = t.returnAll [handle] from (congrArg Prod.snd h).symm]
  exact hback.append_right rest

theorem tidy_reallocate_ok {handle : Block} (h : t.reallocate handle size = (.ok block, t')) (ids : List Nat) :
    t.Tidy t' (handle.id :: ids) (block.id :: ids) := by
  revert h
  fun_cases reallocate t handle size
  case case5 hsize old hl padded hp raw heap ha resized =>
    intro h b hb
    obtain ⟨hblock, rfl⟩ := Prod.mk.inj h
    rw [← Except.ok.inj hblock]
    rcases List.mem_append.mp hb with hb | hb
    · obtain ⟨hb, hne⟩ := mem_others.mp hb
      rw [(mem_of_lookup hl).2] at hne
      rcases (Tidy.refl t ids) b hb with hid | ⟨hb, hid⟩
      · exact .inl (List.mem_cons_of_mem _ hid)
      · exact .inr ⟨hb, List.not_mem_cons_of_ne_of_not_mem hne hid⟩
    · exact .inl (List.mem_singleton.mp hb ▸ List.mem_cons_self)
  all_goals exact fun h => by cases h

theorem tidy_reallocate_error {handle : Block} {e : MemoryError}
    (h : t.reallocate handle size = (.error e, t')) (ids : List Nat) : t.Tidy t' ids ids := by
  revert h
  fun_cases reallocate t handle size
  case case5 => exact fun h => by cases h
  all_goals
    intro h
    cases h
    exact .of_subset (fun _ hb => hb) ids

theorem tidy_fill (t : Tracker H) (handle : Block) (offset length : Nat) (byte : UInt8) (ids : List Nat) :
    t.Tidy (t.fill handle offset length byte).2 ids ids := by
  fun_cases fill t handle offset length byte <;> exact .of_subset (fun _ hb => hb) ids

theorem tidy_write (t : Tracker H) (handle : Block) (offset : Nat) (bytes : List UInt8) (ids : List Nat) :
    t.Tidy (t.write handle offset bytes).2 ids ids := by
  fun_cases write t handle offset bytes <;> exact .of_subset (fun _ hb => hb) ids

theorem tidy_copy (t : Tracker H) (source : Block) (sourceOffset : Nat) (target : Block)
    (targetOffset length : Nat) (mode : CopyMode) (ids : List Nat) :
    t.Tidy (t.copy source sourceOffset target targetOffset length mode).2 ids ids := by
  fun_cases copy t source sourceOffset target targetOffset length mode <;>
    exact .of_subset (fun _ hb => hb) ids

/-- Returning everything leaves nothing. -/
theorem tidy_freeAll (t : Tracker H) (before after : List Nat) :
    t.Tidy t.freeAll.2 (t.blocks.map Block.id ++ before) after := fun b hb => by
  rw [freeAll_eq_returnAll] at hb
  obtain ⟨hmem, hnot⟩ := mem_returnAll.mp hb
  exact absurd (List.mem_map_of_mem hmem) hnot

/-! ## Owners that take blocks -/

omit [Heap H]

/-- The id was given out in between. -/
def Gives (t t' : Tracker H) (id : Nat) : Prop :=
  t.nextId ≤ id ∧ id < t'.nextId

instance (t t' : Tracker H) (id : Nat) : Decidable (t.Gives t' id) :=
  inferInstanceAs (Decidable (_ ∧ _))

/-- An owner takes blocks of the tracker, or returns some: it leaves none behind, and what it has afterwards
it had before or was given. -/
structure Draws (t t' : Tracker H) (before after : List Nat) : Prop where
  tidy : t.Tidy t' before after
  given : ∀ id ∈ after, id ∈ before ∨ t.Gives t' id
  nextId_le : t.nextId ≤ t'.nextId

namespace Draws

theorem refl (t : Tracker H) (ids : List Nat) : t.Draws t ids ids :=
  ⟨.refl t ids, fun _ => .inl, Nat.le_refl _⟩

theorem trans (h : t.Draws t' before middle) (h' : t'.Draws t'' middle after) : t.Draws t'' before after where
  tidy := h.tidy.trans h'.tidy
  given id hid := by
    rcases h'.given id hid with hmid | hgives
    · exact (h.given id hmid).imp_right fun hgives => ⟨hgives.1, Nat.lt_of_lt_of_le hgives.2 h'.nextId_le⟩
    · exact .inr ⟨Nat.le_trans h.nextId_le hgives.1, hgives.2⟩
  nextId_le := Nat.le_trans h.nextId_le h'.nextId_le

theorem append_right (h : t.Draws t' before after) (rest : List Nat) :
    t.Draws t' (before ++ rest) (after ++ rest) where
  tidy := h.tidy.append_right rest
  given id hid := by
    rcases List.mem_append.mp hid with hid | hid
    · exact (h.given id hid).imp_left (List.mem_append_left _)
    · exact .inl (List.mem_append_right _ hid)
  nextId_le := h.nextId_le

theorem perm {before' after' : List Nat} (h : t.Draws t' before after) (hb : before'.Perm before)
    (ha : after'.Perm after) : t.Draws t' before' after' where
  tidy := h.tidy.perm hb ha
  given id hid := (h.given id (ha.mem_iff.mp hid)).imp_left hb.mem_iff.mpr
  nextId_le := h.nextId_le

theorem append_left (h : t.Draws t' before after) (rest : List Nat) :
    t.Draws t' (rest ++ before) (rest ++ after) :=
  (h.append_right rest).perm List.perm_append_comm List.perm_append_comm

end Draws

variable [Heap H]

/-- Nothing is taken. -/
theorem Steps.draws (s : Steps t t') (h : t.Tidy t' before after) (hsub : ∀ id ∈ after, id ∈ before) :
    t.Draws t' before after :=
  ⟨h, fun id hid => .inl (hsub id hid), s.nextId_le⟩

theorem draws_allocate_ok (h : t.allocate size alignment = (.ok block, t')) (ids : List Nat) :
    t.Draws t' ids (block.id :: ids) where
  tidy := tidy_allocate_ok h ids
  given id hid := by
    obtain ⟨-, hnext, hblock, -⟩ := allocate_ok h
    rcases List.mem_cons.mp hid with rfl | hid
    · exact .inr ⟨Nat.le_of_eq hblock.symm, by omega⟩
    · exact .inl hid
  nextId_le := (Steps.allocate h).nextId_le

theorem draws_allocate_error {e : MemoryError} (h : t.allocate size alignment = (.error e, t'))
    (ids : List Nat) : t.Draws t' ids ids :=
  (Steps.allocate h).draws (tidy_allocate_error h ids) fun _ => id

theorem draws_free {handle : Block} {result : Except MemoryError Block} (h : t.free handle = (result, t'))
    (rest : List Nat) : t.Draws t' (handle.id :: rest) rest :=
  (Steps.free h).draws (tidy_free h rest) fun _ => List.mem_cons_of_mem _

theorem draws_returnAll (t : Tracker H) {blocks : List Block}
    (h : ∀ id ∈ before, id ∈ after ∨ id ∈ blocks.map Block.id) (hsub : ∀ id ∈ after, id ∈ before) :
    t.Draws (t.returnAll blocks) before after where
  tidy := t.tidy_returnAll h
  given id hid := .inl (hsub id hid)
  nextId_le := Nat.le_of_eq (t.nextId_returnAll blocks).symm

end Tracker

open Tracker (Tidy)

variable {H : Type} [Heap H]

/-! ## Pools -/

namespace Pool

/-- The block that a request is answered with. -/
def granted : Except MemoryError Block → List Nat
  | .ok block => [block.id]
  | .error _ => []

/-- The block that a pool has taken from a client when it answers. -/
def accepted (p : Pool) (answer : Except MemoryError Unit) (handle : Block) : List Nat :=
  match answer with
  | .ok _ => if handle.requestedSize = p.blockSize then [handle.id] else []
  | .error _ => []

/-- A block that was kept, or a new one, is handed out. -/
theorem tidy_acquire (p : Pool) (t : Tracker H) :
    t.Tidy (p.acquire t).2.2 p.kept (granted (p.acquire t).1 ++ (p.acquire t).2.1.kept) := by
  fun_cases Pool.acquire p t
  case case1 hq =>
    rw [kept, hq]
    exact .refl _ _
  case case2 ha => exact Tracker.tidy_allocate_error ha _
  case case3 ha => exact Tracker.tidy_allocate_ok ha _

/-- A block that is taken is kept, or goes back to the tracker. -/
theorem tidy_release (p : Pool) (t : Tracker H) (handle : Block) :
    t.Tidy (p.release t handle).2.2 (p.accepted (p.release t handle).1 handle ++ p.kept)
      (p.release t handle).2.1.kept := by
  have hsame {result : Except MemoryError Unit} {t₁ : Tracker H}
      (h : t.zero handle 0 handle.requestedSize = (result, t₁)) (ids : List Nat) : t.Tidy t₁ ids ids := by
    have hfill := t.tidy_fill handle 0 handle.requestedSize 0 ids
    rwa [← Tracker.zero, h] at hfill
  fun_cases Pool.release p t handle
  case case1 hsize =>
    rw [accepted, if_neg hsize]
    exact .refl _ _
  case case2 => exact .refl _ _
  case case3 hzero => exact hsame hzero _
  case case4 hsize hnew t₁ hzero hroom =>
    rw [accepted, if_pos (Decidable.not_not.mp hsize)]
    refine (hsame hzero _).mono (fun _ hid => hid) fun id hid => ?_
    show id ∈ (p.queue ++ [handle]).map Block.id
    rw [List.map_append]
    exact List.perm_append_comm.mem_iff.mp hid
  case case5 hsize hnew t₁ hzero hfull e t₂ hfree =>
    have hback := Tracker.tidy_free hfree p.kept
    exact (hsame hzero _).trans (hback.mono (fun _ => List.mem_cons_of_mem _) fun _ hid => hid)
  case case6 hsize hnew t₁ hzero hfull b t₂ hfree =>
    rw [accepted, if_pos (Decidable.not_not.mp hsize)]
    exact (hsame hzero _).trans (Tracker.tidy_free hfree p.kept)

theorem tidy_clear (p : Pool) (t : Tracker H) : t.Tidy (p.clear t).2.2 p.kept [] := by
  rw [clear_tracker]
  exact t.tidy_returnAll fun _ => .inr

end Pool

end TrackedHeap
