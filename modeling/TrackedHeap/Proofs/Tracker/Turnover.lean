import TrackedHeap.Proofs.Tracker.WellFormed

/-!
# What becomes of the blocks behind an owner

An owner is whatever draws blocks from a tracker and has a list of their ids. `Tracker.Turnover` is what an
operation of an owner does to the table of live blocks: it takes new ones under ids that were not given out
before, it returns blocks that it no longer has, and it leaves all others alone. So what an owner does is
nothing to another one, as long as no id is with both.
-/

namespace TrackedHeap.Tracker

variable {H : Type}

/-- The live blocks after an operation of the owner of some ids, which has certain ids afterwards. -/
structure Turnover (t t' : Tracker H) (before after : List Nat) : Prop where
  issued : t.nextId ≤ t'.nextId
  kept : ∀ b ∈ t.blocks, b.id ∉ before ∨ b.id ∈ after → b ∈ t'.blocks
  fresh : ∀ id ∈ after, id ∈ before ∨ t.nextId ≤ id

/-- Every live block has an id of its own, which was given out. -/
structure Numbered (t : Tracker H) : Prop where
  issued : ∀ b ∈ t.blocks, b.id < t.nextId
  unique : ∀ b ∈ t.blocks, ∀ c ∈ t.blocks, b.id = c.id → b = c

namespace Turnover

variable {t t' t'' : Tracker H} {before middle after : List Nat}

theorem refl (t : Tracker H) (ids : List Nat) : Turnover t t ids ids where
  issued := Nat.le_refl _
  kept _ hb _ := hb
  fresh _ hid := .inl hid

/-- Another state with the same table of blocks. -/
theorem of_blocks_eq (hb : t'.blocks = t.blocks) (hn : t'.nextId = t.nextId) (ids : List Nat) :
    Turnover t t' ids ids where
  issued := Nat.le_of_eq hn.symm
  kept _ hm _ := hb ▸ hm
  fresh _ hid := .inl hid

theorem trans (h : Turnover t t' before middle) (h' : Turnover t' t'' middle after)
    (hn : t.Numbered) : Turnover t t'' before after where
  issued := Nat.le_trans h.issued h'.issued
  kept b hb hid := by
    have hlt := hn.issued b hb
    rcases hid with hid | hid
    · -- a block of somebody else is not taken over on the way
      have hmid : b.id ∉ middle := fun hm =>
        (h.fresh _ hm).elim hid (Nat.not_le_of_lt hlt)
      exact h'.kept b (h.kept b hb (.inl hid)) (.inl hmid)
    · have hmid : b.id ∈ middle :=
        (h'.fresh _ hid).resolve_right fun hle => Nat.not_le_of_lt hlt (Nat.le_trans h.issued hle)
      exact h'.kept b (h.kept b hb (.inr hmid)) (.inr hid)
  fresh id hid :=
    (h'.fresh id hid).elim (h.fresh id) fun hle => .inr (Nat.le_trans h.issued hle)

/-- An owner of more than the operation is about. -/
theorem frame (h : Turnover t t' before after) (rest : List Nat) (hr : ∀ id ∈ rest, id ∉ before) :
    Turnover t t' (before ++ rest) (after ++ rest) where
  issued := h.issued
  kept b hb hid := by
    refine h.kept b hb ?_
    rcases hid with hid | hid
    · exact .inl fun hm => hid (List.mem_append_left _ hm)
    · rcases List.mem_append.mp hid with hid | hid
      · exact .inr hid
      · exact .inl (hr _ hid)
  fresh id hid := by
    rcases List.mem_append.mp hid with hid | hid
    · exact (h.fresh id hid).imp_left (List.mem_append_left _)
    · exact .inl (List.mem_append_right _ hid)

/-- Only which ids there are counts. -/
theorem congr {before' after' : List Nat} (h : Turnover t t' before after)
    (hb : ∀ id, id ∈ before ↔ id ∈ before') (ha : ∀ id, id ∈ after ↔ id ∈ after') :
    Turnover t t' before' after' where
  issued := h.issued
  kept b hm hid := h.kept b hm (hid.imp (fun hn hm => hn ((hb _).mp hm)) (ha _).mpr)
  fresh id hid := (h.fresh id ((ha id).mpr hid)).imp_left (hb id).mp

/-- Fewer blocks may have gone than are named. -/
theorem widen {ids ids' : List Nat} (h : Turnover t t' ids []) (hs : ∀ id ∈ ids, id ∈ ids') :
    Turnover t t' ids' [] where
  issued := h.issued
  kept b hb hid := h.kept b hb (hid.imp_left fun hn hm => hn (hs _ hm))
  fresh _ hid := absurd hid List.not_mem_nil

/-- Two operations that return at most certain blocks. -/
theorem andThen {ids : List Nat} (h : Turnover t t' ids []) (h' : Turnover t' t'' ids []) :
    Turnover t t'' ids [] where
  issued := Nat.le_trans h.issued h'.issued
  kept b hb hid := h'.kept b (h.kept b hb hid) hid
  fresh _ hid := absurd hid List.not_mem_nil

/-- Blocks of others stay live. -/
theorem kept_other (h : Turnover t t' before after) {b : Block} (hb : b ∈ t.blocks)
    (hid : b.id ∉ before) : b ∈ t'.blocks :=
  h.kept b hb (.inl hid)

end Turnover

variable [Heap H]

theorem WellFormed.numbered [LawfulHeap H] {t : Tracker H} (h : t.WellFormed) : t.Numbered where
  issued := h.layout.issued
  unique _ hb _ hc := h.layout.eq_of_id hb hc

/-! ## Taking blocks -/

/-- What a block that was granted is, and what the tracker has then. -/
theorem allocate_ok {t t' : Tracker H} {size : Nat} {alignment : Alignment} {block : Block}
    (h : t.allocate size alignment = (.ok block, t')) :
    t'.blocks = t.blocks ++ [block] ∧ t'.nextId = t.nextId + 1 ∧ block.id = t.nextId ∧
      block.requestedSize = size := by
  revert h
  fun_cases Tracker.allocate t size alignment
  case case5 =>
    intro h
    obtain ⟨hb, rfl⟩ := Prod.mk.inj h
    rw [← Except.ok.inj hb]
    exact ⟨rfl, rfl, rfl, rfl⟩
  all_goals exact fun h => by cases h

theorem allocate_error {t t' : Tracker H} {size : Nat} {alignment : Alignment} {e : MemoryError}
    (h : t.allocate size alignment = (.error e, t')) :
    t'.blocks = t.blocks ∧ t'.nextId = t.nextId := by
  revert h
  fun_cases Tracker.allocate t size alignment
  case case5 => exact fun h => by cases h
  all_goals
    intro h
    cases h
    exact ⟨rfl, rfl⟩

theorem turnover_allocate_ok {t t' : Tracker H} {size : Nat} {alignment : Alignment} {block : Block}
    (h : t.allocate size alignment = (.ok block, t')) (ids : List Nat) :
    Turnover t t' ids (block.id :: ids) := by
  obtain ⟨hb, hn, hid, -⟩ := allocate_ok h
  refine ⟨by omega, fun b hm _ => ?_, fun id hid' => ?_⟩
  · rw [hb]
    exact List.mem_append_left _ hm
  · rcases List.mem_cons.mp hid' with rfl | hid'
    · exact .inr (Nat.le_of_eq hid.symm)
    · exact .inl hid'

theorem turnover_allocate_error {t t' : Tracker H} {size : Nat} {alignment : Alignment}
    {e : MemoryError} (h : t.allocate size alignment = (.error e, t')) (ids : List Nat) :
    Turnover t t' ids ids :=
  .of_blocks_eq (allocate_error h).1 (allocate_error h).2 ids

/-- A new block has an id of its own. -/
theorem Numbered.ne_of_allocate {t t' : Tracker H} (hn : t.Numbered) {size : Nat} {alignment : Alignment}
    {block b : Block} (h : t.allocate size alignment = (.ok block, t')) (hb : b ∈ t.blocks) :
    b.id ≠ block.id := by
  rw [(allocate_ok h).2.2.1]
  exact Nat.ne_of_lt (hn.issued b hb)

omit [Heap H] in
/-- A block that joins some of the live ones under the next id. -/
theorem Numbered.concat {t t' : Tracker H} (hn : t.Numbered) {rest : List Block} {block : Block}
    (hrest : ∀ b ∈ rest, b ∈ t.blocks) (hblocks : t'.blocks = rest ++ [block]) (hid : block.id = t.nextId)
    (hnext : t'.nextId = t.nextId + 1) : t'.Numbered := by
  have hlt {b : Block} (hb : b ∈ rest) : b.id < t.nextId := hn.issued b (hrest b hb)
  refine ⟨fun b hm => ?_, fun b hm c hm' he => ?_⟩
  · rw [hblocks, List.mem_append, List.mem_singleton] at hm
    rcases hm with hm | rfl
    · exact hnext ▸ Nat.lt_succ_of_lt (hlt hm)
    · omega
  · rw [hblocks, List.mem_append, List.mem_singleton] at hm hm'
    rcases hm with hm | rfl <;> rcases hm' with hm' | rfl
    · exact hn.unique b (hrest b hm) c (hrest c hm') he
    · exact absurd (he.trans hid) (Nat.ne_of_lt (hlt hm))
    · exact absurd (he.symm.trans hid) (Nat.ne_of_lt (hlt hm'))
    · rfl

/-- The new block takes the next id. -/
theorem Numbered.allocate {t t' : Tracker H} (hn : t.Numbered) {size : Nat} {alignment : Alignment}
    {block : Block} (h : t.allocate size alignment = (.ok block, t')) : t'.Numbered := by
  obtain ⟨hblocks, hnext, hid, -⟩ := allocate_ok h
  exact hn.concat (fun _ hb => hb) hblocks hid hnext

/-! ## Returning blocks -/

/-- What is live after a block was returned, or was not there to be returned. -/
theorem free_blocks (t : Tracker H) (handle : Block) :
    (t.free handle).2.blocks = t.others handle.id ∧ (t.free handle).2.nextId = t.nextId := by
  fun_cases Tracker.free t handle
  case case1 h => exact ⟨(others_of_lookup_eq_none h).symm, rfl⟩
  case case2 live h =>
    refine ⟨?_, rfl⟩
    rw [← (mem_of_lookup h).2]

theorem free_of_live {t : Tracker H} {handle : Block} (h : ∃ b ∈ t.blocks, b.id = handle.id) :
    ∃ b, t.free handle = (.ok b, (t.free handle).2) := by
  fun_cases Tracker.free t handle
  case case1 hnone =>
    obtain ⟨b, hb, hid⟩ := h
    exact absurd hid (lookup_eq_none_iff.mp hnone b hb)
  case case2 => exact ⟨_, rfl⟩

/-- Each of the blocks is live, and none of them is there twice. -/
structure Returnable (t : Tracker H) (blocks : List Block) : Prop where
  live : ∀ b ∈ blocks, ∃ c ∈ t.blocks, c.id = b.id
  nodup : (blocks.map Block.id).Nodup

theorem Returnable.tail {t : Tracker H} {block : Block} {blocks : List Block}
    (h : t.Returnable (block :: blocks)) : (t.free block).2.Returnable blocks := by
  obtain ⟨hhead, htail⟩ := List.nodup_cons.mp h.nodup
  refine ⟨fun b hb => ?_, htail⟩
  obtain ⟨c, hc, hid⟩ := h.live b (List.mem_cons_of_mem _ hb)
  rw [(t.free_blocks block).1]
  refine ⟨c, mem_others.mpr ⟨hc, fun he => hhead ?_⟩, hid⟩
  exact List.mem_map.mpr ⟨b, hb, hid.symm.trans he⟩

/-- The tracker after some blocks were returned. -/
def returnAll (t : Tracker H) (blocks : List Block) : Tracker H :=
  blocks.foldl (fun t block => (t.free block).2) t

theorem returnAll_append (t : Tracker H) (blocks blocks' : List Block) :
    t.returnAll (blocks ++ blocks') = (t.returnAll blocks).returnAll blocks' :=
  List.foldl_append

theorem nextId_returnAll (t : Tracker H) (blocks : List Block) :
    (t.returnAll blocks).nextId = t.nextId := by
  induction blocks generalizing t with
  | nil => rfl
  | cons block blocks ih => exact (ih _).trans (t.free_blocks block).2

theorem mem_returnAll {t : Tracker H} {blocks : List Block} {b : Block} :
    b ∈ (t.returnAll blocks).blocks ↔ b ∈ t.blocks ∧ b.id ∉ blocks.map Block.id := by
  induction blocks generalizing t with
  | nil => simp [returnAll]
  | cons block blocks ih =>
    refine (ih (t := (t.free block).2)).trans ?_
    rw [(t.free_blocks block).1, mem_others, List.map_cons, List.mem_cons, not_or, and_assoc]

theorem Numbered.returnAll {t : Tracker H} (hn : t.Numbered) (blocks : List Block) :
    (t.returnAll blocks).Numbered where
  issued b hb := by
    rw [nextId_returnAll]
    exact hn.issued b (mem_returnAll.mp hb).1
  unique b hb c hc he := hn.unique b (mem_returnAll.mp hb).1 c (mem_returnAll.mp hc).1 he

/-- An owner returns all blocks that it does not keep. -/
theorem turnover_returnAll (t : Tracker H) {blocks : List Block} {before after : List Nat}
    (hsub : ∀ b ∈ blocks, b.id ∈ before) (hkeep : ∀ id ∈ after, id ∈ before)
    (hgone : ∀ b ∈ blocks, b.id ∉ after) : Turnover t (t.returnAll blocks) before after where
  issued := Nat.le_of_eq (t.nextId_returnAll blocks).symm
  kept b hb hid := by
    refine mem_returnAll.mpr ⟨hb, fun hm => ?_⟩
    obtain ⟨c, hc, hcid⟩ := List.mem_map.mp hm
    rw [← hcid] at hid
    exact hid.elim (fun hn => hn (hsub c hc)) (hgone c hc)
  fresh id hid := .inl (hkeep id hid)

theorem turnover_free (t : Tracker H) (handle : Block) :
    Turnover t (t.free handle).2 [handle.id] [] :=
  have h : Turnover t (t.returnAll [handle]) [handle.id] [] :=
    t.turnover_returnAll (by simp) (by simp) (by simp)
  h

/-! ## Requests of a client

A client has no blocks as an owner does; a request of one returns at most the blocks that it names. -/

omit [Heap H] in
theorem turnover_with_heap (t : Tracker H) (heap : H) (ids : List Nat) :
    Turnover t { t with heap } ids [] :=
  ⟨Nat.le_refl _, fun _ hb _ => hb, by simp⟩

omit [Heap H] in
theorem turnover_advance (t : Tracker H) (microseconds : Nat) :
    Turnover t (t.advance microseconds) [] [] := by
  refine .of_blocks_eq ?_ ?_ [] <;> rfl

theorem turnover_allocate (t : Tracker H) (size : Nat) (alignment : Alignment) :
    Turnover t (t.allocate size alignment).2 [] [] := by
  rcases ha : t.allocate size alignment with ⟨e | block, t'⟩
  · exact turnover_allocate_error ha []
  · have h := turnover_allocate_ok ha []
    exact ⟨h.issued, fun b hb _ => h.kept_other hb List.not_mem_nil, by simp⟩

theorem turnover_reallocate (t : Tracker H) (handle : Block) (size : Nat) :
    Turnover t (t.reallocate handle size).2 [handle.id] [] := by
  fun_cases Tracker.reallocate t handle size
  case case5 old hlookup padded _ raw heap _ resized =>
    refine ⟨Nat.le_succ _, fun b hb hid => List.mem_append_left _ ?_, by simp⟩
    rw [(mem_of_lookup hlookup).2]
    exact mem_others.mpr ⟨hb, by simpa using hid⟩
  all_goals exact t.turnover_with_heap _ _

theorem turnover_fill (t : Tracker H) (handle : Block) (offset length : Nat) (byte : UInt8) :
    Turnover t (t.fill handle offset length byte).2 [] [] := by
  fun_cases Tracker.fill t handle offset length byte <;>
    exact t.turnover_with_heap _ _

/-- The block whose bytes were set is live. -/
theorem fill_ok {t t' : Tracker H} {handle : Block} {offset length : Nat} {byte : UInt8}
    (h : t.fill handle offset length byte = (.ok (), t')) :
    t'.blocks = t.blocks ∧ ∃ b ∈ t.blocks, b.id = handle.id := by
  revert h
  fun_cases Tracker.fill t handle offset length byte
  case case1 => exact fun h => by cases h
  case case2 address hl =>
    intro h
    cases h
    obtain ⟨b, hb, hid, -⟩ := locate_eq_ok hl
    exact ⟨rfl, b, hb, hid⟩

theorem turnover_write (t : Tracker H) (handle : Block) (offset : Nat) (bytes : List UInt8) :
    Turnover t (t.write handle offset bytes).2 [] [] := by
  fun_cases Tracker.write t handle offset bytes <;>
    exact t.turnover_with_heap _ _

theorem turnover_copy (t : Tracker H) (source : Block) (sourceOffset : Nat) (target : Block)
    (targetOffset length : Nat) (mode : CopyMode) :
    Turnover t (t.copy source sourceOffset target targetOffset length mode).2 [] [] := by
  fun_cases Tracker.copy t source sourceOffset target targetOffset length mode <;>
    exact t.turnover_with_heap _ _

/-- Returning everything is returning one live block after another. -/
theorem freeAll_eq_returnAll (t : Tracker H) : t.freeAll.2 = t.returnAll t.blocks := by
  refine (List.foldl_hom Prod.snd fun s block => ?_).symm
  obtain ⟨count, t⟩ := s
  simp only
  split <;> next h => rw [h]

theorem turnover_freeAll (t : Tracker H) :
    Turnover t t.freeAll.2 (t.blocks.map Block.id) [] := by
  rw [freeAll_eq_returnAll]
  exact t.turnover_returnAll (fun _ => List.mem_map_of_mem) (by simp) (by simp)

end TrackedHeap.Tracker
