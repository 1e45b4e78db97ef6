import TrackedHeap.Carver.ObjectPool
import TrackedHeap.Proofs.Ownership.Basic

/-!
# What clients have of an object pool

Every range is a whole block, and no block is with two clients, or with a client and in the queue. A handle
that comes back must be one that was given out: the pool keeps it as it is, and grants later what it says.
-/

namespace TrackedHeap.ObjectPool

variable {H : Type} {t t' : Tracker H} {p p' : ObjectPool} {out : List CarveOut}

/-- The range is all of a live block that the pool has. -/
structure IsWhole (p : ObjectPool) (t : Tracker H) (c : CarveOut) : Prop where
  block_mem : c.block ∈ t.blocks
  owned : c.block.id ∈ p.owned
  eq_whole : c = .whole c.block

/-- The blocks of the pool are live, and each is with one client or waits. -/
structure Sound (p : ObjectPool) (t : Tracker H) (out : List CarveOut) : Prop where
  live : ∀ id ∈ p.owned, ∃ b ∈ t.blocks, b.id = id
  whole : ∀ c ∈ p.queued ++ out, p.IsWhole t c
  distinct : (p.queued ++ out).Pairwise fun c d => c.block.id ≠ d.block.id

namespace IsWhole

variable {c : CarveOut}

theorem offset_eq (h : p.IsWhole t c) : c.offset = 0 := by
  rw [h.eq_whole]
  rfl

theorem granted_eq (h : p.IsWhole t c) : c.grantedSize = c.block.requestedSize := by
  rw [h.eq_whole]
  rfl

theorem requested_eq (h : p.IsWhole t c) : c.requestedSize = c.block.requestedSize := by
  rw [h.eq_whole]
  rfl

theorem keeps (h : p.IsWhole t c) (hk : t.Keeps t' p'.owned) (ho : c.block.id ∈ p'.owned) :
    p'.IsWhole t' c :=
  ⟨hk _ h.block_mem ho, ho, h.eq_whole⟩

end IsWhole

namespace Sound

theorem whole_out (h : p.Sound t out) {c : CarveOut} (hc : c ∈ out) : p.IsWhole t c :=
  h.whole c (List.mem_append_right _ hc)

theorem owned (h : p.Sound t out) : Owned t p.owned out where
  live := h.live
  mem c hc := (h.whole_out hc).block_mem
  backed c hc := (h.whole_out hc).owned
  fits c hc := by
    have hw := h.whole_out hc
    exact Nat.le_of_eq (by rw [hw.offset_eq, hw.granted_eq, Nat.zero_add])
  enough c hc := by
    have hw := h.whole_out hc
    exact Nat.le_of_eq (hw.requested_eq.trans hw.granted_eq.symm)
  apart := (List.pairwise_append.mp h.distinct).2.1.imp fun hne he => absurd he hne

theorem keeps (h : p.Sound t out) (hk : t.Keeps t' p.owned) : p.Sound t' out where
  live id hid := by
    obtain ⟨b, hb, rfl⟩ := h.live id hid
    exact ⟨b, hk b hb hid, rfl⟩
  whole c hc := (h.whole c hc).keeps hk (h.whole c hc).owned
  distinct := h.distinct

theorem sublist {out' : List CarveOut} (h : p.Sound t out) (hs : out'.Sublist out) :
    p.Sound t out' where
  live := h.live
  whole c hc := h.whole c ((hs.append_left p.queued).subset hc)
  distinct := h.distinct.sublist (hs.append_left p.queued)

theorem with_tally (h : p.Sound t out) (tally : Tally) : { p with tally }.Sound t out :=
  ⟨h.live, fun c hc => ⟨(h.whole c hc).1, (h.whole c hc).2, (h.whole c hc).3⟩, h.distinct⟩

/-- A block that waited goes to a client. -/
theorem reuse (h : p.Sound t out) {c : CarveOut} (hc : c ∈ p.queued) :
    (p.reuse c).Sound t (c :: out) := by
  have hp : (p.queued ++ out).Perm (p.queued.erase c ++ c :: out) :=
    ((List.perm_cons_erase hc).append_right out).trans List.perm_middle.symm
  refine ⟨h.live, fun d hd => ?_, (hp.pairwise_iff Ne.symm).mp h.distinct⟩
  have hw := h.whole d (hp.mem_iff.mpr hd)
  exact ⟨hw.1, hw.2, hw.3⟩

/-- A block that a client had waits for the next one. -/
theorem release (h : p.Sound t out) (hn : t.Numbered) (handle : CarveOut)
    (hw : handle.block.id ∈ p.owned → p.IsWhole t handle) :
    (p.release t handle).2.Sound t (CarveOut.returned (p.release t handle).1 handle out) ∧
      (p.release t handle).2.owned = p.owned := by
  fun_cases ObjectPool.release p t handle
  case case5 id howned hsize hlive hholds =>
    have hown : id ∈ p.owned := Decidable.not_not.mp (not_or.mp howned).2
    have hw := hw hown
    have hsub : (CarveOut.returned (.ok ()) handle out).Sublist out :=
      CarveOut.returned_sublist (.ok ()) handle out
    -- what waits is not the handle's block, or it would be held
    have hqueue : ∀ c ∈ p.queued, c.block.id ≠ handle.block.id := fun c hc he => by
      have hwc := h.whole c (List.mem_append_left _ hc)
      have hb : c.block = handle.block := hn.unique _ hwc.block_mem _ hw.block_mem he
      refine hholds (List.any_eq_true.mpr ⟨c, List.mem_filter.mpr ⟨hc, ?_⟩, by simpa using he⟩)
      rw [hwc.requested_eq, hw.requested_eq, hb, beq_self_eq_true]
    have hout : ∀ c ∈ CarveOut.returned (.ok ()) handle out, handle.block.id ≠ c.block.id :=
      fun c hc he => by
        obtain ⟨hc, hne⟩ := CarveOut.mem_returned_ok.mp hc
        exact hne he.symm ((h.whole_out hc).offset_eq.trans hw.offset_eq.symm)
    refine ⟨⟨h.live, fun c hc => ?_, ?_⟩, rfl⟩
    · have hwc : p.IsWhole t c := by
        rcases List.mem_append.mp hc with hc | hc
        · rcases List.mem_append.mp hc with hc | hc
          · exact h.whole c (List.mem_append_left _ hc)
          · rwa [List.mem_singleton.mp hc]
        · exact h.whole_out (hsub.subset hc)
      exact ⟨hwc.1, hwc.2, hwc.3⟩
    · have hrest := h.distinct.sublist (hsub.append_left p.queued)
      obtain ⟨hq, ho, hqo⟩ := List.pairwise_append.mp hrest
      show ((p.queued ++ [handle]) ++ _).Pairwise _
      rw [List.append_assoc]
      refine List.pairwise_append.mpr ⟨hq, List.pairwise_cons.mpr ⟨hout, ho⟩, fun c hc => ?_⟩
      exact List.forall_mem_cons.mpr ⟨hqueue c hc, hqo c hc⟩
  all_goals exact ⟨h, rfl⟩

/-- All that waits can go back. -/
theorem returnable (h : p.Sound t out) : t.Returnable (p.queued.map CarveOut.block) := by
  refine ⟨fun b hb => ?_, ?_⟩
  · obtain ⟨c, hc, rfl⟩ := List.mem_map.mp hb
    exact ⟨c.block, (h.whole c (List.mem_append_left _ hc)).block_mem, rfl⟩
  · rw [List.map_map]
    exact List.pairwise_map.mpr (List.pairwise_append.mp h.distinct).1

end Sound

theorem make_ok {total : Nat} {alignment : Alignment} (hm : make total alignment = .ok p) :
    p = { alignment, total } := by
  unfold make at hm
  split at hm <;> cases hm
  rfl

theorem sound_of_make {total : Nat} {alignment : Alignment} (hm : make total alignment = .ok p)
    (t : Tracker H) : p.Sound t [] ∧ p.owned = [] := by
  rw [make_ok hm]
  exact ⟨⟨by simp, by simp, List.Pairwise.nil⟩, rfl⟩

variable [Heap H]

theorem Sound.carve (h : p.Sound t out) (hn : t.Numbered) (size : Nat) :
    (p.carve t size).2.1.Sound (p.carve t size).2.2 (CarveOut.taken (p.carve t size).1 out) ∧
      Tracker.Turnover t (p.carve t size).2.2 p.owned (p.carve t size).2.1.owned := by
  fun_cases ObjectPool.carve p t size
  case case1 => exact ⟨h, .refl _ _⟩
  case case2 c hfind => exact ⟨h.reuse (List.mem_of_find?_eq_some hfind), .refl _ _⟩
  case case3 => exact ⟨h, .refl _ _⟩
  case case4 ha =>
    have hturn := Tracker.turnover_allocate_error ha p.owned
    exact ⟨h.keeps hturn.keeps, hturn⟩
  case case5 hsize hnone hroom block t₁ ha =>
    obtain ⟨hblocks, -, hid, hreq⟩ := Tracker.allocate_ok ha
    have hturn := Tracker.turnover_allocate_ok ha p.owned
    have hmem : block ∈ t₁.blocks := by
      rw [hblocks]
      exact List.mem_append_right _ (List.mem_singleton_self _)
    have hp : (p.queued ++ { block, offset := 0, grantedSize := size, requestedSize := size } :: out).Perm
        ({ block, offset := 0, grantedSize := size, requestedSize := size } :: (p.queued ++ out)) :=
      List.perm_middle
    refine ⟨⟨?_, fun c hc => ?_, (hp.pairwise_iff Ne.symm).mpr ?_⟩, hturn⟩
    · refine List.forall_mem_cons.mpr ⟨⟨block, hmem, rfl⟩, fun id hid => ?_⟩
      obtain ⟨b, hb, rfl⟩ := h.live id hid
      exact ⟨b, hturn.keeps b hb (List.mem_cons_of_mem _ hid), rfl⟩
    · rcases List.mem_cons.mp (hp.mem_iff.mp hc) with rfl | hc
      · exact ⟨hmem, List.mem_cons_self, by rw [CarveOut.whole, hreq]⟩
      · exact (h.whole c hc).keeps hturn.keeps (List.mem_cons_of_mem _ (h.whole c hc).owned)
    · refine List.pairwise_cons.mpr ⟨fun c hc => ?_, h.distinct⟩
      exact (hn.ne_of_allocate ha (h.whole c hc).block_mem).symm

theorem Sound.allocate (h : p.Sound t out) (hn : t.Numbered) (size : Nat) :
    (p.allocate t size).2.1.Sound (p.allocate t size).2.2
        (CarveOut.taken (p.allocate t size).1 out) ∧
      Tracker.Turnover t (p.allocate t size).2.2 p.owned (p.allocate t size).2.1.owned :=
  ⟨(h.carve hn size).1.with_tally _, (h.carve hn size).2⟩

/-! ## Returning what waits -/

theorem drain_pool (p : ObjectPool) (t : Tracker H) (ranges : List CarveOut) :
    (p.drain t ranges).2.1 = ranges.foldl forget p := by
  refine (List.foldl_hom (fun s : Outcome Unit (ObjectPool × Tracker H) => s.2.1) fun s c => ?_).symm
  obtain ⟨result, p, t⟩ := s
  simp only
  split <;> rfl

/-- What a pool is and what it has counted stay as they are. -/
theorem drain_fixed (p : ObjectPool) (t : Tracker H) (ranges : List CarveOut) :
    (p.drain t ranges).2.1.alignment = p.alignment ∧ (p.drain t ranges).2.1.tally = p.tally := by
  rw [drain_pool]
  induction ranges generalizing p with
  | nil => exact ⟨rfl, rfl⟩
  | cons c ranges ih => exact ih (p.forget c)

theorem drain_tracker (p : ObjectPool) (t : Tracker H) (ranges : List CarveOut) :
    (p.drain t ranges).2.2 = t.returnAll (ranges.map CarveOut.block) := by
  rw [Tracker.returnAll, List.foldl_map]
  refine (List.foldl_hom (fun s : Outcome Unit (ObjectPool × Tracker H) => s.2.2) fun s c => ?_).symm
  obtain ⟨result, p, t⟩ := s
  simp only
  split <;> next h => rw [h]

theorem mem_owned_forget {id : Nat} (p : ObjectPool) (ranges : List CarveOut) :
    id ∈ (ranges.foldl forget p).owned ↔ id ∈ p.owned ∧ id ∉ ranges.map fun c => c.block.id := by
  induction ranges generalizing p with
  | nil => simp
  | cons c ranges ih =>
    refine (ih (p.forget c)).trans ?_
    simp only [forget, List.mem_filter, bne_iff_ne, List.map_cons, List.mem_cons, not_or, and_assoc]

theorem mem_owned_reset {id : Nat} (p : ObjectPool) (t : Tracker H) :
    id ∈ (p.reset t).2.1.owned ↔ id ∈ p.owned ∧ id ∉ p.queued.map fun c => c.block.id := by
  show id ∈ (p.drain t p.queued).2.1.owned ↔ _
  rw [drain_pool, mem_owned_forget]

/-- What waits goes back to the tracker, and what clients have stays with them. -/
theorem Sound.reset (h : p.Sound t out) :
    (p.reset t).2.1.Sound (p.reset t).2.2 out ∧
      Tracker.Turnover t (p.reset t).2.2 p.owned (p.reset t).2.1.owned := by
  have howned (id : Nat) : id ∈ (p.reset t).2.1.owned ↔
      id ∈ p.owned ∧ id ∉ p.queued.map fun c => c.block.id := p.mem_owned_reset t
  have hturn : Tracker.Turnover t (p.reset t).2.2 p.owned (p.reset t).2.1.owned := by
    show Tracker.Turnover t (p.drain t p.queued).2.2 p.owned _
    rw [drain_tracker]
    refine t.turnover_returnAll (fun b hb => ?_) (fun id hid => ((howned id).mp hid).1) fun b hb hid => ?_
    · obtain ⟨c, hc, rfl⟩ := List.mem_map.mp hb
      exact (h.whole c (List.mem_append_left _ hc)).owned
    · obtain ⟨c, hc, rfl⟩ := List.mem_map.mp hb
      exact ((howned _).mp hid).2 (List.mem_map.mpr ⟨c, hc, rfl⟩)
  refine ⟨⟨fun id hid => ?_, fun c hc => ?_, (List.pairwise_append.mp h.distinct).2.1⟩, hturn⟩
  · obtain ⟨b, hb, rfl⟩ := h.live id ((howned id).mp hid).1
    exact ⟨b, hturn.keeps b hb hid, rfl⟩
  · have hw := h.whole_out hc
    refine hw.keeps hturn.keeps ((howned _).mpr ⟨hw.owned, fun hq => ?_⟩)
    -- a block with a client does not wait
    obtain ⟨d, hd, he⟩ := List.mem_map.mp hq
    exact (List.pairwise_append.mp h.distinct).2.2 d hd c hc he

theorem drain_ok {p : ObjectPool} {t : Tracker H} {ranges : List CarveOut}
    (h : t.Returnable (ranges.map CarveOut.block)) : (p.drain t ranges).1 = .ok () := by
  induction ranges generalizing p t with
  | nil => rfl
  | cons c ranges ih =>
    obtain ⟨b, hfree⟩ := Tracker.free_of_live (h.live c.block List.mem_cons_self)
    have htail := h.tail
    generalize (t.free c.block).2 = t' at hfree htail
    have hstep : p.drain t (c :: ranges) = (p.forget c).drain t' ranges := by
      simp only [drain, List.foldl_cons, hfree]
    rw [hstep]
    exact ih htail

/-- A reset is never refused. -/
theorem Sound.reset_ok (h : p.Sound t out) : (p.reset t).1 = .ok () :=
  drain_ok h.returnable

end TrackedHeap.ObjectPool
