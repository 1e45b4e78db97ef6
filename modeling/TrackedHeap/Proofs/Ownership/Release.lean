import TrackedHeap.Proofs.Ownership.Usage

/-!
# Which ranges a carver takes back

A carver takes back every range that a client has of it, and no range of a block that is not behind it. What
it refuses it refuses for the state of things. Each strategy knows its own ranges in a way of its own, by the
block, by the size and the cell, or by what waits; what all of them say of a handle is stated once (`Judges`).
A hybrid goes by the size that was asked for, which leads to the part that the range is of
(`Hybrid.Sound.release_ok`).
-/

namespace TrackedHeap

variable {H : Type} {t : Tracker H} {out : List CarveOut} {c handle : CarveOut}

/-- A handle that is taken back is of one of the blocks, and one that is refused is so for the state of
things. -/
def Judges (ids : List Nat) (handle : CarveOut) : Except MemoryError Unit → Prop
  | .ok () => handle.block.id ∈ ids
  | .error e => e.kind = .illegalState

theorem Judges.mono {ids ids' : List Nat} {answer : Except MemoryError Unit} (h : Judges ids handle answer)
    (hs : ∀ id ∈ ids, id ∈ ids') : Judges ids' handle answer := by
  cases answer with
  | ok => exact hs _ h
  | error => exact h

/-- Ranges in other blocks stay with clients. -/
theorem Judges.returned_eq {ids : List Nat} {answer : Except MemoryError Unit} (h : Judges ids handle answer)
    (hids : ∀ c ∈ out, c.block.id ∉ ids) : CarveOut.returned answer handle out = out := by
  cases answer with
  | ok =>
    refine List.filter_eq_self.mpr fun c hc => ?_
    have hother : ¬ c.sameStart handle = true := fun hs =>
      hids c hc ((CarveOut.sameStart_iff.mp hs).1 ▸ h)
    simpa using hother
  | error => rfl

theorem judges_requireOwned (handle : CarveOut) (base : Block) :
    Judges [base.id] handle (handle.requireOwned base) := by
  fun_cases CarveOut.requireOwned handle base
  case case1 howned => exact List.mem_singleton.mpr howned
  case case2 => rfl

/-! ## Each strategy -/

theorem Buddy.judges_release (b : Buddy) (handle : CarveOut) :
    Judges b.backing handle (b.release handle).1 := by
  have howned := judges_requireOwned handle b.base
  fun_cases Buddy.release b handle
  case case1 heq => rwa [heq] at howned
  case case2 => rfl
  case case3 heq _ _ => rwa [heq] at howned

theorem Buddy.Sound.release_ok {b : Buddy} (h : b.Sound t out) (hc : c ∈ out) :
    (b.release c).1 = .ok () := by
  obtain ⟨d, hd, hspan⟩ := h.chunk c hc
  have howned : c.requireOwned b.base = .ok () := CarveOut.requireOwned_eq_ok.mpr (by rw [h.block c hc])
  fun_cases Buddy.release b c
  case case1 heq => rw [howned] at heq; cases heq
  case case2 hnone =>
    have hstart : c.offset = d.offset := congrArg Extent.start hspan
    exact absurd hstart.symm (by simpa using List.find?_eq_none.mp hnone d hd)
  case case3 => rfl

theorem SlabCarver.judges_release (s : SlabCarver) (handle : CarveOut) :
    Judges s.backing handle (s.release handle).1 := by
  fun_cases SlabCarver.release s handle
  case case2 slab _ e heq =>
    have howned := judges_requireOwned handle slab.base
    rwa [heq] at howned
  case case4 slab hfind howned _ _ _ =>
    exact List.mem_map.mpr ⟨slab, (slabFor?_eq_some hfind).1, (CarveOut.requireOwned_eq_ok.mp howned).symm⟩
  all_goals rfl

/-- The size that was asked for leads to the slab of the range. -/
theorem SlabCarver.Sound.release_ok {s : SlabCarver} (h : s.Sound t out) (hx : s.Exact out) (hc : c ∈ out) :
    (s.release c).1 = .ok () := by
  obtain ⟨slab, hs, i, hi, hset, hblock, hspan⟩ := h.cell c hc
  have hcut := h.cut slab hs
  have hoffset : c.offset = i * slab.objectSize := congrArg Extent.start hspan
  have hsize : c.requestedSize = slab.objectSize := (hx.asked c hc).trans (congrArg Extent.size hspan)
  have hslab : s.slabFor? c.requestedSize = some slab := by
    cases hf : s.slabFor? c.requestedSize with
    | none => exact absurd hsize.symm (by simpa using List.find?_eq_none.mp hf slab hs)
    | some x =>
      obtain ⟨hm, he⟩ := slabFor?_eq_some hf
      rw [h.eq_of_size hm hs (he.trans hsize)]
  have howned : c.requireOwned slab.base = .ok () := CarveOut.requireOwned_eq_ok.mpr (by rw [hblock])
  have hcell : c.offset / slab.objectSize = i := by rw [hoffset, Nat.mul_div_cancel i hcut.object_pos]
  have hmod : c.offset % slab.objectSize = 0 := by rw [hoffset, Nat.mul_mod_left]
  have hplace : ¬ (c.offset % slab.objectSize ≠ 0 ∨ slab.cells ≤ i) := by omega
  unfold SlabCarver.release
  simp only [hslab, howned, hcell, if_neg hplace, hset, if_true]

theorem Arena.judges_release (a : Arena) (handle : CarveOut) :
    Judges a.backing handle (a.release handle).1 := by
  fun_cases Arena.release a handle
  case case1 hany =>
    obtain ⟨b, hb, he⟩ := List.any_eq_true.mp hany
    exact List.mem_map.mpr ⟨b, hb, beq_iff_eq.mp he⟩
  case case2 => rfl

theorem Arena.Sound.release_ok {a : Arena} (h : a.Sound t out) (hc : c ∈ out) :
    (a.release c).1 = .ok () := by
  have hany : (a.blocks.any fun b => b.id == c.block.id) = true :=
    List.any_eq_true.mpr ⟨c.block, h.block c hc, beq_self_eq_true _⟩
  rw [Arena.release, if_pos hany]

theorem RingBuffer.Sound.release_ok {r : RingBuffer} (h : r.Sound t out) (hc : c ∈ out) :
    (r.release c).1 = .ok () :=
  CarveOut.requireOwned_eq_ok.mpr (congrArg Block.id (h.block c hc))

theorem ObjectPool.judges_release (p : ObjectPool) (t : Tracker H) (handle : CarveOut) :
    Judges p.owned handle (p.release t handle).1 := by
  fun_cases ObjectPool.release p t handle
  case case5 id howned hsize hlive hholds =>
    have hown : id ∈ p.owned := Decidable.not_not.mp (not_or.mp howned).2
    exact hown
  all_goals rfl

/-- A block that a client has is live and does not wait. -/
theorem ObjectPool.Sound.release_ok {p : ObjectPool} (h : p.Sound t out) (hc : c ∈ out) :
    (p.release t c).1 = .ok () := by
  have hw := h.whole_out hc
  have hlive : t.isLive c.block = true :=
    List.find?_isSome.mpr ⟨c.block, hw.block_mem, beq_self_eq_true _⟩
  have hfree : p.holds c = false := Bool.eq_false_iff.mpr fun hq => by
    obtain ⟨d, hd, he⟩ := List.any_eq_true.mp hq
    exact (List.pairwise_append.mp h.distinct).2.2 d (List.mem_filter.mp hd).1 c hc (beq_iff_eq.mp he)
  fun_cases ObjectPool.release p t c
  case case1 id hforeign => exact absurd hforeign (by simp [hw.offset_eq, hw.owned, id])
  case case2 hsize => exact absurd hw.requested_eq hsize
  case case3 hdead => simp [hlive] at hdead
  case case4 hholds => simp [hfree] at hholds
  case case5 => rfl

/-! ## Hybrids -/

theorem Hybrid.judges_release (h : Hybrid) (handle : CarveOut) :
    Judges (h.backingOf (Tier.ofSize handle.requestedSize)) handle (h.release handle).1 := by
  have hsmall := h.small.judges_release handle
  have hmedium := h.medium.judges_release handle
  have hlarge := h.large.judges_release handle
  fun_cases Hybrid.release h handle
  case case1 htier _ _ hpart =>
    rw [hpart] at hsmall
    rwa [htier]
  case case2 htier _ _ hpart =>
    rw [hpart] at hmedium
    rwa [htier]
  case case3 htier _ _ hpart =>
    rw [hpart] at hlarge
    rwa [htier]

namespace Hybrid

variable {h h' : Hybrid}

/-- Every part agrees with the ranges of its tier. -/
structure Exact (h : Hybrid) (out : List CarveOut) : Prop where
  small : h.small.Exact (ofTier .small out)
  medium : h.medium.Exact (ofTier .medium out)
  large : h.large.Exact (ofTier .large out)

/-- The size that was asked for leads to the part of the range. -/
theorem Sound.release_ok (hs : h.Sound t out) (hx : h.Exact out) (hc : c ∈ out) :
    c.block.id ∈ h.backingOf (Tier.ofSize c.requestedSize) ∧ (h.release c).1 = .ok () := by
  have hpart {tier : Tier} (ht : Tier.ofSize c.requestedSize = tier) : c ∈ ofTier tier out :=
    mem_ofTier.mpr ⟨hc, ht⟩
  refine ⟨(hs.part _).owned.backed c (hpart rfl), ?_⟩
  cases htier : Tier.ofSize c.requestedSize with
  | small =>
    rw [release_small htier]
    exact SlabCarver.Sound.release_ok (hs.part .small) hx.small (hpart htier)
  | medium =>
    rw [release_medium htier]
    exact Buddy.Sound.release_ok (hs.part .medium) (hpart htier)
  | large =>
    have hlarge := Arena.Sound.release_ok (hs.part .large) (hpart htier)
    simp only [Hybrid.release, htier]
    exact hlarge

end Hybrid

end TrackedHeap
