import TrackedHeap.Proofs.Carver.Buddy
import TrackedHeap.Proofs.Ownership.Basic

/-!
# What clients have of a region of buddies

Every range in the hands of a client is a live chunk, and live chunks share no byte.
-/

namespace TrackedHeap.Buddy

variable {H : Type} {t t' : Tracker H} {b b' : Buddy} {out : List CarveOut}

/-- The block behind the region. -/
def backing (b : Buddy) : List Nat :=
  [b.base.id]

/-- The region lies in a live block, and what clients have are live chunks. -/
structure Sound (b : Buddy) (t : Tracker H) (out : List CarveOut) : Prop where
  coalesced : b.Coalesced
  base_mem : b.base ∈ t.blocks
  base_size : b.base.requestedSize = 2 ^ b.maxOrder
  block : ∀ c ∈ out, c.block = b.base
  chunk : ∀ c ∈ out, ∃ d ∈ b.live, c.span = d.extent
  enough : ∀ c ∈ out, c.requestedSize ≤ c.grantedSize
  apart : out.Pairwise CarveOut.Apart

namespace Sound

theorem owned (h : b.Sound t out) : Owned t b.backing out where
  live id hid := ⟨b.base, h.base_mem, (List.mem_singleton.mp hid).symm⟩
  mem c hc := h.block c hc ▸ h.base_mem
  backed c hc := by rw [h.block c hc]; exact List.mem_singleton_self _
  fits c hc := by
    obtain ⟨d, hd, hspan⟩ := h.chunk c hc
    have hin : d.offset + d.size ≤ 2 ^ b.maxOrder := Chunk.Coalesced.inside_live h.coalesced hd
    rw [h.block c hc, h.base_size]
    rw [CarveOut.span, Chunk.extent, Extent.mk.injEq] at hspan
    rwa [hspan.1, hspan.2]
  enough := h.enough
  apart := h.apart

theorem keeps (h : b.Sound t out) (hk : t.Keeps t' b.backing) : b.Sound t' out :=
  { h with base_mem := hk _ h.base_mem (List.mem_singleton_self _) }

theorem sublist {out' : List CarveOut} (h : b.Sound t out) (hs : out'.Sublist out) :
    b.Sound t out' where
  coalesced := h.coalesced
  base_mem := h.base_mem
  base_size := h.base_size
  block c hc := h.block c (hs.subset hc)
  chunk c hc := h.chunk c (hs.subset hc)
  enough c hc := h.enough c (hs.subset hc)
  apart := h.apart.sublist hs

end Sound

/-! ## Operations -/

/-- What a request that is granted does: a chunk of the least order that is large enough becomes live. -/
theorem exists_chunk_of_carve {size : Nat} {c : CarveOut} (h : b.carve size = (.ok c, b')) :
    ∃ d : Chunk, d.order = Chunk.orderFor size ∧ b'.live = d :: b.live ∧ c = b.carveOut d size ∧
      b'.base = b.base ∧ b'.maxOrder = b.maxOrder := by
  revert h
  fun_cases Buddy.carve b size
  case case3 hsize order e hfind chunk free hsplit =>
    intro h
    cases h
    refine ⟨chunk, ?_, rfl, rfl, rfl, rfl⟩
    have hle : order ≤ e.order := by simpa using List.find?_some hfind
    have hchunk := Chunk.order_split (e.order - order) e (b.free.erase e)
    rwa [hsplit, Nat.sub_sub_self hle] at hchunk
  all_goals exact fun h => by cases h

theorem carve_ok {size : Nat} {c : CarveOut} (h : b.carve size = (.ok c, b')) :
    ∃ d : Chunk, b'.live = d :: b.live ∧ c = b.carveOut d size ∧ size ≤ d.size ∧
      b'.base = b.base ∧ b'.maxOrder = b.maxOrder := by
  obtain ⟨d, horder, hlive, hc, hbase, hmax⟩ := exists_chunk_of_carve h
  exact ⟨d, hlive, hc, Chunk.orderFor_le_iff.mp (Nat.le_of_eq horder.symm), hbase, hmax⟩

theorem carve_error {size : Nat} {e : MemoryError} (h : b.carve size = (.error e, b')) : b' = b := by
  revert h
  fun_cases Buddy.carve b size
  case case3 => exact fun h => by cases h
  all_goals exact fun h => by cases h; rfl

theorem release_error {handle : CarveOut} {e : MemoryError}
    (h : b.release handle = (.error e, b')) : b' = b := by
  revert h
  fun_cases Buddy.release b handle
  case case3 => exact fun h => by cases h
  all_goals exact fun h => by cases h; rfl

theorem base_giveBack (cs : List Chunk) : (cs.foldl giveBack b).base = b.base := by
  induction cs generalizing b with
  | nil => rfl
  | cons c cs ih => exact ih

namespace Sound

theorem with_tally (h : b.Sound t out) (tally : Tally) : { b with tally }.Sound t out :=
  ⟨h.coalesced, h.base_mem, h.base_size, h.block, h.chunk, h.enough, h.apart⟩

theorem carve (h : b.Sound t out) (size : Nat) :
    (b.carve size).2.Sound t (CarveOut.taken (b.carve size).1 out) := by
  have hco := h.coalesced.carve size
  rcases hc : b.carve size with ⟨_ | c, b'⟩
  · rw [carve_error hc]
    exact h
  · obtain ⟨d, hlive, rfl, hsize, hbase, horder⟩ := carve_ok hc
    rw [hc] at hco
    have hpair := Chunk.Coalesced.apart_live hco
    rw [hlive] at hpair
    have hnew : ∀ e ∈ b.live, d.extent.Apart e.extent := (List.pairwise_cons.mp hpair).1
    refine ⟨hco, hbase ▸ h.base_mem, by rw [hbase, horder]; exact h.base_size, ?_, ?_, ?_, ?_⟩
    · refine List.forall_mem_cons.mpr ⟨hbase.symm, fun c hc => ?_⟩
      exact (h.block c hc).trans hbase.symm
    · rw [hlive]
      refine List.forall_mem_cons.mpr ⟨⟨d, List.mem_cons_self, rfl⟩, fun c hc => ?_⟩
      obtain ⟨e, he, hspan⟩ := h.chunk c hc
      exact ⟨e, List.mem_cons_of_mem _ he, hspan⟩
    · exact List.forall_mem_cons.mpr ⟨hsize, h.enough⟩
    · refine List.pairwise_cons.mpr ⟨fun c hc _ => ?_, h.apart⟩
      obtain ⟨e, he, hspan⟩ := h.chunk c hc
      rw [hspan]
      exact hnew e he

theorem allocate (h : b.Sound t out) (size : Nat) :
    (b.allocate size).2.Sound t (CarveOut.taken (b.allocate size).1 out) :=
  (h.carve size).with_tally _

theorem release (h : b.Sound t out) (handle : CarveOut) :
    (b.release handle).2.Sound t (CarveOut.returned (b.release handle).1 handle out) := by
  have hco := h.coalesced.release handle
  have hlive := mem_live_release h.coalesced handle
  obtain ⟨horder, hbase⟩ := b.release_fixed handle
  rcases hr : b.release handle with ⟨_ | u, b'⟩
  · rw [release_error hr]
    exact h
  · rw [hr] at hco hlive horder hbase
    have hsub := CarveOut.returned_sublist (.ok u) handle out
    refine ⟨hco, hbase ▸ h.base_mem, by rw [hbase, horder]; exact h.base_size, fun c hc => ?_,
      fun c hc => ?_, fun c hc => h.enough c (hsub.subset hc), h.apart.sublist hsub⟩
    · exact (h.block c (hsub.subset hc)).trans hbase.symm
    · obtain ⟨hc, hne⟩ := CarveOut.mem_returned_ok.mp hc
      obtain ⟨d, hd, hspan⟩ := h.chunk c hc
      refine ⟨d, (hlive d).mpr ⟨hd, fun hn => ?_⟩, hspan⟩
      -- the handle names the chunk of a range that the client still has
      refine hne ?_ ((congrArg Extent.start hspan).trans hn.2.symm)
      rw [h.block c hc, hn.1]

theorem reset (h : b.Sound t out) : b.reset.Sound t [] where
  coalesced := h.coalesced.reset
  base_mem := by
    rw [show b.reset.base = b.base from base_giveBack b.live]
    exact h.base_mem
  base_size := by
    rw [show b.reset.base = b.base from base_giveBack b.live,
      show b.reset.maxOrder = b.maxOrder from maxOrder_giveBack b.live]
    exact h.base_size
  block := by simp
  chunk := by simp
  enough := by simp
  apart := List.Pairwise.nil

end Sound

theorem backing_allocate (b : Buddy) (size : Nat) : (b.allocate size).2.backing = b.backing := by
  show (b.carve size).2.backing = b.backing
  fun_cases Buddy.carve b size <;> rfl

theorem backing_release (b : Buddy) (handle : CarveOut) :
    (b.release handle).2.backing = b.backing := by
  rw [backing, (b.release_fixed handle).2, backing]

theorem backing_reset (b : Buddy) : b.reset.backing = b.backing := by
  rw [backing, show b.reset.base = b.base from base_giveBack b.live, backing]

/-- A new region, behind which is a new block. -/
theorem sound_of_make [Heap H] {total : Nat} {alignment : Alignment}
    (hm : make t total alignment = (.ok b, t')) :
    b.Sound t' [] ∧ Tracker.Turnover t t' [] b.backing := by
  obtain ⟨hb, ha⟩ := make_ok hm
  obtain ⟨hblocks, -, -, hsize⟩ := Tracker.allocate_ok ha
  refine ⟨⟨?_, ?_, ?_, by simp, by simp, by simp, List.Pairwise.nil⟩,
    Tracker.turnover_allocate_ok ha []⟩
  · rw [hb]
    exact coalesced_ofBase _ _
  · rw [hblocks]
    exact List.mem_append_right _ (List.mem_singleton_self _)
  · rw [hsize, hb, Nat.one_shiftLeft]
    rfl

/-- A region that was refused leaves all blocks as they were. -/
theorem turnover_make_error [Heap H] {total : Nat} {alignment : Alignment} {e : MemoryError}
    (hm : make t total alignment = (.error e, t')) : Tracker.Turnover t t' [] [] := by
  revert hm
  fun_cases Buddy.make t total alignment
  case case3 ha =>
    intro hm
    obtain ⟨-, rfl⟩ := Prod.mk.inj hm
    exact Tracker.turnover_allocate_error ha []
  case case4 => exact fun hm => by cases hm
  all_goals exact fun hm => (Prod.mk.inj hm).2 ▸ .refl _ _

end TrackedHeap.Buddy
