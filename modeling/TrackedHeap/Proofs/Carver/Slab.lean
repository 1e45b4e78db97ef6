import Mathlib.Algebra.Order.BigOperators.Group.List
import Mathlib.Algebra.Order.Group.Nat
import TrackedHeap.Proofs.Carver.Construction

/-!
# The bytes of slabs

What counts as allocated are the bytes of the cells that are taken, whatever handles come back and whatever
happens to the blocks behind the slabs (`SlabCarver.Counted`). So no more is allocated than is reserved for
slabs, and no more than there is (`SlabCarver.Counted.allocated_le`).
-/

namespace TrackedHeap

/-- The bytes of the cells that are taken. -/
def Slab.bytes (slab : Slab) : Nat :=
  slab.occupancy.taken.card * slab.objectSize

namespace Slab.Cut

variable {slab : Slab} {size i : Nat}

/-- The cells do not take more than the block has. -/
theorem bytes_le (h : slab.Cut size) : slab.bytes ≤ size := by
  have hcard := slab.occupancy.card_taken_le
  rw [h.len_eq, h.cells_eq] at hcard
  exact Nat.le_trans (Nat.mul_le_mul_right _ hcard) (Nat.div_mul_le_self _ _)

/-- One more cell is taken. -/
theorem bytes_set (h : slab.Cut size) (hi : i < slab.occupancy.len) (hclear : slab.occupancy.isSet i = false) :
    ({ slab with occupancy := slab.occupancy.set i } : Slab).bytes = slab.bytes + slab.objectSize := by
  have hnot : i ∉ slab.occupancy.taken := fun hm => by
    rw [Occupancy.mem_taken, hclear] at hm
    cases hm.2
  rw [bytes, Occupancy.taken_set h.fits hi, Finset.card_insert_of_notMem hnot, Nat.succ_mul]
  rfl

/-- One cell is taken no longer. -/
theorem bytes_clear (h : slab.Cut size) (hi : i < slab.occupancy.len) (hset : slab.occupancy.isSet i = true) :
    ({ slab with occupancy := slab.occupancy.clear i } : Slab).bytes + slab.objectSize = slab.bytes := by
  have hm : i ∈ slab.occupancy.taken := Occupancy.mem_taken.mpr ⟨hi, hset⟩
  rw [bytes, Occupancy.taken_clear h.fits hi, ← Nat.succ_mul, Nat.succ_eq_add_one,
    Finset.card_erase_add_one hm]
  rfl

end Slab.Cut

namespace SlabCarver

variable {s s' : SlabCarver}

/-- Slabs of different sizes are cut out of the capacity, and what counts as allocated are the bytes of the cells
that are taken. -/
structure Counted (s : SlabCarver) : Prop where
  cut : ∀ slab ∈ s.slabs, slab.Cut s.slabSize
  sizes : s.slabs.Pairwise fun x y => x.objectSize ≠ y.objectSize
  allocated_eq : s.allocated = (s.slabs.map Slab.bytes).sum
  reserved_eq : s.reserved = s.slabs.length * s.slabSize
  reserved_le : s.reserved ≤ s.total

/-- A carver without slabs. -/
theorem counted_nil (hslabs : s.slabs = []) (hallocated : s.allocated = 0) (hreserved : s.reserved = 0) :
    s.Counted where
  cut := by simp [hslabs]
  sizes := hslabs ▸ List.Pairwise.nil
  allocated_eq := by simp [hslabs, hallocated]
  reserved_eq := by simp [hslabs, hreserved]
  reserved_le := hreserved ▸ Nat.zero_le _

/-- A change of one slab changes the sum by what it changes of that slab. -/
theorem sum_update {slabs : List Slab} {slab : Slab} (f : Slab → Slab)
    (hs : slabs.Pairwise fun x y => x.objectSize ≠ y.objectSize) (hm : slab ∈ slabs) :
    ((slabs.map fun x => if x.objectSize = slab.objectSize then f x else x).map Slab.bytes).sum + slab.bytes =
      (slabs.map Slab.bytes).sum + (f slab).bytes := by
  induction slabs with
  | nil => exact absurd hm List.not_mem_nil
  | cons x xs ih =>
    obtain ⟨hx, hxs⟩ := List.pairwise_cons.mp hs
    rcases List.mem_cons.mp hm with rfl | hm
    · -- the other slabs are of other sizes
      have hrest : xs.map (fun y => if y.objectSize = slab.objectSize then f y else y) = xs :=
        (List.map_congr_left fun y hy => if_neg (hx y hy).symm).trans (List.map_id xs)
      simp only [List.map_cons, List.sum_cons, if_true, hrest]
      omega
    · have htail := ih hxs hm
      simp only [List.map_cons, List.sum_cons, if_neg (hx slab hm)]
      omega

namespace Counted

theorem allocated_le (h : s.Counted) : s.allocated ≤ s.total := by
  have hslab : ∀ n ∈ s.slabs.map Slab.bytes, n ≤ s.slabSize :=
    List.forall_mem_map.mpr fun slab hs => (h.cut slab hs).bytes_le
  have hsum := List.sum_le_card_nsmul _ _ hslab
  rw [List.length_map, Nat.nsmul_eq_mul, ← h.reserved_eq, ← h.allocated_eq] at hsum
  exact Nat.le_trans hsum h.reserved_le

theorem with_tally (h : s.Counted) (tally : Tally) : { s with tally }.Counted :=
  ⟨h.cut, h.sizes, h.allocated_eq, h.reserved_eq, h.reserved_le⟩

/-- The bits of one slab have changed, and the count with them. -/
theorem rebit (h : s.Counted) {slab : Slab} {g : Occupancy → Occupancy} (hr : Rebit s s' slab g)
    (hs : slab ∈ s.slabs) (htotal : s'.total = s.total) (hreserved : s'.reserved = s.reserved)
    (hcount : s'.allocated + slab.bytes =
      s.allocated + ({ slab with occupancy := g slab.occupancy } : Slab).bytes) : s'.Counted where
  cut := hr.cut h.cut h.sizes hs
  sizes := hr.sizes h.sizes
  allocated_eq := by
    have hsum := sum_update (fun x => { x with occupancy := g x.occupancy }) h.sizes hs
    rw [hr.slabs_eq, update]
    rw [h.allocated_eq] at hcount
    omega
  reserved_eq := by
    rw [hreserved, hr.slabs_eq, update, List.length_map, hr.size_eq]
    exact h.reserved_eq
  reserved_le := by
    rw [hreserved, htotal]
    exact h.reserved_le

/-! ## Operations -/

theorem carveFrom (h : s.Counted) {slab : Slab} (hs : slab ∈ s.slabs) : (s.carveFrom slab).2.Counted := by
  fun_cases SlabCarver.carveFrom s slab
  case case1 => exact h
  case case2 index hclear =>
    have hcut := h.cut slab hs
    obtain ⟨hlt, hoff⟩ := Occupancy.isSet_firstClear hclear
    have hr : Rebit s (s.grant slab index).2 slab fun o => o.set index :=
      ⟨rfl, rfl, rfl, hcut.fits.set index⟩
    refine h.rebit hr hs rfl rfl ?_
    show s.allocated + slab.objectSize + slab.bytes = _
    rw [hcut.bytes_set hlt hoff]
    omega

theorem release (h : s.Counted) (handle : CarveOut) : (s.release handle).2.Counted := by
  fun_cases SlabCarver.release s handle
  case case4 slab hfind howned index hcell hset =>
    have hs := (slabFor?_eq_some hfind).1
    have hcut := h.cut slab hs
    have hlt : index < slab.occupancy.len := by
      rw [hcut.len_eq]
      exact Nat.lt_of_not_le (not_or.mp hcell).2
    have hbytes := hcut.bytes_clear hlt hset
    have hle : slab.bytes ≤ s.allocated := by
      rw [h.allocated_eq]
      exact List.le_sum_of_mem (List.mem_map_of_mem hs)
    refine h.rebit (g := fun o => o.clear index) ⟨rfl, rfl, rfl, hcut.fits.clear index⟩ hs rfl rfl ?_
    show s.allocated - slab.objectSize + slab.bytes = _
    omega
  all_goals exact h

variable {H : Type} [Heap H] {t t' : Tracker H}

theorem newSlab (h : s.Counted) {size : Nat} {slab : Slab} (hsize : ¬ size = 0)
    (hnone : s.slabFor? size = none) (hnew : s.newSlab t size = (.ok slab, s', t')) :
    s'.Counted ∧ slab ∈ s'.slabs := by
  revert hnew
  fun_cases SlabCarver.newSlab s t size
  case case4 cells hcells hroom base t₁ ha new =>
    intro hnew
    obtain ⟨hslab, hrest⟩ := Prod.mk.inj hnew
    obtain ⟨rfl, -⟩ := Prod.mk.inj hrest
    obtain rfl := Except.ok.inj hslab
    refine ⟨⟨?_, ?_, ?_, ?_, Nat.le_of_not_lt hroom⟩, List.mem_append_right _ (List.mem_singleton_self _)⟩
    · refine List.forall_mem_append.mpr ⟨h.cut, fun x hx => ?_⟩
      obtain rfl := List.mem_singleton.mp hx
      exact ⟨(Tracker.allocate_ok ha).2.2.2, Nat.pos_of_ne_zero hsize, rfl, rfl, Occupancy.fits_empty _⟩
    · refine List.pairwise_append.mpr ⟨h.sizes, List.pairwise_singleton .., fun x hx y hy => ?_⟩
      obtain rfl := List.mem_singleton.mp hy
      simpa using List.find?_eq_none.mp hnone x hx
    · have hempty : new.bytes = 0 := by
        show (Occupancy.empty cells).taken.card * size = 0
        rw [Occupancy.taken_empty, Finset.card_empty, Nat.zero_mul]
      rw [List.map_append, List.sum_append, List.map_singleton, List.sum_singleton, hempty]
      exact h.allocated_eq
    · rw [List.length_append, List.length_singleton, Nat.succ_mul, h.reserved_eq]
  all_goals exact fun hnew => by cases hnew

theorem carve (h : s.Counted) (t : Tracker H) (size : Nat) : (s.carve t size).2.1.Counted := by
  fun_cases SlabCarver.carve s t size
  case case1 => exact h
  case case2 hsize slab hfind result s₁ hcarve =>
    have hfrom := h.carveFrom (slabFor?_eq_some hfind).1
    rwa [hcarve] at hfrom
  case case3 hnew => rwa [(newSlab_refused hnew).1]
  case case4 hsize hnone slab s₁ t₁ hnew result s₂ hcarve =>
    obtain ⟨hs₁, hmem⟩ := h.newSlab hsize hnone hnew
    have hfrom := hs₁.carveFrom hmem
    rwa [hcarve] at hfrom

theorem allocate (h : s.Counted) (t : Tracker H) (size : Nat) : (s.allocate t size).2.1.Counted :=
  (h.carve t size).with_tally _

end Counted

/-- After a reset there are no slabs. -/
theorem counted_reset {H : Type} [Heap H] (s : SlabCarver) (t : Tracker H) : (s.reset t).1.Counted :=
  counted_nil rfl rfl rfl

theorem counted_of_make {total : Nat} {alignment : Alignment} (hm : make total alignment = .ok s) : s.Counted := by
  rw [make_ok hm]
  exact counted_nil rfl rfl rfl

end SlabCarver

end TrackedHeap
