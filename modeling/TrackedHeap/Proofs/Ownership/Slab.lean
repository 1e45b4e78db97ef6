import TrackedHeap.Carver.Slab
import TrackedHeap.Proofs.Carver.Occupancy
import TrackedHeap.Proofs.Ownership.Basic

/-!
# What clients have of slabs

Every range in the hands of a client is a cell whose bit is set. A request takes a cell whose bit is clear,
so two clients never have one cell.
-/

namespace TrackedHeap

/-- The slab is cut out of a block of `size` bytes. -/
structure Slab.Cut (slab : Slab) (size : Nat) : Prop where
  base_size : slab.base.requestedSize = size
  object_pos : 0 < slab.objectSize
  cells_eq : slab.cells = size / slab.objectSize
  len_eq : slab.occupancy.len = slab.cells
  fits : slab.occupancy.Fits

namespace SlabCarver

variable {H : Type} {t t' : Tracker H} {s s' : SlabCarver} {out : List CarveOut}

/-- The blocks behind the slabs. -/
def backing (s : SlabCarver) : List Nat :=
  s.slabs.map fun slab => slab.base.id

/-- The range is a cell whose bit is set. -/
def HasCell (s : SlabCarver) (c : CarveOut) : Prop :=
  ∃ slab ∈ s.slabs, ∃ i < slab.cells, slab.occupancy.isSet i = true ∧ c.block = slab.base ∧
    c.span = ⟨i * slab.objectSize, slab.objectSize⟩

/-- Every slab is cut out of a live block of its own, and what clients have are cells whose bits are
set. -/
structure Sound (s : SlabCarver) (t : Tracker H) (out : List CarveOut) : Prop where
  cut : ∀ slab ∈ s.slabs, slab.Cut s.slabSize
  base_mem : ∀ slab ∈ s.slabs, slab.base ∈ t.blocks
  sizes : s.slabs.Pairwise fun x y => x.objectSize ≠ y.objectSize
  bases : s.backing.Nodup
  cell : ∀ c ∈ out, s.HasCell c
  enough : ∀ c ∈ out, c.requestedSize ≤ c.grantedSize
  apart : out.Pairwise CarveOut.Apart

/-- Cells of one size at different places share no byte. -/
theorem cells_apart {i j size : Nat} (h : i ≠ j) :
    Extent.Apart ⟨i * size, size⟩ ⟨j * size, size⟩ := by
  rcases Nat.lt_or_gt_of_ne h with hlt | hlt
  · exact .inl (by rw [← Nat.succ_mul]; exact Nat.mul_le_mul_right size hlt)
  · exact .inr (by rw [← Nat.succ_mul]; exact Nat.mul_le_mul_right size hlt)

/-- Of every size there is one slab. -/
theorem eq_of_objectSize {slabs : List Slab} (h : slabs.Pairwise fun x y => x.objectSize ≠ y.objectSize)
    {x y : Slab} (hx : x ∈ slabs) (hy : y ∈ slabs) (he : x.objectSize = y.objectSize) : x = y := by
  by_contra hne
  have : Std.Symm fun x y : Slab => x.objectSize ≠ y.objectSize := ⟨fun _ _ => Ne.symm⟩
  exact h.forall hx hy hne he

namespace Sound

theorem eq_of_size (h : s.Sound t out) {x y : Slab} (hx : x ∈ s.slabs) (hy : y ∈ s.slabs)
    (he : x.objectSize = y.objectSize) : x = y :=
  eq_of_objectSize h.sizes hx hy he

theorem eq_of_base (h : s.Sound t out) {x y : Slab} (hx : x ∈ s.slabs) (hy : y ∈ s.slabs)
    (he : x.base.id = y.base.id) : x = y :=
  List.inj_on_of_nodup_map h.bases hx hy he

theorem owned (h : s.Sound t out) : Owned t s.backing out where
  live id hid := by
    obtain ⟨slab, hs, rfl⟩ := List.mem_map.mp hid
    exact ⟨slab.base, h.base_mem slab hs, rfl⟩
  mem c hc := by
    obtain ⟨slab, hs, i, -, -, hb, -⟩ := h.cell c hc
    exact hb ▸ h.base_mem slab hs
  backed c hc := by
    obtain ⟨slab, hs, i, -, -, hb, -⟩ := h.cell c hc
    exact List.mem_map.mpr ⟨slab, hs, by rw [hb]⟩
  fits c hc := by
    obtain ⟨slab, hs, i, hi, -, hb, hspan⟩ := h.cell c hc
    have hcut := h.cut slab hs
    rw [CarveOut.span, Extent.mk.injEq] at hspan
    rw [hb, hcut.base_size, hspan.1, hspan.2, ← Nat.succ_mul]
    rw [hcut.cells_eq] at hi
    exact Nat.le_trans (Nat.mul_le_mul_right _ hi) (Nat.div_mul_le_self _ _)
  enough := h.enough
  apart := h.apart

theorem keeps (h : s.Sound t out) (hk : t.Keeps t' s.backing) : s.Sound t' out :=
  { h with base_mem := fun slab hs => hk _ (h.base_mem slab hs) (List.mem_map_of_mem hs) }

theorem sublist {out' : List CarveOut} (h : s.Sound t out) (hs : out'.Sublist out) :
    s.Sound t out' where
  cut := h.cut
  base_mem := h.base_mem
  sizes := h.sizes
  bases := h.bases
  cell c hc := h.cell c (hs.subset hc)
  enough c hc := h.enough c (hs.subset hc)
  apart := h.apart.sublist hs

end Sound

/-- No slabs, and nothing with clients. -/
theorem sound_nil (t : Tracker H) (hs : s.slabs = []) : s.Sound t [] where
  cut := by simp [hs]
  base_mem := by simp [hs]
  sizes := hs ▸ List.Pairwise.nil
  bases := by simp [backing, hs]
  cell := by simp
  enough := by simp
  apart := List.Pairwise.nil

theorem make_ok {total : Nat} {alignment : Alignment} (hm : make total alignment = .ok s) :
    s = { alignment, total, slabSize := slabSizeFor total } := by
  unfold make at hm
  split at hm <;> cases hm
  rfl

theorem slabs_of_make {total : Nat} {alignment : Alignment} (hm : make total alignment = .ok s) :
    s.slabs = [] := by
  rw [make_ok hm]

/-! ## Bits of a slab -/

theorem mem_update {size : Nat} {f : Slab → Slab} {slab : Slab} :
    slab ∈ s.update size f ↔
      ∃ x ∈ s.slabs, (if x.objectSize = size then f x else x) = slab :=
  List.mem_map

theorem mem_update_self {f : Slab → Slab} {slab : Slab} (hs : slab ∈ s.slabs) :
    f slab ∈ s.update slab.objectSize f :=
  mem_update.mpr ⟨slab, hs, if_pos rfl⟩

theorem mem_update_other {f : Slab → Slab} {slab : Slab} (hs : slab ∈ s.slabs) {size : Nat}
    (hne : slab.objectSize ≠ size) : slab ∈ s.update size f :=
  mem_update.mpr ⟨slab, hs, if_neg hne⟩

theorem slabFor?_eq_some {size : Nat} {slab : Slab} (h : s.slabFor? size = some slab) :
    slab ∈ s.slabs ∧ slab.objectSize = size :=
  ⟨List.mem_of_find?_eq_some h, by simpa using List.find?_some h⟩

/-- The slabs after the bits of one have changed. -/
structure Rebit (s s' : SlabCarver) (slab : Slab) (g : Occupancy → Occupancy) : Prop where
  slabs_eq : s'.slabs = s.update slab.objectSize fun x => { x with occupancy := g x.occupancy }
  size_eq : s'.slabSize = s.slabSize
  len_eq : (g slab.occupancy).len = slab.occupancy.len
  fits : (g slab.occupancy).Fits

namespace Rebit

variable {slab : Slab} {g : Occupancy → Occupancy}

theorem backing_eq (hr : Rebit s s' slab g) : s'.backing = s.backing := by
  rw [backing, hr.slabs_eq, update, List.map_map, backing]
  refine List.map_congr_left fun x _ => ?_
  simp only [Function.comp]
  split <;> rfl

/-- The slabs are cut as before. -/
theorem cut (hr : Rebit s s' slab g) (hcut : ∀ slab ∈ s.slabs, slab.Cut s.slabSize)
    (hsizes : s.slabs.Pairwise fun x y => x.objectSize ≠ y.objectSize) (hs : slab ∈ s.slabs) :
    ∀ slab ∈ s'.slabs, slab.Cut s'.slabSize := by
  intro y hy
  rw [hr.slabs_eq, mem_update] at hy
  obtain ⟨x, hx, rfl⟩ := hy
  have hold := hcut x hx
  rw [hr.size_eq]
  split
  · next hxs =>
    obtain rfl := eq_of_objectSize hsizes hx hs hxs
    exact ⟨hold.base_size, hold.object_pos, hold.cells_eq, hr.len_eq.trans hold.len_eq, hr.fits⟩
  · exact hold

theorem sizes (hr : Rebit s s' slab g) (hsizes : s.slabs.Pairwise fun x y => x.objectSize ≠ y.objectSize) :
    s'.slabs.Pairwise fun x y => x.objectSize ≠ y.objectSize := by
  rw [hr.slabs_eq, update, List.pairwise_map]
  refine hsizes.imp fun hne => ?_
  split <;> split <;> exact hne

/-- A range in a cell whose bit is set still or now. -/
theorem hasCell (hr : Rebit s s' slab g) (h : s.Sound t out) (hs : slab ∈ s.slabs) {c : CarveOut}
    {x : Slab} (hx : x ∈ s.slabs) {i : Nat} (hi : i < x.cells)
    (hset : x = slab → (g slab.occupancy).isSet i = true)
    (hother : x ≠ slab → x.occupancy.isSet i = true) (hb : c.block = x.base)
    (hspan : c.span = ⟨i * x.objectSize, x.objectSize⟩) : s'.HasCell c := by
  by_cases hxs : x = slab
  · obtain rfl := hxs
    refine ⟨{ x with occupancy := g x.occupancy }, ?_, i, hi, hset rfl, hb, hspan⟩
    rw [hr.slabs_eq]
    exact mem_update_self (f := fun x => { x with occupancy := g x.occupancy }) hx
  · refine ⟨x, ?_, i, hi, hother hxs, hb, hspan⟩
    rw [hr.slabs_eq]
    exact mem_update_other hx fun he => hxs (h.eq_of_size hx hs he)

/-- The slabs stay sound for clients whose ranges are cells with bits that are set then. -/
theorem sound (hr : Rebit s s' slab g) (h : s.Sound t out) (hs : slab ∈ s.slabs)
    {out' : List CarveOut} (hcell : ∀ c ∈ out', s'.HasCell c)
    (henough : ∀ c ∈ out', c.requestedSize ≤ c.grantedSize)
    (hapart : out'.Pairwise CarveOut.Apart) : s'.Sound t out' := by
  refine ⟨hr.cut h.cut h.sizes hs, fun y hy => ?_, hr.sizes h.sizes, hr.backing_eq ▸ h.bases, hcell,
    henough, hapart⟩
  rw [hr.slabs_eq, mem_update] at hy
  obtain ⟨x, hx, rfl⟩ := hy
  split <;> exact h.base_mem x hx

end Rebit

/-! ## Operations -/

namespace Sound

theorem with_tally (h : s.Sound t out) (tally : Tally) : { s with tally }.Sound t out :=
  ⟨h.cut, h.base_mem, h.sizes, h.bases, h.cell, h.enough, h.apart⟩

/-- A request takes a cell that no client has. -/
theorem carveFrom (h : s.Sound t out) {slab : Slab} (hs : slab ∈ s.slabs) :
    (s.carveFrom slab).2.Sound t (CarveOut.taken (s.carveFrom slab).1 out) ∧
      (s.carveFrom slab).2.backing = s.backing := by
  fun_cases SlabCarver.carveFrom s slab
  case case1 => exact ⟨h, rfl⟩
  case case2 index hclear =>
    have hcut := h.cut slab hs
    obtain ⟨hlt, hoff⟩ := Occupancy.isSet_firstClear hclear
    have hbit := Occupancy.isSet_set hcut.fits hlt
    have hr : Rebit s (s.grant slab index).2 slab fun o => o.set index :=
      ⟨rfl, rfl, rfl, hcut.fits.set index⟩
    have hlt' : index < slab.cells := hcut.len_eq ▸ hlt
    refine ⟨hr.sound h hs ?_ ?_ ?_, hr.backing_eq⟩
    · refine List.forall_mem_cons.mpr ⟨?_, fun c hc => ?_⟩
      · exact hr.hasCell h hs hs hlt' (fun _ => by simp [hbit]) (fun hne => absurd rfl hne) rfl rfl
      · obtain ⟨x, hx, i, hi, hset, hb, hspan⟩ := h.cell c hc
        refine hr.hasCell h hs hx hi (fun he => ?_) (fun _ => hset) hb hspan
        rw [← he] at hbit ⊢
        simp [hbit, hset]
    · exact List.forall_mem_cons.mpr ⟨Nat.le_refl _, h.enough⟩
    · refine List.pairwise_cons.mpr ⟨fun c hc hid => ?_, h.apart⟩
      obtain ⟨x, hx, i, hi, hset, hb, hspan⟩ := h.cell c hc
      obtain rfl : slab = x := h.eq_of_base hs hx (hid.trans (congrArg Block.id hb))
      rw [hspan]
      refine cells_apart fun he => ?_
      rw [he, hset] at hoff
      cases hoff

/-- A cell that a handle names comes back. -/
theorem release (h : s.Sound t out) (handle : CarveOut) :
    (s.release handle).2.Sound t (CarveOut.returned (s.release handle).1 handle out) ∧
      (s.release handle).2.backing = s.backing := by
  fun_cases SlabCarver.release s handle
  case case4 slab hfind howned index hcell hset =>
    obtain ⟨hs, -⟩ := slabFor?_eq_some hfind
    have hid := CarveOut.requireOwned_eq_ok.mp howned
    have hcut := h.cut slab hs
    obtain ⟨hmod, hlt⟩ := not_or.mp hcell
    have hlt : index < slab.occupancy.len := by rw [hcut.len_eq]; omega
    have hplace : index * slab.objectSize = handle.offset :=
      Nat.div_mul_cancel (Nat.dvd_of_mod_eq_zero (Decidable.not_not.mp hmod))
    have hbit := Occupancy.isSet_clear hcut.fits hlt
    have hr : Rebit s
        { s with
          slabs := s.update slab.objectSize fun x => { x with occupancy := x.occupancy.clear index }
          allocated := s.allocated - slab.objectSize
          tally := s.tally.returned } slab fun o => o.clear index :=
      ⟨rfl, rfl, rfl, hcut.fits.clear index⟩
    have hsub := CarveOut.returned_sublist (.ok ()) handle out
    refine ⟨hr.sound h hs (fun c hc => ?_) (fun c hc => h.enough c (hsub.subset hc))
      (h.apart.sublist hsub), hr.backing_eq⟩
    obtain ⟨hc, hne⟩ := CarveOut.mem_returned_ok.mp hc
    obtain ⟨x, hx, i, hi, hxset, hb, hspan⟩ := h.cell c hc
    refine hr.hasCell h hs hx hi (fun he => ?_) (fun _ => hxset) hb hspan
    -- the cell is another one of the slab, because it starts elsewhere
    have hdiff : index ≠ i := by
      rintro rfl
      refine hne (by rw [hb, he, hid]) ?_
      rw [show c.offset = index * x.objectSize from congrArg Extent.start hspan, he, hplace]
    rw [he] at hxset
    simp [hbit, hdiff, hxset]
  all_goals exact ⟨h, rfl⟩

end Sound

variable [Heap H]

/-- A new slab, in a new block. -/
theorem newSlab_ok {size : Nat} {slab : Slab} (h : s.Sound t out) (hn : t.Numbered) (hsize : ¬ size = 0)
    (hnone : s.slabFor? size = none) (hnew : s.newSlab t size = (.ok slab, s', t')) :
    s'.Sound t' out ∧ slab ∈ s'.slabs ∧ Tracker.Turnover t t' s.backing s'.backing := by
  revert hnew
  fun_cases SlabCarver.newSlab s t size
  case case4 cells hcells hroom base t₁ ha newSlab =>
    intro hnew
    obtain ⟨hslab, hrest⟩ := Prod.mk.inj hnew
    obtain ⟨hs', ht'⟩ := Prod.mk.inj hrest
    obtain rfl := Except.ok.inj hslab
    subst hs' ht'
    obtain ⟨hblocks, -, hid, hreq⟩ := Tracker.allocate_ok ha
    have hturn := Tracker.turnover_allocate_ok ha s.backing
    have hold : ∀ x ∈ s.slabs, x.base ∈ t₁.blocks := fun x hx => by
      rw [hblocks]
      exact List.mem_append_left _ (h.base_mem x hx)
    have hbacking : (s.slabs ++ [newSlab]).map (fun slab => slab.base.id) = s.backing ++ [base.id] :=
      List.map_append
    refine ⟨⟨?_, ?_, ?_, ?_, fun c hc => ?_, h.enough, h.apart⟩, List.mem_append_right _ (by simp), ?_⟩
    · refine List.forall_mem_append.mpr ⟨h.cut, fun x hx => ?_⟩
      obtain rfl := List.mem_singleton.mp hx
      exact ⟨hreq, Nat.pos_of_ne_zero hsize, rfl, rfl, Occupancy.fits_empty _⟩
    · refine List.forall_mem_append.mpr ⟨hold, fun x hx => ?_⟩
      obtain rfl := List.mem_singleton.mp hx
      rw [hblocks]
      exact List.mem_append_right _ (List.mem_singleton_self _)
    · refine List.pairwise_append.mpr ⟨h.sizes, List.pairwise_singleton .., fun x hx y hy => ?_⟩
      obtain rfl := List.mem_singleton.mp hy
      simpa using List.find?_eq_none.mp hnone x hx
    · show ((s.slabs ++ [newSlab]).map fun slab => slab.base.id).Nodup
      rw [hbacking]
      refine List.nodup_append.mpr ⟨h.bases, List.nodup_singleton _, fun id hm id' hm' => ?_⟩
      obtain ⟨x, hx, rfl⟩ := List.mem_map.mp hm
      rw [List.mem_singleton.mp hm']
      exact hn.ne_of_allocate ha (h.base_mem x hx)
    · obtain ⟨x, hx, rest⟩ := h.cell c hc
      exact ⟨x, List.mem_append_left _ hx, rest⟩
    · refine hturn.congr (fun _ => Iff.rfl) fun id => ?_
      show id ∈ base.id :: s.backing ↔ id ∈ (s.slabs ++ [newSlab]).map fun slab => slab.base.id
      rw [hbacking, List.mem_append, List.mem_cons, List.mem_singleton, or_comm]
  all_goals exact fun hnew => by cases hnew

theorem newSlab_error {size : Nat} {e : MemoryError} (h : s.Sound t out)
    (hnew : s.newSlab t size = (.error e, s', t')) :
    s'.Sound t' out ∧ Tracker.Turnover t t' s.backing s'.backing := by
  revert hnew
  fun_cases SlabCarver.newSlab s t size
  case case3 cells hcells hroom e' t₁ ha =>
    intro hnew
    cases hnew
    have hturn := Tracker.turnover_allocate_error ha s.backing
    exact ⟨h.keeps hturn.keeps, hturn⟩
  case case4 => exact fun hnew => by cases hnew
  all_goals
    intro hnew
    cases hnew
    exact ⟨h, .refl _ _⟩

theorem Sound.carve (h : s.Sound t out) (hn : t.Numbered) (size : Nat) :
    (s.carve t size).2.1.Sound (s.carve t size).2.2 (CarveOut.taken (s.carve t size).1 out) ∧
      Tracker.Turnover t (s.carve t size).2.2 s.backing (s.carve t size).2.1.backing := by
  fun_cases SlabCarver.carve s t size
  case case1 => exact ⟨h, .refl _ _⟩
  case case2 hsize slab hfind result s₁ hcarve =>
    have hs := h.carveFrom (slabFor?_eq_some hfind).1
    rw [hcarve] at hs
    exact ⟨hs.1, hs.2 ▸ .refl _ _⟩
  case case3 hnew => exact newSlab_error h hnew
  case case4 hsize hnone slab s₁ t₁ hnew result s₂ hcarve =>
    obtain ⟨h₁, hmem, hturn⟩ := newSlab_ok h hn hsize hnone hnew
    have hs := h₁.carveFrom hmem
    rw [hcarve] at hs
    exact ⟨hs.1, hs.2 ▸ hturn⟩

theorem Sound.allocate (h : s.Sound t out) (hn : t.Numbered) (size : Nat) :
    (s.allocate t size).2.1.Sound (s.allocate t size).2.2
        (CarveOut.taken (s.allocate t size).1 out) ∧
      Tracker.Turnover t (s.allocate t size).2.2 s.backing (s.allocate t size).2.1.backing :=
  ⟨(h.carve hn size).1.with_tally _, (h.carve hn size).2⟩

theorem dispose_eq (s : SlabCarver) (t : Tracker H) :
    s.dispose t = t.returnAll (s.slabs.map Slab.base) := by
  rw [Tracker.returnAll, List.foldl_map]
  rfl

/-- All slabs go back to the tracker. -/
theorem turnover_dispose (s : SlabCarver) (t : Tracker H) :
    Tracker.Turnover t (s.dispose t) s.backing [] := by
  rw [dispose_eq]
  refine t.turnover_returnAll (fun b hb => ?_) (by simp) (by simp)
  obtain ⟨slab, hs, rfl⟩ := List.mem_map.mp hb
  exact List.mem_map.mpr ⟨slab, hs, rfl⟩

theorem Sound.reset (s : SlabCarver) (t : Tracker H) :
    (s.reset t).1.Sound (s.reset t).2 [] ∧
      Tracker.Turnover t (s.reset t).2 s.backing (s.reset t).1.backing :=
  ⟨sound_nil _ rfl, s.turnover_dispose t⟩

end SlabCarver

end TrackedHeap
