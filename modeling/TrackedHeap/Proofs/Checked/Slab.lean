import TrackedHeap.Proofs.Carver.Slab
import TrackedHeap.Proofs.Carver.Tally
import TrackedHeap.Proofs.Checked.Occupancy

/-!
# Slabs within words

Slabs are looked up by the size of their cells, and a new slab is looked up once more after it was put among the
others. Cells have sizes above 0 that differ, none larger than a slab, and a slab has no more than a mebibyte
(`SlabCarver.Bounded`). So there are no more slabs than a slab has bytes (`SlabCarver.Bounded.length_le`), and their
number, their bytes and the bits of their cells are words, however large the capacity is.
-/

namespace TrackedHeap.SlabCarver

open Checked (add sub mul div mod ok_bind)

variable {H : Type} {t t' : Tracker H} {s s' : SlabCarver} {slab : Slab} {size : Nat}

/-- The number of cells in a slab for a size. -/
def cellsForChecked (s : SlabCarver) (objectSize : Nat) : Checked Nat :=
  if objectSize = 0 then .ok 0 else div s.slabSize objectSize

/-- The slabs with other bits for one of them. -/
def withBits (s : SlabCarver) (objectSize : Nat) (occupancy : Occupancy) : List Slab :=
  s.update objectSize fun slab => { slab with occupancy }

/-- Takes the first free cell of a slab. -/
def carveFromChecked (s : SlabCarver) (slab : Slab) : Checked (Outcome CarveOut SlabCarver) := do
  match ← slab.occupancy.firstClearChecked with
  | none => return (.error (.outOfMemory slab.objectSize 0), s)
  | some index => do
    let occupancy ← slab.occupancy.setChecked index
    let allocated ← add s.allocated slab.objectSize
    let offset ← mul index slab.objectSize
    return (.ok { block := slab.base, offset, grantedSize := slab.objectSize, requestedSize := slab.objectSize },
      { s with slabs := s.withBits slab.objectSize occupancy, allocated })

/-- Takes back the cell that a handle names. -/
def releaseChecked (s : SlabCarver) (handle : CarveOut) : Checked (Outcome Unit SlabCarver) :=
  match s.slabFor? handle.requestedSize with
  | none => .ok (.error (.noSlab handle.requestedSize), s)
  | some slab =>
    match handle.requireOwned slab.base with
    | .error e => .ok (.error e, s)
    | .ok () => do
      let index ← div handle.offset slab.objectSize
      let rest ← mod handle.offset slab.objectSize
      if rest ≠ 0 ∨ slab.cells ≤ index then return (.error (.notACell handle.offset slab.objectSize), s)
      else if ← slab.occupancy.isSetChecked index then do
        let occupancy ← slab.occupancy.clearChecked index
        let allocated ← sub s.allocated slab.objectSize
        let tally ← s.tally.returnedChecked
        return (.ok (), { s with slabs := s.withBits slab.objectSize occupancy, allocated, tally })
      else return (.error (.cellFree index slab.objectSize), s)

section Tracked

variable [Heap H]

/-- Takes a block for the slab of a size, and puts the slab among the others. -/
def createChecked (s : SlabCarver) (t : Tracker H) (objectSize : Nat) :
    Checked (Outcome Unit (SlabCarver × Tracker H)) := do
  let cells ← s.cellsForChecked objectSize
  if cells = 0 then return (.error (.outOfMemory objectSize s.slabSize), s, t)
  else do
    let needed ← add s.reserved s.slabSize
    if s.total < needed then do
      let rest ← sub s.total s.reserved
      return (.error (.outOfMemory objectSize rest), s, t)
    else do
      match ← t.allocateChecked s.slabSize s.alignment with
      | (.error e, t) => return (.error e, s, t)
      | (.ok base, t) => do
        let reserved ← add s.reserved s.slabSize
        let slab := { base, objectSize, cells, occupancy := Occupancy.empty cells }
        return (.ok (), { s with slabs := s.slabs ++ [slab], reserved }, t)

/-- Sees to it that a size has a slab. -/
def ensureChecked (s : SlabCarver) (t : Tracker H) (objectSize : Nat) :
    Checked (Outcome Unit (SlabCarver × Tracker H)) :=
  if (s.slabFor? objectSize).isSome then .ok (.ok (), s, t) else s.createChecked t objectSize

/-- Takes a cell for a request, which is not counted yet. -/
def carveChecked (s : SlabCarver) (t : Tracker H) (size : Nat) :
    Checked (Outcome CarveOut (SlabCarver × Tracker H)) :=
  if size = 0 then .ok (.error .zeroAllocation, s, t)
  else do
    match ← s.ensureChecked t size with
    | (.error e, s, t) => return (.error e, s, t)
    | (.ok (), s, t) =>
      match s.slabFor? size with
      | none => .error (.internal "slab vanished after creation")
      | some slab => do
        let (result, s) ← s.carveFromChecked slab
        return (result, s, t)

/-- Takes a cell for a request. -/
def allocateChecked (s : SlabCarver) (t : Tracker H) (size : Nat) :
    Checked (Outcome CarveOut (SlabCarver × Tracker H)) := do
  let (result, s, t) ← s.carveChecked t size
  let tally ← s.tally.recordChecked result
  return (result, { s with tally }, t)

/-- Counts the cells that are taken back, and returns the blocks of all slabs. -/
def resetChecked (s : SlabCarver) (t : Tracker H) : Checked (SlabCarver × Tracker H) := do
  let counts ← s.slabs.mapM fun slab => slab.occupancy.countChecked
  let _ ← Checked.sum counts
  return s.reset t

end Tracked

/-- What keeps the arithmetic of slabs within words. -/
structure Bounded (s : SlabCarver) : Prop where
  counted : s.Counted
  slabSize_le : s.slabSize ≤ 1024 * 1024
  object_le : ∀ slab ∈ s.slabs, slab.objectSize ≤ s.slabSize
  total_lt : s.total < Word.limit

namespace Bounded

/-- The sizes of cells differ, so there are no more slabs than sizes. -/
theorem length_le (h : s.Bounded) : s.slabs.length ≤ s.slabSize := by
  have hnodup : (s.slabs.map Slab.objectSize).Nodup := List.pairwise_map.mpr h.counted.sizes
  have hsub : (s.slabs.map Slab.objectSize).toFinset ⊆ Finset.Icc 1 s.slabSize := by
    intro n hn
    obtain ⟨slab, hs, rfl⟩ := List.mem_map.mp (List.mem_toFinset.mp hn)
    exact Finset.mem_Icc.mpr ⟨(h.counted.cut slab hs).object_pos, h.object_le slab hs⟩
  have hcard := Finset.card_le_card hsub
  rwa [List.toFinset_card_of_nodup hnodup, List.length_map, Nat.card_Icc, Nat.add_sub_cancel] at hcard

/-- There is always room in a word for one more slab. -/
theorem reserved_add_lt (h : s.Bounded) : s.reserved + s.slabSize < Word.limit := by
  have hlength := h.length_le
  have hsize := h.slabSize_le
  have hmul : (s.slabs.length + 1) * s.slabSize ≤ (1024 * 1024 + 1) * (1024 * 1024) :=
    Nat.mul_le_mul (by omega) hsize
  rw [h.counted.reserved_eq, ← Nat.succ_mul]
  exact Nat.lt_of_le_of_lt hmul (by decide)

/-- The words of the bits of a slab have few bits together. -/
theorem bits_le (h : s.Bounded) (hs : slab ∈ s.slabs) : slab.occupancy.words.size * 64 ≤ 1024 * 1024 + 63 := by
  have hcut := h.counted.cut slab hs
  have hcells : slab.cells ≤ s.slabSize := by
    rw [hcut.cells_eq]
    exact Nat.div_le_self _ _
  have hsize := h.slabSize_le
  rw [hcut.fits, hcut.len_eq]
  omega

theorem bits_lt (h : s.Bounded) (hs : slab ∈ s.slabs) : slab.occupancy.words.size * 64 < Word.limit :=
  Nat.lt_of_le_of_lt (h.bits_le hs) (by decide)

theorem allocated_lt (h : s.Bounded) : s.allocated < Word.limit :=
  Nat.lt_of_le_of_lt h.counted.allocated_le h.total_lt

/-! ## Every operation keeps the bounds -/

/-- Bits change, and counts; the sizes of cells do not. -/
theorem rebit {g : Occupancy → Occupancy} (h : s.Bounded) (hr : Rebit s s' slab g) (hc : s'.Counted)
    (htotal : s'.total = s.total) : s'.Bounded where
  counted := hc
  slabSize_le := hr.size_eq ▸ h.slabSize_le
  object_le x hx := by
    rw [hr.slabs_eq, mem_update] at hx
    obtain ⟨y, hy, rfl⟩ := hx
    rw [hr.size_eq]
    split <;> exact h.object_le y hy
  total_lt := htotal ▸ h.total_lt

theorem with_tally (h : s.Bounded) (tally : Tally) : { s with tally }.Bounded :=
  ⟨h.counted.with_tally tally, h.slabSize_le, h.object_le, h.total_lt⟩

theorem carveFrom (h : s.Bounded) (hs : slab ∈ s.slabs) : (s.carveFrom slab).2.Bounded := by
  have hc := h.counted.carveFrom hs
  revert hc
  fun_cases SlabCarver.carveFrom s slab
  case case1 => exact fun _ => h
  case case2 index hclear =>
    exact fun hc => h.rebit (g := fun o => o.set index)
      ⟨rfl, rfl, rfl, (h.counted.cut slab hs).fits.set index⟩ hc rfl

theorem release (h : s.Bounded) (handle : CarveOut) : (s.release handle).2.Bounded := by
  have hc := h.counted.release handle
  revert hc
  fun_cases SlabCarver.release s handle
  case case4 slab hfind howned index hcell hset =>
    have hs := (slabFor?_eq_some hfind).1
    exact fun hc => h.rebit (g := fun o => o.clear index)
      ⟨rfl, rfl, rfl, (h.counted.cut slab hs).fits.clear index⟩ hc rfl
  all_goals exact fun _ => h

variable [Heap H]

theorem newSlab (h : s.Bounded) (hsize : ¬ size = 0) (hnone : s.slabFor? size = none)
    (hnew : s.newSlab t size = (.ok slab, s', t')) :
    s'.Bounded ∧ slab ∈ s'.slabs ∧ s'.slabFor? size = some slab := by
  obtain ⟨hc, hmem⟩ := h.counted.newSlab hsize hnone hnew
  revert hnew
  fun_cases SlabCarver.newSlab s t size
  case case4 cells hcells hroom base t₁ ha new =>
    intro hnew
    obtain ⟨hslab, hrest⟩ := Prod.mk.inj hnew
    obtain ⟨rfl, -⟩ := Prod.mk.inj hrest
    obtain rfl := Except.ok.inj hslab
    refine ⟨⟨hc, h.slabSize_le, ?_, h.total_lt⟩, hmem, ?_⟩
    · refine List.forall_mem_append.mpr ⟨h.object_le, fun x hx => ?_⟩
      obtain rfl := List.mem_singleton.mp hx
      by_contra hlarge
      exact hcells (Nat.div_eq_of_lt (Nat.lt_of_not_le hlarge))
    · rw [slabFor?, List.find?_append, show s.slabs.find? _ = none from hnone]
      simp [new]
  all_goals exact fun hnew => by cases hnew

theorem allocate (h : s.Bounded) (t : Tracker H) (size : Nat) : (s.allocate t size).2.1.Bounded := by
  refine with_tally (s := (s.carve t size).2.1) ?_ _
  fun_cases SlabCarver.carve s t size
  case case1 => exact h
  case case2 hsize slab hfind result s₁ hcarve =>
    have hfrom := h.carveFrom (slabFor?_eq_some hfind).1
    rwa [hcarve] at hfrom
  case case3 hnew => rwa [(newSlab_refused hnew).1]
  case case4 hsize hnone slab s₁ t₁ hnew result s₂ hcarve =>
    obtain ⟨hs₁, hmem, -⟩ := h.newSlab hsize hnone hnew
    have hfrom := hs₁.carveFrom hmem
    rwa [hcarve] at hfrom

theorem reset (h : s.Bounded) (t : Tracker H) : (s.reset t).1.Bounded where
  counted := s.counted_reset t
  slabSize_le := h.slabSize_le
  object_le _ hx := by cases hx
  total_lt := h.total_lt

omit [Heap H]

/-! ## No operation stops -/

/-- Other bits for the slab are other bits for the slab of its size. -/
theorem withBits_eq (h : s.Bounded) (hs : slab ∈ s.slabs) (g : Occupancy → Occupancy) :
    s.withBits slab.objectSize (g slab.occupancy) =
      s.update slab.objectSize fun x => { x with occupancy := g x.occupancy } := by
  refine List.map_congr_left fun x hx => ?_
  split
  · next he => rw [eq_of_objectSize h.counted.sizes hx hs he]
  · rfl

theorem carveFromChecked (h : s.Bounded) (hs : slab ∈ s.slabs) :
    s.carveFromChecked slab = .ok (s.carveFrom slab) := by
  have hcut := h.counted.cut slab hs
  have hafter := (h.carveFrom hs).allocated_lt
  revert hafter
  rw [SlabCarver.carveFromChecked, Occupancy.firstClearChecked_eq (h.bits_lt hs), ok_bind, SlabCarver.carveFrom]
  cases hclear : slab.occupancy.firstClear with
  | none => exact fun _ => rfl
  | some index =>
    intro hafter
    have hsum : s.allocated + slab.objectSize < Word.limit := hafter
    have hlt := (Occupancy.isSet_firstClear hclear).1
    have hoffset : index * slab.objectSize < Word.limit := by
      have hle : index * slab.objectSize ≤ slab.cells * slab.objectSize :=
        Nat.mul_le_mul_right _ (hcut.len_eq ▸ Nat.le_of_lt hlt)
      rw [hcut.cells_eq] at hle
      have hslab := Nat.le_trans hle (Nat.div_mul_le_self _ _)
      have hsize := h.slabSize_le
      exact Nat.lt_of_le_of_lt (Nat.le_trans hslab hsize) (by decide)
    simp only
    rw [hcut.fits.setChecked hlt, ok_bind, Checked.add_eq hsum, ok_bind, Checked.mul_eq hoffset, ok_bind,
      h.withBits_eq hs (fun o => o.set index)]
    rfl

theorem releaseChecked (h : s.Bounded) (hr : s.tally.HasRoom) (handle : CarveOut) :
    s.releaseChecked handle = .ok (s.release handle) := by
  rw [SlabCarver.releaseChecked, SlabCarver.release]
  cases hfind : s.slabFor? handle.requestedSize with
  | none => rfl
  | some slab =>
    obtain ⟨hs, -⟩ := slabFor?_eq_some hfind
    have hcut := h.counted.cut slab hs
    simp only
    cases howned : handle.requireOwned slab.base with
    | error e => rfl
    | ok u =>
      simp only [Checked.div_eq hcut.object_pos, Checked.mod_eq hcut.object_pos, ok_bind]
      by_cases hcell : handle.offset % slab.objectSize ≠ 0 ∨ slab.cells ≤ handle.offset / slab.objectSize
      · rw [if_pos hcell, if_pos hcell]
        rfl
      have hlt : handle.offset / slab.objectSize < slab.occupancy.len := by
        rw [hcut.len_eq]
        exact Nat.lt_of_not_le (not_or.mp hcell).2
      rw [if_neg hcell, if_neg hcell, hcut.fits.isSetChecked hlt, ok_bind]
      by_cases hset : slab.occupancy.isSet (handle.offset / slab.objectSize) = true
      · have hle : slab.objectSize ≤ s.allocated := by
          have hbytes := hcut.bytes_clear hlt hset
          have hslab : slab.bytes ≤ s.allocated := by
            rw [h.counted.allocated_eq]
            exact List.le_sum_of_mem (List.mem_map_of_mem hs)
          omega
        rw [if_pos hset, if_pos hset, hcut.fits.clearChecked hlt, ok_bind, Checked.sub_eq hle, ok_bind,
          hr.returnedChecked, ok_bind, h.withBits_eq hs (fun o => o.clear (handle.offset / slab.objectSize))]
        rfl
      · rw [if_neg hset, if_neg hset]
        rfl

variable [Heap H]

/-- A slab is put among the others where one is made. -/
theorem createChecked (h : s.Bounded) (ht : t.Regular) (hsize : ¬ size = 0) :
    s.createChecked t size = .ok ((s.newSlab t size).1.map fun _ => (), (s.newSlab t size).2) := by
  have hcells : s.cellsForChecked size = .ok (s.cellsFor size) := by
    rw [cellsForChecked, if_neg hsize, Checked.div_eq (Nat.pos_of_ne_zero hsize)]
    rfl
  rw [SlabCarver.createChecked, hcells, ok_bind]
  fun_cases SlabCarver.newSlab s t size
  case case1 cells hzero => rw [if_pos hzero]; rfl
  case case2 cells hcells hroom =>
    rw [if_neg hcells, Checked.add_eq h.reserved_add_lt, ok_bind, if_pos hroom,
      Checked.sub_eq h.counted.reserved_le]
    rfl
  case case3 cells hcells hroom e t₁ ha =>
    rw [if_neg hcells, Checked.add_eq h.reserved_add_lt, ok_bind, if_neg hroom, ht.allocateChecked, ok_bind, ha]
    rfl
  case case4 cells hcells hroom base t₁ ha new =>
    rw [if_neg hcells, Checked.add_eq h.reserved_add_lt, ok_bind, if_neg hroom, ht.allocateChecked, ok_bind, ha]
    rfl

/-- A slab that was put among the others is found there. -/
theorem carveChecked (h : s.Bounded) (ht : t.Regular) (size : Nat) :
    s.carveChecked t size = .ok (s.carve t size) := by
  rw [SlabCarver.carveChecked, ensureChecked]
  fun_cases SlabCarver.carve s t size
  case case1 hsize => rw [if_pos hsize]
  case case2 hsize slab hfind result s₁ hcarve =>
    rw [if_neg hsize, hfind, if_pos Option.isSome_some, ok_bind]
    simp only [hfind]
    rw [h.carveFromChecked (slabFor?_eq_some hfind).1, hcarve]
    rfl
  case case3 hsize hnone e s₁ t₁ hnew =>
    rw [if_neg hsize, hnone, Option.isSome_none, if_neg Bool.false_ne_true, h.createChecked ht hsize, hnew]
    rfl
  case case4 hsize hnone slab s₁ t₁ hnew result s₂ hcarve =>
    obtain ⟨hs₁, hmem, hfind⟩ := h.newSlab hsize hnone hnew
    rw [if_neg hsize, hnone, Option.isSome_none, if_neg Bool.false_ne_true, h.createChecked ht hsize, hnew, ok_bind]
    simp only [Except.map, hfind]
    rw [hs₁.carveFromChecked hmem, hcarve]
    rfl

theorem allocateChecked (h : s.Bounded) (ht : t.Regular) (hr : s.tally.HasRoom) (size : Nat) :
    s.allocateChecked t size = .ok (s.allocate t size) := by
  rw [SlabCarver.allocateChecked, h.carveChecked ht, ok_bind]
  simp only [s.tally_carve, hr.recordChecked, ok_bind]
  rw [SlabCarver.allocate, ← s.tally_carve t size]
  rfl

/-- There are few slabs, and few bits in each. -/
theorem resetChecked (h : s.Bounded) (t : Tracker H) : s.resetChecked t = .ok (s.reset t) := by
  have hcount : ∀ slab ∈ s.slabs, slab.occupancy.countChecked = .ok slab.occupancy.count :=
    fun slab hs => Occupancy.countChecked_eq (h.bits_lt hs)
  have hsum : (s.slabs.map fun slab => slab.occupancy.count).sum < Word.limit := by
    have hle := List.sum_le_card_nsmul (s.slabs.map fun slab => slab.occupancy.count) (1024 * 1024 + 63)
      (List.forall_mem_map.mpr fun slab hs => Nat.le_trans (Occupancy.count_le _) (h.bits_le hs))
    rw [List.length_map, Nat.nsmul_eq_mul] at hle
    have hmul : s.slabs.length * (1024 * 1024 + 63) ≤ (1024 * 1024) * (1024 * 1024 + 63) :=
      Nat.mul_le_mul_right _ (Nat.le_trans h.length_le h.slabSize_le)
    exact Nat.lt_of_le_of_lt (Nat.le_trans hle hmul) (by decide)
  rw [SlabCarver.resetChecked, Checked.mapM_eq hcount, ok_bind, Checked.sum_eq hsum]
  rfl

end Bounded

theorem bounded_of_make {total : Nat} {alignment : Alignment} (htotal : total < Word.limit)
    (hm : make total alignment = .ok s) : s.Bounded := by
  refine ⟨counted_of_make hm, ?_, ?_, ?_⟩
  all_goals rw [make_ok hm]
  · show slabSizeFor total ≤ 1024 * 1024
    unfold slabSizeFor
    omega
  · exact nofun
  · exact htotal

end TrackedHeap.SlabCarver
