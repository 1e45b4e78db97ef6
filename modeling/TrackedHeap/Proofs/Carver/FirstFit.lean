import TrackedHeap.Heap.Bump
import TrackedHeap.Proofs.Carver.Detached
import TrackedHeap.Proofs.Ownership.Release
import TrackedHeap.Proofs.Tracker.Stale
import TrackedHeap.Proofs.Twin.Blank

/-!
# First fit

Of a slab a request gets the first cell that no client has, and it is refused only if clients have all of them. A
size that has no slab yet gets one as long as the slabs fit into the capacity and the tracker grants a block. What
is done for one size changes nothing for the others, and what comes back is a cell that a client has
(`SlabCarver.run_first_fit`). The bits of a slab are what decides; that they are the cells with clients after any
history is `SlabCarver.Held.isSet_iff`.
-/

namespace TrackedHeap

namespace CarveOut

/-- A client has the `i`th cell of a size. -/
def HasCellAt (out : List CarveOut) (size i : Nat) : Prop :=
  ∃ c ∈ out, c.requestedSize = size ∧ c.offset = i * size

/-- The first of some cells of a size that no client has. -/
structure FirstCell (out : List CarveOut) (size cells i : Nat) : Prop where
  lt : i < cells
  free : ¬ HasCellAt out size i
  least : ∀ j < i, HasCellAt out size j

/-- What clients have of a size. -/
def ofSize (size : Nat) (out : List CarveOut) : List CarveOut :=
  out.filter fun c => c.requestedSize = size

end CarveOut

namespace SlabCarver

open CarveOut (HasCellAt FirstCell ofSize)

variable {H : Type} {t t' : Tracker H} {s : SlabCarver} {out : List CarveOut} {slab : Slab} {size : Nat}
  {handle : CarveOut}

/-! ## The bits of a slab -/

/-- The carver and what clients have of it, whatever became of the blocks. -/
structure Held (s : SlabCarver) (t : Tracker H) (out : List CarveOut) : Prop where
  sound : s.Sound (t.withBlocks (s.slabs.map Slab.base)) out
  exact : s.Exact out
  issued : ∀ b ∈ s.slabs.map Slab.base, b.id < t.nextId

/-- Only the blocks of the slabs count. -/
theorem Sound.withBlocks (h : s.Sound t out) (t' : Tracker H) : s.Sound (t'.withBlocks (s.slabs.map Slab.base)) out :=
  { h with base_mem := fun _ hs => List.mem_map_of_mem hs }

namespace Held

theorem numbered (h : s.Held t out) : (t.withBlocks (s.slabs.map Slab.base)).Numbered :=
  Tracker.numbered_withBlocks h.issued (by rw [List.map_map]; exact h.sound.bases)

/-- The bit of a cell is set exactly if a client has the cell. -/
theorem isSet_iff (h : s.Held t out) (hs : slab ∈ s.slabs) {i : Nat} (hi : i < slab.cells) :
    slab.occupancy.isSet i = true ↔ HasCellAt out slab.objectSize i := by
  constructor
  · intro hset
    obtain ⟨c, hc, -, hspan⟩ := h.exact.filled slab hs i hi hset
    exact ⟨c, hc, (h.exact.asked c hc).trans (congrArg Extent.size hspan), congrArg Extent.start hspan⟩
  · rintro ⟨c, hc, hsize, hoffset⟩
    obtain ⟨x, hx, j, -, hset, -, hspan⟩ := h.sound.cell c hc
    have hxs : x.objectSize = slab.objectSize :=
      ((h.exact.asked c hc).trans (congrArg Extent.size hspan)).symm.trans hsize
    obtain rfl := h.sound.eq_of_size hx hs hxs
    have hplace : j * x.objectSize = i * x.objectSize := (congrArg Extent.start hspan).symm.trans hoffset
    rwa [← Nat.eq_of_mul_eq_mul_right (h.sound.cut x hx).object_pos hplace]

/-- The search of a slab finds the first cell that no client has. -/
theorem firstClear_iff (h : s.Held t out) (hs : slab ∈ s.slabs) {i : Nat} :
    slab.occupancy.firstClear = some i ↔ FirstCell out slab.objectSize (s.slabSize / slab.objectSize) i := by
  have hcut := h.sound.cut slab hs
  rw [Occupancy.firstClear_eq_some_iff hcut.fits, hcut.len_eq, ← hcut.cells_eq]
  constructor
  · rintro ⟨hlt, hclear, hset⟩
    refine ⟨hlt, fun hout => ?_, fun j hj => (h.isSet_iff hs (Nat.lt_trans hj hlt)).mp (hset j hj)⟩
    rw [(h.isSet_iff hs hlt).mpr hout] at hclear
    cases hclear
  · rintro ⟨hlt, hfree, hleast⟩
    refine ⟨hlt, ?_, fun j hj => (h.isSet_iff hs (Nat.lt_trans hj hlt)).mpr (hleast j hj)⟩
    exact Bool.eq_false_iff.mpr fun hset => hfree ((h.isSet_iff hs hlt).mp hset)

/-- A request gets the first cell of the slab that no client has. -/
theorem carveFrom_ok_iff (h : s.Held t out) (hs : slab ∈ s.slabs) {c : CarveOut} :
    (s.carveFrom slab).1 = .ok c ↔ ∃ i, FirstCell out slab.objectSize (s.slabSize / slab.objectSize) i ∧
      c = ⟨slab.base, i * slab.objectSize, slab.objectSize, slab.objectSize⟩ := by
  simp only [← h.firstClear_iff hs]
  unfold SlabCarver.carveFrom
  cases slab.occupancy.firstClear with
  | none => simp
  | some k => simp [grant, eq_comm]

/-- A request is refused if clients have all cells of the slab. -/
theorem carveFrom_error_iff (h : s.Held t out) (hs : slab ∈ s.slabs) {e : MemoryError} :
    (s.carveFrom slab).1 = .error e ↔ e = .outOfMemory slab.objectSize 0 ∧
      ∀ i < s.slabSize / slab.objectSize, HasCellAt out slab.objectSize i := by
  have hcut := h.sound.cut slab hs
  have hfull : slab.occupancy.firstClear = none ↔
      ∀ i < s.slabSize / slab.objectSize, HasCellAt out slab.objectSize i := by
    rw [Occupancy.firstClear_eq_none_iff hcut.fits, hcut.len_eq, ← hcut.cells_eq]
    exact forall₂_congr fun i hi => h.isSet_iff hs hi
  rw [← hfull]
  unfold SlabCarver.carveFrom
  cases slab.occupancy.firstClear with
  | none => simp [eq_comm]
  | some k => simp [grant]

end Held

/-! ## Handles -/

theorem exists_slab_of_release (hr : (s.release handle).1 = .ok ()) :
    ∃ slab, s.slabFor? handle.requestedSize = some slab ∧ handle.block.id = slab.base.id := by
  revert hr
  fun_cases SlabCarver.release s handle
  case case4 slab hfind howned index hcell hset =>
    exact fun _ => ⟨slab, hfind, CarveOut.requireOwned_eq_ok.mp howned⟩
  all_goals exact fun hr => by cases hr

/-- Of a handle the block, the size that was asked for and the place count. -/
theorem release_congr {c : CarveOut} (hid : c.block.id = handle.block.id)
    (hsize : c.requestedSize = handle.requestedSize) (hoffset : c.offset = handle.offset) :
    (s.release c).1 = (s.release handle).1 := by
  unfold SlabCarver.release CarveOut.requireOwned
  rw [hid, hsize, hoffset]

namespace Held

/-- A handle that is taken back names a size, the block of its slab and a cell of it that a client has. -/
theorem release_ok_iff (h : s.Held t out) :
    (s.release handle).1 = .ok () ↔
      ∃ c ∈ out, c.block.id = handle.block.id ∧ c.requestedSize = handle.requestedSize ∧ c.offset = handle.offset := by
  constructor
  · intro hr
    obtain ⟨x, hx, hid⟩ := exists_slab_of_release hr
    obtain ⟨hxs, hsize⟩ := slabFor?_eq_some hx
    obtain ⟨slab, hs, index, -, -, c, hc, hsame, hblock, hspan⟩ := h.exact.release_ok (Prod.ext hr rfl)
    obtain ⟨hcid, hoffset⟩ := CarveOut.sameStart_iff.mp hsame
    obtain rfl : slab = x := h.sound.eq_of_base hs hxs (by rw [← hblock, hcid, hid])
    exact ⟨c, hc, hcid, ((h.exact.asked c hc).trans (congrArg Extent.size hspan)).trans hsize, hoffset⟩
  · rintro ⟨c, hc, hid, hsize, hoffset⟩
    rw [← release_congr hid hsize hoffset]
    exact h.sound.release_ok h.exact hc

/-- What comes back is of the size that the handle names. -/
theorem ofSize_returned (h : s.Held t out) (hne : size ≠ handle.requestedSize) :
    ofSize size (CarveOut.returned (s.release handle).1 handle out) = ofSize size out := by
  rcases hr : (s.release handle).1 with e | u
  · rfl
  · obtain ⟨x, hx, hid⟩ := exists_slab_of_release hr
    obtain ⟨hxs, hxsize⟩ := slabFor?_eq_some hx
    rw [CarveOut.returned, ofSize, ofSize, List.filter_filter]
    refine List.filter_congr fun c hc => ?_
    by_cases hcsize : c.requestedSize = size
    · have hother : ¬ c.sameStart handle = true := fun hsame => by
        obtain ⟨slab, hs, i, -, -, hblock, hspan⟩ := h.sound.cell c hc
        obtain rfl : slab = x := h.sound.eq_of_base hs hxs (by
          rw [← hblock, (CarveOut.sameStart_iff.mp hsame).1, hid])
        have hgranted : c.requestedSize = slab.objectSize := (h.exact.asked c hc).trans (congrArg Extent.size hspan)
        omega
      simp [hcsize, hother]
    · simp [hcsize]

end Held

/-! ## Requests -/

variable [Heap H]

/-- What a request gets of its size depends on what clients have of it, or, if the size has no slab, on whether there
is room for one. -/
structure FirstFit (s : SlabCarver) (t : Tracker H) (out : List CarveOut) (size : Nat) : Prop where
  /-- The first cell that no client has. -/
  granted : ∀ slab, s.slabFor? size = some slab → ∀ c, (s.allocate t size).1 = .ok c ↔
    ∃ i, FirstCell out size (s.slabSize / size) i ∧ c = ⟨slab.base, i * size, size, size⟩
  full : ∀ slab, s.slabFor? size = some slab → ∀ e, (s.allocate t size).1 = .error e ↔
    e = .outOfMemory size 0 ∧ ∀ i < s.slabSize / size, HasCellAt out size i
  /-- The first cell of a new slab. -/
  opened : s.slabFor? size = none → ∀ c, (s.allocate t size).1 = .ok c ↔
    size ≤ s.slabSize ∧ (s.slabs.length + 1) * s.slabSize ≤ s.total ∧
      (t.allocate s.slabSize s.alignment).1 = .ok c.block ∧ c = ⟨c.block, 0, size, size⟩

theorem allocate_of_slabFor? (hsize : 0 < size) (hs : s.slabFor? size = some slab) :
    (s.allocate t size).1 = (s.carveFrom slab).1 := by
  show (s.carve t size).1 = _
  simp only [carve, if_neg (Nat.ne_of_gt hsize), hs]

omit [Heap H] in
/-- Of a new slab the first cell is free. -/
theorem carveFrom_freshSlab (base : Block) (hcells : s.cellsFor size ≠ 0) :
    ((s.withSlab (s.freshSlab base size)).carveFrom (s.freshSlab base size)).1 = .ok ⟨base, 0, size, size⟩ := by
  have hfirst : (Occupancy.empty (s.cellsFor size)).firstClear = some 0 :=
    (Occupancy.firstClear_eq_some_iff (Occupancy.fits_empty _)).mpr
      ⟨Nat.pos_of_ne_zero hcells, Occupancy.isSet_empty _ _, fun j hj => absurd hj (Nat.not_lt_zero j)⟩
  simp [carveFrom, freshSlab, hfirst, grant]

theorem Held.allocate_ok_iff_of_none (h : s.Held t out) (hsize : 0 < size) (hs : s.slabFor? size = none)
    (c : CarveOut) :
    (s.allocate t size).1 = .ok c ↔
      size ≤ s.slabSize ∧ (s.slabs.length + 1) * s.slabSize ≤ s.total ∧
        (t.allocate s.slabSize s.alignment).1 = .ok c.block ∧ c = ⟨c.block, 0, size, size⟩ := by
  have hroom : s.reserved + s.slabSize = (s.slabs.length + 1) * s.slabSize := by
    rw [h.exact.reserved_eq, Nat.succ_mul]
  have hcells : s.cellsFor size = 0 ↔ s.slabSize < size := Nat.div_eq_zero_iff_lt hsize
  show (s.carve t size).1 = _ ↔ _
  cases ha : s.asks size with
  | none =>
    rw [carve_of_asks_eq_none (Nat.ne_of_gt hsize) hs ha]
    have hnot : s.cellsFor size = 0 ∨ s.total < s.reserved + s.slabSize := by
      by_contra hnot
      simp [asks, Nat.ne_of_gt hsize, hs, hnot] at ha
    constructor
    · intro hc
      cases hc
    · rintro ⟨hle, hfit, -⟩
      omega
  | some request =>
    obtain ⟨-, -, hsome, hfit, -⟩ := asks_eq_some ha
    have hle : size ≤ s.slabSize := Nat.le_of_not_lt fun hlt => hsome (hcells.mpr hlt)
    have hfits : (s.slabs.length + 1) * s.slabSize ≤ s.total := hroom ▸ Nat.le_of_not_lt hfit
    rcases hx : t.allocate s.slabSize s.alignment with ⟨e | base, u⟩
    · rw [(carve_of_asks_eq_some ha t).1 e u hx]
      constructor
      · intro hc
        cases hc
      · rintro ⟨-, -, hbase, -⟩
        cases hbase
    · rw [(carve_of_asks_eq_some ha t).2 base u hx, carveFrom_freshSlab base hsome]
      constructor
      · intro hc
        obtain rfl := Except.ok.inj hc
        exact ⟨hle, hfits, rfl, rfl⟩
      · rintro ⟨-, -, hbase, hc⟩
        rw [Except.ok.inj hbase, ← hc]

/-- What is granted is of the size that was asked for. -/
theorem ofSize_taken {other : Nat} (hne : other ≠ size) :
    ofSize other (CarveOut.taken (s.allocate t size).1 out) = ofSize other out :=
  CarveOut.filter_taken_not
    (fun c hc => by simpa [requestedSize_of_carve hc] using hne.symm) out

theorem Held.firstFit (h : s.Held t out) (hsize : 0 < size) : s.FirstFit t out size where
  granted slab hs c := by
    obtain ⟨hmem, rfl⟩ := slabFor?_eq_some hs
    rw [allocate_of_slabFor? hsize hs]
    exact h.carveFrom_ok_iff hmem
  full slab hs e := by
    obtain ⟨hmem, rfl⟩ := slabFor?_eq_some hs
    rw [allocate_of_slabFor? hsize hs]
    exact h.carveFrom_error_iff hmem
  opened hs c := h.allocate_ok_iff_of_none hsize hs c

/-! ## Runs -/

namespace Held

theorem allocate (h : s.Held t out) (size : Nat) :
    (s.allocate t size).2.1.Held (s.allocate t size).2.2 (CarveOut.taken (s.allocate t size).1 out) := by
  obtain ⟨hanswer, hcarver, hnext⟩ := s.allocate_withBlocks t (s.slabs.map Slab.base) size
  have hsound := (h.sound.allocate h.numbered size).1
  have hexact := h.exact.allocate h.sound h.numbered size
  have hnumbered := Tracker.Steps.numbered (s.steps_carve (t.withBlocks (s.slabs.map Slab.base)) size) h.numbered
  rw [hanswer, hcarver] at hsound hexact
  refine ⟨hsound.withBlocks _, hexact, List.forall_mem_map.mpr fun slab hs => ?_⟩
  rw [← hnext]
  exact hnumbered.issued _ (hsound.base_mem slab hs)

omit [Heap H] in
theorem release (h : s.Held t out) (handle : CarveOut) :
    (s.release handle).2.Held t (CarveOut.returned (s.release handle).1 handle out) := by
  have hsound := (h.sound.release handle).1
  refine ⟨hsound.withBlocks t, h.exact.release h.sound handle, List.forall_mem_map.mpr fun slab hs => ?_⟩
  exact h.issued _ (hsound.base_mem slab hs)

theorem reset (s : SlabCarver) (t : Tracker H) : (s.reset t).1.Held (s.reset t).2 [] :=
  ⟨sound_nil _ rfl, exact_reset s t, fun _ hb => absurd hb List.not_mem_nil⟩

omit [Heap H] in
/-- What happens to blocks does not concern the carver. -/
theorem tracker (h : s.Held t out) (hn : t.nextId ≤ t'.nextId) : s.Held t' out :=
  ⟨h.sound.withBlocks t', h.exact, fun b hb => Nat.lt_of_lt_of_le (h.issued b hb) hn⟩

theorem act {c : Carver × Tracker H} (h : ∃ s, c.1 = .slab s ∧ s.Held c.2 out) (a : Carver.Act) :
    ∃ s, (Carver.act c a).2.1 = .slab s ∧ s.Held (Carver.act c a).2.2 (Carver.outAfter c out a) := by
  obtain ⟨c, t⟩ := c
  obtain ⟨s, rfl, h⟩ := h
  cases a with
  | tracker a => exact ⟨s, rfl, h.tracker (Tracker.Steps.nextId_le (t.steps_act a))⟩
  | allocate size => exact ⟨_, rfl, h.allocate size⟩
  | release handle => exact ⟨_, rfl, h.release handle⟩
  | reset => exact ⟨_, rfl, reset s t⟩

end Held

/-- After every run, with whatever handles and whatever is done to the tracker, a request gets the first cell of its
size that no client has, and is refused only if clients have all of them; a size without a slab gets one if it fits
into a slab, one more slab fits into the capacity and the tracker grants it. What is done for one size changes nothing
for the others, and a handle is taken back exactly if it names a cell that a client has. -/
theorem run_first_fit {total : Nat} {alignment : Alignment} {new : Carver}
    (hb : Carver.build t .slab total alignment = (.ok new, t')) (acts : List Carver.Act) :
    let state := Carver.run (new, t') acts
    let out := Carver.outstanding (new, t') acts
    ∃ s, state.1 = .slab s ∧ s.total = total ∧ s.slabSize = slabSizeFor total ∧
      (∀ size, 0 < size → s.FirstFit state.2 out size) ∧
      (∀ handle, (s.release handle).1 = .ok () ↔ ∃ c ∈ out,
        c.block.id = handle.block.id ∧ c.requestedSize = handle.requestedSize ∧ c.offset = handle.offset) ∧
      (∀ size other, other ≠ size → ofSize other (Carver.outAfter state out (.allocate size)) = ofSize other out) ∧
      ∀ handle other, other ≠ handle.requestedSize →
        ofSize other (Carver.outAfter state out (.release handle)) = ofSize other out := by
  intro state out
  obtain ⟨s₀, hm, rfl⟩ := Carver.built_ok hb
  obtain ⟨hmake, rfl⟩ := Prod.mk.inj hm
  have hstart : s₀.Held t [] := by
    refine ⟨sound_nil _ (slabs_of_make hmake), exact_of_make hmake, ?_⟩
    rw [slabs_of_make hmake]
    exact fun _ hb => absurd hb List.not_mem_nil
  obtain ⟨s, hstate, h⟩ : ∃ s, state.1 = .slab s ∧ s.Held state.2 out :=
    Carver.outstanding_run (P := fun c out => ∃ s, c.1 = .slab s ∧ s.Held c.2 out)
      (fun _ _ a h => Held.act h a) ⟨s₀, rfl, hstart⟩ acts
  have hblank : s.blank = s₀.blank := by
    simpa [state, hstate, Carver.blank] using Carver.blank_run (c := .slab s₀) nofun t acts
  have htotal := congrArg SlabCarver.total hblank
  have hsize := congrArg SlabCarver.slabSize hblank
  rw [make_ok hmake] at htotal hsize
  refine ⟨s, hstate, htotal, hsize, fun size hsize => h.firstFit hsize, fun handle => h.release_ok_iff,
    fun size other hne => ?_, fun handle other hne => ?_⟩
  · simp only [Carver.outAfter, hstate]
    exact ofSize_taken hne
  · simp only [Carver.outAfter, hstate]
    exact h.ofSize_returned hne

/-- Of 70 cells of a byte 66 were taken, and the first of the second word came back, after the block behind them was
freed: it is the first that nobody has. The one cell of 70 bytes is taken. -/
theorem run_first_fit_second_word :
    let t := Tracker.ofHeap (BumpHeap.ofPlan { }) none
    let new : Carver := .slab { alignment := .byte, total := 700, slabSize := 70 }
    let base := Block.place 1 65536 70 70 .byte 0
    let acts : List Carver.Act := List.replicate 66 (.allocate 1) ++
      [.allocate 70, .tracker (.free base), .release ⟨base, 64, 1, 1⟩]
    let state := Carver.run (new, t) acts
    let out := Carver.outstanding (new, t) acts
    (state.1.allocate state.2 1).1 = .ok ⟨base, 64, 1, 1⟩ ∧ FirstCell out 1 70 64 ∧
      (state.1.allocate state.2 70).1 = .error (.outOfMemory 70 0) ∧ HasCellAt out 70 0 := by
  intro t new base acts state out
  have hb : Carver.build t .slab 700 .byte = (.ok new, t) := rfl
  have hfirst : (state.1.allocate state.2 1).1 = .ok ⟨base, 64, 1, 1⟩ := by decide +kernel
  have hfull : (state.1.allocate state.2 70).1 = .error (.outOfMemory 70 0) := by decide +kernel
  have hslabs : ∀ s, state.1 = .slab s → (s.slabFor? 1).isSome ∧ (s.slabFor? 70).isSome := by
    have hdec : (match state.1 with
        | .slab s => decide ((s.slabFor? 1).isSome ∧ (s.slabFor? 70).isSome)
        | _ => false) = true := by decide +kernel
    intro s hs
    simpa [hs] using hdec
  obtain ⟨s, hstate, -, hsize, hfit, -⟩ := run_first_fit hb acts
  obtain ⟨hone, hlarge⟩ := hslabs s hstate
  obtain ⟨x, hx⟩ := Option.isSome_iff_exists.mp hone
  obtain ⟨y, hy⟩ := Option.isSome_iff_exists.mp hlarge
  refine ⟨hfirst, ?_, hfull, ?_⟩
  · rw [hstate] at hfirst
    obtain ⟨i, hi, hc⟩ := ((hfit 1 (by decide)).granted x hx _).mp hfirst
    obtain rfl : 64 = i := by simpa using congrArg CarveOut.offset hc
    rwa [hsize] at hi
  · rw [hstate] at hfull
    obtain ⟨-, hall⟩ := ((hfit 70 (by decide)).full y hy _).mp hfull
    exact hall 0 (by rw [hsize]; decide)

end SlabCarver

end TrackedHeap
