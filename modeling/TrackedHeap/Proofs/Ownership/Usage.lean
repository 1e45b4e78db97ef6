import TrackedHeap.Proofs.Carver.Refusal
import TrackedHeap.Proofs.Heap.Footprint
import TrackedHeap.Proofs.Ownership.Carver

/-!
# How many bytes clients have

A carver counts the bytes that clients have of it, beside the structure that says where they are. Both agree
with what clients have (`Carver.Exact`): the count is the sum of the sizes of their ranges, and whatever the
structure shows as taken is with one of them. So a range that comes back is one that a client has, and the
count goes down by its size, never by more than there is.

What clients have is a list that gives up every range at the place of a handle that is taken back. Since no
two ranges start at one place (`CarveOut.Scattered`), that is one range (`CarveOut.Scattered.perm_returned`).
-/

namespace TrackedHeap

namespace CarveOut

variable {out out' : List CarveOut} {c handle : CarveOut}

/-- The bytes of some ranges. -/
def grantedBytes (out : List CarveOut) : Nat :=
  (out.map grantedSize).sum

/-- No two ranges start at one place. -/
def Scattered (out : List CarveOut) : Prop :=
  out.Pairwise fun c d => ¬ c.sameStart d = true

theorem grantedBytes_cons (c : CarveOut) (out : List CarveOut) :
    grantedBytes (c :: out) = c.grantedSize + grantedBytes out :=
  List.sum_cons

theorem grantedBytes_append (out out' : List CarveOut) :
    grantedBytes (out ++ out') = grantedBytes out + grantedBytes out' := by
  rw [grantedBytes, List.map_append, List.sum_append]
  rfl

theorem grantedBytes_perm (h : out.Perm out') : grantedBytes out = grantedBytes out' :=
  (h.map grantedSize).sum_nat

theorem sameStart_symm (h : c.sameStart handle = true) : handle.sameStart c = true := by
  rw [sameStart_iff] at h ⊢
  exact ⟨h.1.symm, h.2.symm⟩

theorem sameStart_trans {d : CarveOut} (h : c.sameStart d = true) (h' : d.sameStart handle = true) :
    c.sameStart handle = true := by
  rw [sameStart_iff] at h h' ⊢
  exact ⟨h.1.trans h'.1, h.2.trans h'.2⟩

/-- Ranges that are not empty and share no byte start at different places. -/
theorem Scattered.of_apart (h : out.Pairwise Apart) (hpos : ∀ c ∈ out, 0 < c.grantedSize) : Scattered out := by
  refine h.imp_of_mem fun {c d} hc hd hapart hs => ?_
  obtain ⟨hid, ho⟩ := sameStart_iff.mp hs
  exact (hapart hid).start_ne (hpos c hc) (hpos d hd) ho

/-- One range goes when those at its place do. -/
theorem Scattered.perm_returned {α : Type} (h : Scattered out) (hc : c ∈ out) (hs : c.sameStart handle = true)
    (a : α) : out.Perm (c :: returned (.ok a) handle out) := by
  unfold returned
  induction out with
  | nil => cases hc
  | cons d out ih =>
    obtain ⟨hd, hout⟩ := List.pairwise_cons.mp h
    rcases List.mem_cons.mp hc with rfl | hc
    · have hothers : out.filter (fun e => !e.sameStart handle) = out :=
        List.filter_eq_self.mpr fun e he => by
          simpa using fun he' => hd e he (sameStart_trans hs (sameStart_symm he'))
      rw [List.filter_cons_of_neg (by simp [hs]), hothers]
    · have hstays : ¬ d.sameStart handle = true := fun hd' =>
        hd c hc (sameStart_trans hd' (sameStart_symm hs))
      rw [List.filter_cons_of_pos (by simpa using hstays)]
      exact ((ih hout hc).cons d).trans (.swap ..)

/-- A place tells which range is meant. -/
theorem Scattered.eq_of_sameStart {d : CarveOut} (h : Scattered out) (hc : c ∈ out) (hd : d ∈ out)
    (hs : c.sameStart d = true) : c = d := by
  have : Std.Symm fun c d : CarveOut => ¬ c.sameStart d = true := ⟨fun _ _ hne he => hne (sameStart_symm he)⟩
  by_contra hne
  exact h.forall hc hd hne hs

theorem Scattered.grantedBytes_returned {α : Type} (h : Scattered out) (hc : c ∈ out)
    (hs : c.sameStart handle = true) (a : α) :
    grantedBytes out = grantedBytes (returned (.ok a) handle out) + c.grantedSize := by
  rw [grantedBytes_perm (h.perm_returned hc hs a), grantedBytes_cons, Nat.add_comm]

/-- Ranges that share no byte and lie in blocks of one size have no more bytes than these. -/
theorem grantedBytes_le {ids : List Nat} {size : Nat} (hids : ∀ c ∈ out, c.block.id ∈ ids)
    (hfits : ∀ c ∈ out, c.offset + c.grantedSize ≤ size) (hapart : out.Pairwise Apart) :
    grantedBytes out ≤ ids.length * size := by
  induction ids generalizing out with
  | nil =>
    rw [List.eq_nil_iff_forall_not_mem.mpr fun c hc => List.not_mem_nil (hids c hc)]
    exact Nat.zero_le _
  | cons id ids ih =>
    let here : CarveOut → Bool := fun c => c.block.id == id
    have hsplit := grantedBytes_perm (List.filter_append_perm here out)
    rw [grantedBytes_append] at hsplit
    have hrest : grantedBytes (out.filter fun c => !here c) ≤ ids.length * size := by
      refine ih (fun c hc => ?_) (fun c hc => hfits c (List.mem_filter.mp hc).1) (hapart.filter _)
      obtain ⟨hc, hne⟩ := List.mem_filter.mp hc
      exact (List.mem_cons.mp (hids c hc)).resolve_left (by simpa [here] using hne)
    have hone : grantedBytes (out.filter here) ≤ size := by
      have hspans : ((out.filter here).map span).Pairwise Extent.Apart := by
        refine List.pairwise_map.mpr ((hapart.filter here).imp_of_mem fun {c d} hc hd hcd => hcd ?_)
        rw [beq_iff_eq.mp (List.mem_filter.mp hc).2, beq_iff_eq.mp (List.mem_filter.mp hd).2]
      have hin : ∀ e ∈ (out.filter here).map span, 0 ≤ e.start ∧ e.start + e.size ≤ size :=
        List.forall_mem_map.mpr fun c hc => ⟨Nat.zero_le _, hfits c (List.mem_filter.mp hc).1⟩
      have hle := Extent.sum_size_le hspans hin
      rwa [List.map_map] at hle
    rw [List.length_cons, Nat.succ_mul]
    omega

end CarveOut

/-- Clients have no more than the blocks behind the carver, if these are of one size. -/
theorem Owned.grantedBytes_le {H : Type} {t : Tracker H} {ids : List Nat} {out : List CarveOut} {size : Nat}
    (h : Owned t ids out) (hsize : ∀ c ∈ out, c.block.requestedSize = size) :
    CarveOut.grantedBytes out ≤ ids.length * size :=
  CarveOut.grantedBytes_le h.backed (fun c hc => hsize c hc ▸ h.fits c hc) h.apart

open CarveOut (grantedBytes grantedBytes_cons grantedBytes_append grantedBytes_perm Scattered)

variable {H : Type} {t t' : Tracker H} {out : List CarveOut} {handle : CarveOut}

/-! ## Buddies -/

namespace Buddy

variable {b b' : Buddy}

/-- Every live chunk is a range that a client has, and their bytes are counted. -/
structure Exact (b : Buddy) (out : List CarveOut) : Prop where
  filled : ∀ d ∈ b.live, ∃ c ∈ out, c.span = d.extent
  allocated_eq : b.allocated = grantedBytes out

theorem Sound.scattered (h : b.Sound t out) : Scattered out := by
  refine .of_apart h.apart fun c hc => ?_
  obtain ⟨d, -, hspan⟩ := h.chunk c hc
  rw [show c.grantedSize = d.size from congrArg Extent.size hspan]
  exact d.size_pos

theorem exact_ofBase (base : Block) (order : Nat) : (ofBase base order).Exact [] :=
  ⟨fun _ hd => absurd hd List.not_mem_nil, rfl⟩

namespace Exact

theorem allocate (h : b.Exact out) (size : Nat) :
    (b.allocate size).2.Exact (CarveOut.taken (b.allocate size).1 out) := by
  have hcarve : (b.carve size).2.Exact (CarveOut.taken (b.carve size).1 out) := by
    fun_cases Buddy.carve b size
    case case1 => exact h
    case case2 => exact h
    case case3 hsize order c hfind chunk free hsplit =>
      refine ⟨List.forall_mem_cons.mpr ⟨⟨_, List.mem_cons_self, rfl⟩, fun d hd => ?_⟩, ?_⟩
      · obtain ⟨c, hc, hspan⟩ := h.filled d hd
        exact ⟨c, List.mem_cons_of_mem _ hc, hspan⟩
      · rw [CarveOut.taken, grantedBytes_cons, ← h.allocated_eq, Nat.add_comm]
        rfl
  exact ⟨hcarve.filled, hcarve.allocated_eq⟩

/-- What comes back is a chunk that a client has. -/
theorem release_ok (h : b.Exact out) (hs : b.Sound t out) (hr : b.release handle = (.ok (), b')) :
    ∃ c ∈ out, c.sameStart handle = true ∧ ∃ d ∈ b.live, c.span = d.extent ∧ b'.live = b.live.erase d ∧
      b'.allocated = b.allocated - c.grantedSize := by
  revert hr
  fun_cases Buddy.release b handle
  case case3 howned d hfind =>
    intro hr
    cases hr
    have hd := List.mem_of_find?_eq_some hfind
    have ho : d.offset = handle.offset := by simpa using List.find?_some hfind
    obtain ⟨c, hc, hspan⟩ := h.filled d hd
    have hstart : c.offset = d.offset := congrArg Extent.start hspan
    have hsize : c.grantedSize = d.size := congrArg Extent.size hspan
    refine ⟨c, hc, CarveOut.sameStart_iff.mpr ⟨?_, hstart.trans ho⟩, d, hd, hspan, rfl, by rw [hsize]⟩
    rw [hs.block c hc, CarveOut.requireOwned_eq_ok.mp howned]
  all_goals exact fun hr => by cases hr

theorem release (h : b.Exact out) (hs : b.Sound t out) (handle : CarveOut) :
    (b.release handle).2.Exact (CarveOut.returned (b.release handle).1 handle out) := by
  have hlive := mem_live_release hs.coalesced handle
  rcases hr : b.release handle with ⟨_ | u, b'⟩
  · rwa [release_error hr]
  · rw [hr] at hlive
    obtain ⟨c, hc, hsame, -, -, -, -, hallocated⟩ := h.release_ok hs hr
    refine ⟨fun d hd => ?_, ?_⟩
    · obtain ⟨hd, hnot⟩ := (hlive d).mp hd
      obtain ⟨e, he, hspan⟩ := h.filled d hd
      refine ⟨e, CarveOut.mem_returned_ok.mpr ⟨he, fun hid ho => hnot ⟨?_, ?_⟩⟩, hspan⟩
      · rw [← hid, hs.block e he]
      · exact ho.symm.trans (congrArg Extent.start hspan)
    · rw [hallocated, h.allocated_eq, hs.scattered.grantedBytes_returned hc hsame u, Nat.add_sub_cancel]

/-- Clients have no more than the region. -/
theorem le_total (h : b.Exact out) (hs : b.Sound t out) : b.allocated ≤ b.total := by
  have hle := hs.owned.grantedBytes_le fun c hc => (congrArg Block.requestedSize (hs.block c hc)).trans
    hs.base_size
  rw [h.allocated_eq, total_eq]
  simpa [backing] using hle

end Exact

theorem exact_reset (b : Buddy) : b.reset.Exact [] :=
  ⟨fun _ hd => absurd hd List.not_mem_nil, rfl⟩

end Buddy

/-! ## Slabs -/

namespace SlabCarver

variable {s s' : SlabCarver}

/-- Every cell whose bit is set is a range that a client has, their bytes are counted, and so are those of the
slabs, which fit into the capacity. -/
structure Exact (s : SlabCarver) (out : List CarveOut) : Prop where
  filled : ∀ slab ∈ s.slabs, ∀ i < slab.cells, slab.occupancy.isSet i = true →
    ∃ c ∈ out, c.block = slab.base ∧ c.span = ⟨i * slab.objectSize, slab.objectSize⟩
  asked : ∀ c ∈ out, c.requestedSize = c.grantedSize
  allocated_eq : s.allocated = grantedBytes out
  reserved_eq : s.reserved = s.slabs.length * s.slabSize
  reserved_le : s.reserved ≤ s.total

theorem exact_of_make {total : Nat} {alignment : Alignment} (hm : make total alignment = .ok s) :
    s.Exact [] := by
  rw [make_ok hm]
  exact ⟨fun _ hx => absurd hx List.not_mem_nil, fun _ hc => absurd hc List.not_mem_nil, rfl,
    (Nat.zero_mul _).symm, Nat.zero_le _⟩

theorem Sound.scattered (h : s.Sound t out) : Scattered out := by
  refine .of_apart h.apart fun c hc => ?_
  obtain ⟨slab, hs, i, -, -, -, hspan⟩ := h.cell c hc
  rw [show c.grantedSize = slab.objectSize from congrArg Extent.size hspan]
  exact (h.cut slab hs).object_pos

namespace Exact

theorem carveFrom (h : s.Exact out) (hs : s.Sound t out) {slab : Slab} (hslab : slab ∈ s.slabs) :
    (s.carveFrom slab).2.Exact (CarveOut.taken (s.carveFrom slab).1 out) := by
  fun_cases SlabCarver.carveFrom s slab
  case case1 => exact h
  case case2 index hclear =>
    have hcut := hs.cut slab hslab
    have hlt := (Occupancy.isSet_firstClear hclear).1
    refine ⟨fun y hy i hi hset => ?_, List.forall_mem_cons.mpr ⟨rfl, h.asked⟩, ?_, ?_, h.reserved_le⟩
    · obtain ⟨x, hx, rfl⟩ := mem_update.mp hy
      have hold (hset : x.occupancy.isSet i = true) (hi : i < x.cells) : ∃ c ∈ CarveOut.taken
          (s.grant slab index).1 out, c.block = x.base ∧ c.span = ⟨i * x.objectSize, x.objectSize⟩ := by
        obtain ⟨c, hc, hcell⟩ := h.filled x hx i hi hset
        exact ⟨c, List.mem_cons_of_mem _ hc, hcell⟩
      by_cases he : x.objectSize = slab.objectSize
      · obtain rfl := hs.eq_of_size hx hslab he
        simp only [if_true, Occupancy.isSet_set hcut.fits hlt, Bool.or_eq_true,
          decide_eq_true_eq] at hset hi ⊢
        rcases hset with rfl | hset
        · exact ⟨_, List.mem_cons_self, rfl, rfl⟩
        · exact hold hset hi
      · simp only [if_neg he] at hset hi ⊢
        exact hold hset hi
    · show s.allocated + slab.objectSize = grantedBytes (_ :: out)
      rw [grantedBytes_cons, ← h.allocated_eq, Nat.add_comm]
    · rw [grant, update, List.length_map]
      exact h.reserved_eq

variable [Heap H]

theorem newSlab_ok {size : Nat} {slab : Slab} (h : s.Exact out) (hnew : s.newSlab t size = (.ok slab, s', t')) :
    s'.Exact out := by
  revert hnew
  fun_cases SlabCarver.newSlab s t size
  case case4 cells hcells hroom base t₁ ha new =>
    intro hnew
    obtain ⟨rfl, -⟩ := Prod.mk.inj (Prod.mk.inj hnew).2
    refine ⟨List.forall_mem_append.mpr ⟨h.filled, ?_⟩, h.asked, h.allocated_eq, ?_, Nat.le_of_not_lt hroom⟩
    · intro x hx i _ hset
      rw [List.mem_singleton.mp hx, Occupancy.isSet_empty] at hset
      cases hset
    · rw [List.length_append, List.length_singleton, Nat.succ_mul, h.reserved_eq]
  all_goals exact fun hnew => by cases hnew

theorem allocate (h : s.Exact out) (hs : s.Sound t out) (hn : t.Numbered) (size : Nat) :
    (s.allocate t size).2.1.Exact (CarveOut.taken (s.allocate t size).1 out) := by
  have hcarve : (s.carve t size).2.1.Exact (CarveOut.taken (s.carve t size).1 out) := by
    fun_cases SlabCarver.carve s t size
    case case1 => exact h
    case case2 hsize slab hfind result s₁ hcarve =>
      have hfrom := h.carveFrom hs (slabFor?_eq_some hfind).1
      rwa [hcarve] at hfrom
    case case3 hnew => rwa [(newSlab_refused hnew).1]
    case case4 hsize hnone slab s₁ t₁ hnew result s₂ hcarve =>
      obtain ⟨hs₁, hmem, -⟩ := SlabCarver.newSlab_ok hs hn hsize hnone hnew
      have hfrom := (h.newSlab_ok hnew).carveFrom hs₁ hmem
      rwa [hcarve] at hfrom
  exact ⟨hcarve.filled, hcarve.asked, hcarve.allocated_eq, hcarve.reserved_eq, hcarve.reserved_le⟩

omit [Heap H]

/-- What comes back is a cell that a client has. -/
theorem release_ok (h : s.Exact out) (hr : s.release handle = (.ok (), s')) :
    ∃ slab ∈ s.slabs, ∃ index,
      s' = { s with
        slabs := s.update slab.objectSize fun x => { x with occupancy := x.occupancy.clear index }
        allocated := s.allocated - slab.objectSize
        tally := s.tally.returned } ∧ index < slab.cells ∧
      ∃ c ∈ out, c.sameStart handle = true ∧ c.block = slab.base ∧
        c.span = ⟨index * slab.objectSize, slab.objectSize⟩ := by
  revert hr
  fun_cases SlabCarver.release s handle
  case case4 slab hfind howned index hcell hset =>
    intro hr
    cases hr
    obtain ⟨hslab, -⟩ := slabFor?_eq_some hfind
    obtain ⟨hmod, hlt⟩ := not_or.mp hcell
    have hplace : index * slab.objectSize = handle.offset :=
      Nat.div_mul_cancel (Nat.dvd_of_mod_eq_zero (Decidable.not_not.mp hmod))
    obtain ⟨c, hc, hblock, hspan⟩ := h.filled slab hslab index (Nat.lt_of_not_le hlt) hset
    refine ⟨slab, hslab, index, rfl, Nat.lt_of_not_le hlt, c, hc, CarveOut.sameStart_iff.mpr ⟨?_, ?_⟩,
      hblock, hspan⟩
    · rw [hblock, CarveOut.requireOwned_eq_ok.mp howned]
    · exact (congrArg Extent.start hspan).trans hplace
  all_goals exact fun hr => by cases hr

theorem release (h : s.Exact out) (hs : s.Sound t out) (handle : CarveOut) :
    (s.release handle).2.Exact (CarveOut.returned (s.release handle).1 handle out) := by
  rcases hr : s.release handle with ⟨_ | u, s'⟩
  · rwa [release_refused hr]
  obtain ⟨slab, hslab, index, rfl, hlt, c, hc, hsame, hblock, hspan⟩ := h.release_ok hr
  have hcut := hs.cut slab hslab
  have hstart : c.offset = index * slab.objectSize := congrArg Extent.start hspan
  have hsize : c.grantedSize = slab.objectSize := congrArg Extent.size hspan
  obtain ⟨hid, ho⟩ := CarveOut.sameStart_iff.mp hsame
  -- the range of any other cell starts elsewhere
  have hstays {x : Slab} (hx : x ∈ s.slabs) {i : Nat} (hi : i < x.cells) (hset : x.occupancy.isSet i = true)
      (hne : x = slab → index ≠ i) : ∃ e ∈ CarveOut.returned (.ok u) handle out,
        e.block = x.base ∧ e.span = ⟨i * x.objectSize, x.objectSize⟩ := by
    obtain ⟨e, he, heb, hes⟩ := h.filled x hx i hi hset
    refine ⟨e, CarveOut.mem_returned_ok.mpr ⟨he, fun heid heo => ?_⟩, heb, hes⟩
    obtain rfl : x = slab := hs.eq_of_base hx hslab (by rw [← heb, ← hblock, heid, hid])
    have hplace : i * x.objectSize = index * x.objectSize := by
      rw [← hstart, ho, ← heo]
      exact (congrArg Extent.start hes).symm
    exact hne rfl (Nat.eq_of_mul_eq_mul_right hcut.object_pos hplace).symm
  refine ⟨fun y hy i hi hset => ?_, fun e he => ?_, ?_, ?_, h.reserved_le⟩
  · obtain ⟨x, hx, rfl⟩ := mem_update.mp hy
    by_cases he : x.objectSize = slab.objectSize
    · obtain rfl := hs.eq_of_size hx hslab he
      simp only [if_true, Occupancy.isSet_clear hcut.fits (hcut.len_eq ▸ hlt), Bool.and_eq_true,
        Bool.not_eq_true', decide_eq_false_iff_not] at hset hi ⊢
      exact hstays hx hi hset.2 fun _ => hset.1
    · simp only [if_neg he] at hset hi ⊢
      exact hstays hx hi hset fun hxs => absurd (congrArg Slab.objectSize hxs) he
  · exact h.asked e (List.mem_of_mem_filter he)
  · show s.allocated - slab.objectSize = _
    rw [h.allocated_eq, hs.scattered.grantedBytes_returned hc hsame u, hsize, Nat.add_sub_cancel]
  · rw [update, List.length_map]
    exact h.reserved_eq

/-- Clients have no more than the slabs. -/
theorem le_reserved (h : s.Exact out) (hs : s.Sound t out) : s.allocated ≤ s.reserved := by
  have hle := hs.owned.grantedBytes_le fun c hc => by
    obtain ⟨slab, hslab, -, -, -, hblock, -⟩ := hs.cell c hc
    rw [hblock, (hs.cut slab hslab).base_size]
  rwa [h.allocated_eq, h.reserved_eq, ← List.length_map fun slab : Slab => slab.base.id]

end Exact

theorem exact_reset (s : SlabCarver) [Heap H] (t : Tracker H) : (s.reset t).1.Exact [] :=
  ⟨fun _ hx => absurd hx List.not_mem_nil, fun _ hc => absurd hc List.not_mem_nil, rfl,
    (Nat.zero_mul _).symm, Nat.zero_le _⟩

end SlabCarver

/-! ## Arenas and rings -/

namespace Arena

variable {a : Arena}

/-- The bytes that clients have are counted. -/
def Exact (a : Arena) (out : List CarveOut) : Prop :=
  a.allocated = grantedBytes out

namespace Exact

variable [Heap H]

theorem allocate (h : a.Exact out) (t : Tracker H) (size : Nat) :
    (a.allocate t size).2.1.Exact (CarveOut.taken (a.allocate t size).1 out) := by
  have hgrant {a' a'' : Arena} {start : Nat} {result : Except MemoryError CarveOut}
      (hg : a'.grant start size = (result, a'')) (ha : a'.allocated = a.allocated) :
      a''.Exact (CarveOut.taken result out) := by
    cases hg
    show a'.allocated + size = grantedBytes (_ :: out)
    rw [grantedBytes_cons, ha, h, Nat.add_comm]
  show (a.carve t size).2.1.Exact (CarveOut.taken (a.carve t size).1 out)
  fun_cases Arena.carve a t size
  case case4 heq => exact hgrant heq rfl
  case case5 heq => exact hgrant heq rfl
  all_goals exact h

end Exact

end Arena

namespace RingBuffer

variable {r : RingBuffer}

/-- The bytes that clients have are counted, and they are all the ring has or all before the place for the
next range. -/
structure Exact (r : RingBuffer) (out : List CarveOut) : Prop where
  allocated_eq : r.allocated = grantedBytes out
  le_capacity : r.allocated ≤ r.capacity
  full_eq : r.full = true → r.allocated = r.capacity
  place_eq : r.full = false → r.writePosition = r.allocated

namespace Exact

/-- The ring may take what clients do not have. -/
theorem available_eq (h : r.Exact out) : r.available = r.capacity - r.allocated := by
  unfold available
  split
  · next hf => rw [h.full_eq hf, Nat.sub_self]
  · next hf => rw [h.place_eq (Bool.eq_false_iff.mpr hf)]

theorem allocate (h : r.Exact out) (size : Nat) :
    (r.allocate size).2.Exact (CarveOut.taken (r.allocate size).1 out) := by
  have hcarve : (r.carve size).2.Exact (CarveOut.taken (r.carve size).1 out) := by
    fun_cases RingBuffer.carve r size
    case case1 => exact h
    case case2 => exact h
    case case3 hsize hroom stop =>
      rw [h.available_eq] at hroom
      have hf : r.full = false := Bool.eq_false_iff.mpr fun hf => by
        have := h.full_eq hf
        omega
      have hplace := h.place_eq hf
      have hle := h.le_capacity
      refine ⟨?_, ?_, fun hfull => ?_, fun hfull => ?_⟩
      · show r.allocated + size = grantedBytes (_ :: out)
        rw [grantedBytes_cons, ← h.allocated_eq, Nat.add_comm]
      · show r.allocated + size ≤ r.capacity
        omega
      · have hstop : stop = r.capacity := by simpa using hfull
        show r.allocated + size = r.capacity
        omega
      · have hstop : stop ≠ r.capacity := by simpa using hfull
        show (if stop = r.capacity then 0 else stop) = r.allocated + size
        rw [if_neg hstop]
        omega
  exact ⟨hcarve.allocated_eq, hcarve.le_capacity, hcarve.full_eq, hcarve.place_eq⟩

/-- A request of any bytes succeeds if clients do not have them. -/
theorem allocate_ok_iff (h : r.Exact out) {size : Nat} (hsize : 0 < size) :
    (∃ c, (r.allocate size).1 = .ok c) ↔ size ≤ r.capacity - r.allocated := by
  show (∃ c, (r.carve size).1 = .ok c) ↔ _
  rw [← h.available_eq]
  fun_cases RingBuffer.carve r size
  case case1 hzero => omega
  case case2 hroom => simp [hroom]
  case case3 hroom _ => simpa using hroom

end Exact

theorem exact_reset (r : RingBuffer) : r.reset.Exact [] :=
  ⟨rfl, Nat.zero_le _, fun hf => (by cases hf), fun _ => rfl⟩

theorem exact_of_make [Heap H] {total : Nat} {alignment : Alignment} (hm : make t total alignment = (.ok r, t')) :
    r.Exact [] := by
  revert hm
  fun_cases RingBuffer.make t total alignment
  case case3 =>
    intro hm
    cases hm
    exact ⟨rfl, Nat.zero_le _, fun hf => (by cases hf), fun _ => rfl⟩
  all_goals exact fun hm => by cases hm

end RingBuffer

/-! ## Object pools -/

namespace ObjectPool

variable {p p' : ObjectPool}

/-- Every block of the pool waits or is with a client, and their bytes are counted, which fit into the
capacity; so are those of clients alone. -/
structure Exact (p : ObjectPool) (out : List CarveOut) : Prop where
  filled : ∀ id ∈ p.owned, ∃ c ∈ p.queued ++ out, c.block.id = id
  allocated_eq : p.allocated = grantedBytes out
  used_eq : p.used = grantedBytes (p.queued ++ out)
  used_le : p.used ≤ p.total

theorem exact_of_make {total : Nat} {alignment : Alignment} (hm : make total alignment = .ok p) :
    p.Exact [] := by
  rw [make_ok hm]
  exact ⟨fun _ hid => absurd hid List.not_mem_nil, rfl, rfl, Nat.zero_le _⟩

theorem Sound.scattered (h : p.Sound t out) : Scattered out :=
  (List.pairwise_append.mp h.distinct).2.1.imp fun hne hs => hne (CarveOut.sameStart_iff.mp hs).1

namespace Exact

/-- A block that does not wait is with a client. -/
theorem used_eq_queued (h : p.Exact out) (hs : p.Sound t out) :
    p.used = p.allocated + (p.queued.map fun c => c.block.requestedSize).sum := by
  have hqueued : (p.queued.map fun c => c.block.requestedSize) = p.queued.map CarveOut.grantedSize :=
    List.map_congr_left fun c hc => (hs.whole c (List.mem_append_left _ hc)).granted_eq.symm
  rw [h.used_eq, grantedBytes_append, hqueued, h.allocated_eq, Nat.add_comm]
  rfl

/-- Clients have no more than the capacity. -/
theorem le_total (h : p.Exact out) : p.allocated ≤ p.total := by
  have hused := h.used_eq
  rw [grantedBytes_append, ← h.allocated_eq] at hused
  exact Nat.le_trans (hused ▸ Nat.le_add_left _ _) h.used_le

theorem reuse (h : p.Exact out) {c : CarveOut} (hc : c ∈ p.queued) (hw : c.grantedSize = c.requestedSize) :
    (p.reuse c).Exact (c :: out) := by
  have hp : (p.queued ++ out).Perm ((p.reuse c).queued ++ c :: out) :=
    ((List.perm_cons_erase hc).append_right out).trans List.perm_middle.symm
  refine ⟨fun id hid => ?_, ?_, h.used_eq.trans (grantedBytes_perm hp), h.used_le⟩
  · obtain ⟨d, hd, hdid⟩ := h.filled id hid
    exact ⟨d, hp.mem_iff.mp hd, hdid⟩
  · show p.allocated + c.requestedSize = _
    rw [grantedBytes_cons, h.allocated_eq, hw, Nat.add_comm]

theorem allocate [Heap H] (h : p.Exact out) (hs : p.Sound t out) (size : Nat) :
    (p.allocate t size).2.1.Exact (CarveOut.taken (p.allocate t size).1 out) := by
  have hcarve : (p.carve t size).2.1.Exact (CarveOut.taken (p.carve t size).1 out) := by
    fun_cases ObjectPool.carve p t size
    case case2 hsize c hfind =>
      have hc := List.mem_of_find?_eq_some hfind
      have hw := hs.whole c (List.mem_append_left _ hc)
      exact h.reuse hc (hw.granted_eq.trans hw.requested_eq.symm)
    case case5 hsize hnone hroom block t' ha =>
      have hp : (p.queued ++ { block, offset := 0, grantedSize := size, requestedSize := size } :: out).Perm
          ({ block, offset := 0, grantedSize := size, requestedSize := size } :: (p.queued ++ out)) :=
        List.perm_middle
      refine ⟨List.forall_mem_cons.mpr ⟨⟨_, hp.mem_iff.mpr List.mem_cons_self, rfl⟩, fun id hid => ?_⟩, ?_, ?_,
        Nat.le_of_not_lt hroom⟩
      · obtain ⟨c, hc, hcid⟩ := h.filled id hid
        exact ⟨c, hp.mem_iff.mpr (List.mem_cons_of_mem _ hc), hcid⟩
      · show p.allocated + size = grantedBytes (_ :: out)
        rw [grantedBytes_cons, h.allocated_eq, Nat.add_comm]
      · show p.used + size = grantedBytes (p.queued ++ _ :: out)
        rw [grantedBytes_perm hp, grantedBytes_cons, h.used_eq, Nat.add_comm]
    all_goals exact h
  exact ⟨hcarve.filled, hcarve.allocated_eq, hcarve.used_eq, hcarve.used_le⟩

/-- What comes back is a block that a client has. -/
theorem release_ok (h : p.Exact out) (hs : p.Sound t out) (hn : t.Numbered)
    (hw : handle.block.id ∈ p.owned → p.IsWhole t handle) (hr : p.release t handle = (.ok (), p')) :
    handle ∈ out ∧ p' = { p with
      queued := p.queued ++ [handle]
      allocated := p.allocated - handle.requestedSize
      tally := p.tally.returned } := by
  revert hr
  fun_cases ObjectPool.release p t handle
  case case5 id howned hsize hlive hholds =>
    intro hr
    cases hr
    have hown : id ∈ p.owned := Decidable.not_not.mp (not_or.mp howned).2
    have hwh := hw hown
    obtain ⟨c, hc, hid⟩ := h.filled id hown
    have hwc := hs.whole c hc
    -- a block is handed out as a whole, so it is the handle that is with a client or waits
    have hblock : c.block = handle.block := hn.unique _ hwc.block_mem _ hwh.block_mem hid
    have heq : c = handle := by rw [hwc.eq_whole, hwh.eq_whole, hblock]
    rw [heq] at hc
    refine ⟨(List.mem_append.mp hc).resolve_left fun hq => hholds ?_, rfl⟩
    exact List.any_eq_true.mpr ⟨handle, List.mem_filter.mpr ⟨hq, beq_self_eq_true _⟩, beq_self_eq_true _⟩
  all_goals exact fun hr => by cases hr

theorem release (h : p.Exact out) (hs : p.Sound t out) (hn : t.Numbered)
    (hw : handle.block.id ∈ p.owned → p.IsWhole t handle) :
    (p.release t handle).2.Exact (CarveOut.returned (p.release t handle).1 handle out) := by
  rcases hr : p.release t handle with ⟨_ | u, p'⟩
  · rwa [release_refused hr]
  obtain ⟨hmem, rfl⟩ := h.release_ok hs hn hw hr
  have hwh := hs.whole_out hmem
  have hself : handle.sameStart handle = true := CarveOut.sameStart_iff.mpr ⟨rfl, rfl⟩
  have hp : (p.queued ++ out).Perm ((p.queued ++ [handle]) ++ CarveOut.returned (.ok u) handle out) := by
    rw [List.append_assoc]
    exact (hs.scattered.perm_returned hmem hself u).append_left p.queued
  refine ⟨fun id hid => ?_, ?_, h.used_eq.trans (grantedBytes_perm hp), h.used_le⟩
  · obtain ⟨c, hc, hcid⟩ := h.filled id hid
    exact ⟨c, hp.mem_iff.mp hc, hcid⟩
  · show p.allocated - handle.requestedSize = _
    rw [h.allocated_eq, hs.scattered.grantedBytes_returned hmem hself u,
      hwh.requested_eq.trans hwh.granted_eq.symm, Nat.add_sub_cancel]

end Exact

theorem used_forget (p : ObjectPool) (ranges : List CarveOut) :
    (ranges.foldl forget p).used = p.used - (ranges.map CarveOut.requestedSize).sum ∧
      (ranges.foldl forget p).total = p.total := by
  induction ranges generalizing p with
  | nil => exact ⟨rfl, rfl⟩
  | cons c ranges ih =>
    obtain ⟨hused, htotal⟩ := ih (p.forget c)
    refine ⟨hused.trans ?_, htotal⟩
    rw [List.map_cons, List.sum_cons, ← Nat.sub_sub]
    rfl

/-- The blocks that clients have stay. -/
theorem Exact.reset [Heap H] (h : p.Exact out) (hs : p.Sound t out) : (p.reset t).2.1.Exact out := by
  have hpool : (p.drain t p.queued).2.1 = p.queued.foldl forget p := p.drain_pool t p.queued
  obtain ⟨hused, htotal⟩ := p.used_forget p.queued
  have hqueued : (p.queued.map CarveOut.requestedSize).sum = grantedBytes p.queued := by
    refine congrArg List.sum (List.map_congr_left fun c hc => ?_)
    have hw := hs.whole c (List.mem_append_left _ hc)
    exact hw.requested_eq.trans hw.granted_eq.symm
  have hleft : (p.drain t p.queued).2.1.used = grantedBytes out := by
    rw [hpool, hused, hqueued, h.used_eq, grantedBytes_append, Nat.add_sub_cancel_left]
  refine ⟨fun id hid => ?_, hleft, hleft, ?_⟩
  · obtain ⟨hid, hnot⟩ := (p.mem_owned_reset t).mp hid
    obtain ⟨c, hc, rfl⟩ := h.filled id hid
    exact ⟨c, (List.mem_append.mp hc).resolve_left fun hq => hnot (List.mem_map_of_mem hq), rfl⟩
  · show (p.drain t p.queued).2.1.used ≤ (p.drain t p.queued).2.1.total
    rw [hpool, hused, htotal]
    exact Nat.le_trans (Nat.sub_le _ _) h.used_le

end ObjectPool

end TrackedHeap
