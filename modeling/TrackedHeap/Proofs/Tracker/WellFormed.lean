import Mathlib.Data.List.Nodup
import Mathlib.Data.List.Pairwise
import TrackedHeap.Proofs.Heap.Lawful
import TrackedHeap.Tracker.Access
import TrackedHeap.Tracker.Allocation

/-!
# Well-formed trackers

The invariant that ties a tracker to the heap below it (`Tracker.WellFormed`): the ranges outstanding in
the heap are those of the live blocks, each block is placed in its range as its alignment asks
(`Block.Placed`), no two ranges share a byte, and ids rise and are below the next one.

Every operation of a tracker keeps it, whatever handle it is given, because a handle only selects a live
block: `WellFormed.allocate`, `WellFormed.free`, `WellFormed.reallocate` and one lemma for each access.
On the way, each operation is shown to call the heap within its contract; that is what the laws of
`LawfulHeap` ask for.
-/

namespace TrackedHeap

/-- A block of some bytes takes some bytes of the heap. -/
theorem Alignment.paddedSize_pos {a : Alignment} {size padded : Nat} (hsize : ¬ size = 0)
    (hp : a.paddedSize size = .ok padded) : 0 < padded := by
  have := (paddedSize_eq_ok.mp hp).1
  omega

namespace Block

/-- The range that the heap granted. -/
def extent (b : Block) : Extent where
  start := b.rawAddress
  size := b.paddedSize

/-- The range that a client may use. -/
def usable (b : Block) : Extent where
  start := b.address
  size := b.requestedSize

/-- The block lies in its range as its alignment asks. -/
structure Placed (b : Block) : Prop where
  address_eq : b.address = b.alignment.alignUp b.rawAddress
  padded_eq : b.paddedSize = b.requestedSize + (b.alignment.bytes - 1)
  size_pos : 0 < b.requestedSize
  raw_pos : 0 < b.rawAddress
  fits : b.rawAddress + b.paddedSize ≤ Word.limit

theorem place_placed {id raw size padded now : Nat} {alignment : Alignment} (hsize : 0 < size)
    (hp : alignment.paddedSize size = .ok padded) (hraw : 0 < raw)
    (hfits : raw + padded ≤ Word.limit) : (place id raw size padded alignment now).Placed where
  address_eq := rfl
  padded_eq := (Alignment.paddedSize_eq_ok.mp hp).1.symm
  size_pos := hsize
  raw_pos := hraw
  fits := hfits

namespace Placed

variable {b c : Block}

theorem padded_pos (h : b.Placed) : 0 < b.paddedSize := by
  have := h.size_pos
  rw [h.padded_eq]
  omega

theorem raw_le (h : b.Placed) : b.rawAddress ≤ b.address := by
  rw [h.address_eq]
  exact b.alignment.le_alignUp _

/-- The usable range starts less than one multiple of the alignment into the granted one. -/
theorem padding_lt (h : b.Placed) : b.address - b.rawAddress < b.alignment.bytes := by
  have := b.alignment.alignUp_lt b.rawAddress
  have := b.alignment.bytes_pos
  rw [h.address_eq]
  omega

theorem stop_le (h : b.Placed) : b.address + b.requestedSize ≤ b.rawAddress + b.paddedSize := by
  have := h.padding_lt
  have := h.raw_le
  rw [h.padded_eq]
  omega

/-- The usable range lies inside the granted one. -/
theorem covers_usable (h : b.Placed) : b.extent.Covers b.address b.requestedSize :=
  ⟨h.raw_le, h.stop_le⟩

/-- An access within the bounds of the block lies inside the granted range. -/
theorem covers (h : b.Placed) {offset length : Nat} (hl : offset + length ≤ b.requestedSize) :
    b.extent.Covers (b.address + offset) length := by
  have := h.raw_le
  have := h.stop_le
  constructor <;> simp only [extent] <;> omega

theorem usable_apart (hb : b.Placed) (hc : c.Placed) (h : b.extent.Apart c.extent) :
    b.usable.Apart c.usable :=
  ((h.of_covers hb.covers_usable).symm.of_covers hc.covers_usable).symm

/-- Blocks in ranges that are apart are in different ranges. -/
theorem extent_ne (hb : b.Placed) (h : b.extent.Apart c.extent) : b.extent ≠ c.extent :=
  h.ne hb.padded_pos

end Placed

end Block

/-- Blocks with ids below `nextId` in ranges of their own, by rising id. -/
structure Layout (blocks : List Block) (nextId : Nat) : Prop where
  placed : ∀ b ∈ blocks, b.Placed
  apart : blocks.Pairwise fun b c => b.extent.Apart c.extent
  rising : blocks.Pairwise fun b c => b.id < c.id
  issued : ∀ b ∈ blocks, b.id < nextId

namespace Layout

variable {blocks : List Block} {nextId : Nat} {b c : Block}

theorem nil (nextId : Nat) : Layout [] nextId where
  placed _ hb := absurd hb List.not_mem_nil
  apart := List.Pairwise.nil
  rising := List.Pairwise.nil
  issued _ hb := absurd hb List.not_mem_nil

theorem filter (h : Layout blocks nextId) (p : Block → Bool) : Layout (blocks.filter p) nextId where
  placed b hb := h.placed b (List.mem_filter.mp hb).1
  apart := h.apart.filter p
  rising := h.rising.filter p
  issued b hb := h.issued b (List.mem_filter.mp hb).1

/-- One more block, under the next id. -/
theorem concat (h : Layout blocks nextId) (hp : b.Placed) (hid : b.id = nextId)
    (ha : ∀ c ∈ blocks, c.extent.Apart b.extent) : Layout (blocks ++ [b]) (nextId + 1) where
  placed c hc := by
    rcases List.mem_append.mp hc with hc | hc
    · exact h.placed c hc
    · rwa [List.mem_singleton.mp hc]
  apart := by
    refine List.pairwise_append.mpr ⟨h.apart, List.pairwise_singleton .., fun c hc d hd => ?_⟩
    rw [List.mem_singleton.mp hd]
    exact ha c hc
  rising := by
    refine List.pairwise_append.mpr ⟨h.rising, List.pairwise_singleton .., fun c hc d hd => ?_⟩
    rw [List.mem_singleton.mp hd, hid]
    exact h.issued c hc
  issued c hc := by
    rcases List.mem_append.mp hc with hc | hc
    · exact Nat.lt_succ_of_lt (h.issued c hc)
    · rw [List.mem_singleton.mp hc, hid]
      exact Nat.lt_succ_self _

/-- No two blocks have one id. -/
theorem nodup_ids (h : Layout blocks nextId) : (blocks.map Block.id).Nodup :=
  List.pairwise_map.mpr (h.rising.imp fun hlt => Nat.ne_of_lt hlt)

theorem eq_of_id (h : Layout blocks nextId) (hb : b ∈ blocks) (hc : c ∈ blocks)
    (hid : b.id = c.id) : b = c :=
  List.inj_on_of_nodup_map h.nodup_ids hb hc hid

/-- Two blocks are in ranges that share no byte. -/
theorem extent_apart (h : Layout blocks nextId) (hb : b ∈ blocks) (hc : c ∈ blocks)
    (hne : b.id ≠ c.id) : b.extent.Apart c.extent := by
  have : Std.Symm fun b c : Block => b.extent.Apart c.extent := ⟨fun _ _ => Extent.Apart.symm⟩
  exact h.apart.forall hb hc fun e => hne (congrArg Block.id e)

theorem extent_ne (h : Layout blocks nextId) (hb : b ∈ blocks) (hc : c ∈ blocks)
    (hne : b.id ≠ c.id) : b.extent ≠ c.extent :=
  (h.placed b hb).extent_ne (h.extent_apart hb hc hne)

/-- The range of a block is that of no other one. -/
theorem eq_of_extent (h : Layout blocks nextId) (hb : b ∈ blocks) (hc : c ∈ blocks)
    (he : b.extent = c.extent) : b = c := by
  by_contra hne
  exact h.extent_ne hb hc (fun e => hne (h.eq_of_id hb hc e)) he

/-- The usable ranges of two blocks share no byte. -/
theorem usable_apart (h : Layout blocks nextId) (hb : b ∈ blocks) (hc : c ∈ blocks)
    (hne : b.id ≠ c.id) : b.usable.Apart c.usable :=
  (h.placed b hb).usable_apart (h.placed c hc) (h.extent_apart hb hc hne)

end Layout

theorem exists_extent_concat {blocks : List Block} {b : Block} {e : Extent} :
    (∃ c ∈ blocks ++ [b], c.extent = e) ↔ e = b.extent ∨ ∃ c ∈ blocks, c.extent = e := by
  simp only [List.mem_append, List.mem_singleton, or_and_right, exists_or, exists_eq_left]
  rw [or_comm, eq_comm]

/-- A width that is accepted is not 0 and divides the length. -/
theorem CopyMode.dvd_of_validate {width length : Nat}
    (h : (byteSwap width).validate length = .ok ()) : width ≠ 0 ∧ width ∣ length := by
  simp only [validate] at h
  split at h
  · simp at h
  · split at h
    · simp at h
    · next hw hd => exact ⟨by omega, Nat.dvd_of_mod_eq_zero (Decidable.not_not.mp hd)⟩

namespace Tracker

variable {H : Type}

/-! ## Looking up blocks -/

theorem mem_of_lookup {t : Tracker H} {id : Nat} {b : Block} (h : t.lookup id = some b) :
    b ∈ t.blocks ∧ b.id = id :=
  ⟨List.mem_of_find?_eq_some h, by simpa using List.find?_some h⟩

/-- The ids that name something are those of the live blocks. -/
theorem isSome_lookup_iff {t : Tracker H} {id : Nat} :
    (t.lookup id).isSome ↔ id ∈ t.blocks.map Block.id := by
  simp [lookup, List.mem_map]

/-- The handle of a block that has just joined the live ones names it. -/
theorem isLive_of_concat {t t' : Tracker H} {b : Block} (h : t'.blocks = t.blocks ++ [b]) :
    t'.isLive b = true := by
  refine isSome_lookup_iff.mpr (List.mem_map_of_mem (f := Block.id) ?_)
  rw [h]
  exact List.mem_append_right _ (List.mem_singleton_self b)

theorem lookup_eq_none_iff {t : Tracker H} {id : Nat} :
    t.lookup id = none ↔ ∀ b ∈ t.blocks, b.id ≠ id := by
  simp [lookup]

theorem isLive_eq_false_iff {t : Tracker H} {handle : Block} :
    t.isLive handle = false ↔ t.lookup handle.id = none := by
  unfold isLive
  rw [Option.isSome_eq_false_iff, Option.isNone_iff_eq_none]

theorem mem_others {t : Tracker H} {id : Nat} {b : Block} :
    b ∈ t.others id ↔ b ∈ t.blocks ∧ b.id ≠ id := by
  simp [others]

theorem others_of_lookup_eq_none {t : Tracker H} {id : Nat} (h : t.lookup id = none) :
    t.others id = t.blocks :=
  List.filter_eq_self.mpr fun b hb => bne_iff_ne.mpr (lookup_eq_none_iff.mp h b hb)

theorem locate_eq_ok {t : Tracker H} {handle : Block} {offset length address : Nat}
    (hl : t.locate handle offset length = .ok address) :
    ∃ b ∈ t.blocks, b.id = handle.id ∧ offset + length ≤ b.requestedSize ∧
      address = b.address + offset := by
  revert hl
  fun_cases Tracker.locate t handle offset length
  case case3 live hlive stop hstop hle =>
    obtain ⟨hb, hid⟩ := mem_of_lookup hlive
    have hsum := (Word.add?_eq_some.mp hstop).1
    intro hl
    exact ⟨live, hb, hid, by omega, (Except.ok.inj hl).symm⟩
  all_goals exact fun hl => absurd hl (by simp)

variable [Heap H] [LawfulHeap H]

open LawfulHeap (Sound Granted)

/-- The tracker and the heap below it agree on what is outstanding. -/
structure WellFormed (t : Tracker H) : Prop where
  sound : Sound t.heap
  granted_iff : ∀ e, Granted t.heap e ↔ ∃ b ∈ t.blocks, b.extent = e
  layout : Layout t.blocks t.nextId

/-- A tracker that has handed out nothing, over a heap that has granted nothing. -/
theorem wellFormed_ofHeap {heap : H} {budget : Option Nat} (hs : Sound heap)
    (hg : ∀ e, ¬ Granted heap e) : (ofHeap heap budget).WellFormed where
  sound := hs
  granted_iff e := by simp [ofHeap, hg e]
  layout := Layout.nil _

namespace WellFormed

variable {t : Tracker H} {b : Block}

theorem granted (h : t.WellFormed) (hb : b ∈ t.blocks) : Granted t.heap b.extent :=
  (h.granted_iff _).mpr ⟨b, hb, rfl⟩

theorem lookup_eq_some_iff (h : t.WellFormed) {id : Nat} :
    t.lookup id = some b ↔ b ∈ t.blocks ∧ b.id = id := by
  refine ⟨mem_of_lookup, fun ⟨hb, hid⟩ => ?_⟩
  cases hl : t.lookup id with
  | none => exact absurd hid (lookup_eq_none_iff.mp hl b hb)
  | some c =>
    obtain ⟨hc, hcid⟩ := mem_of_lookup hl
    rw [h.layout.eq_of_id hc hb (hcid.trans hid.symm)]

/-- A live block does not have the id that the next one gets. -/
theorem id_ne_nextId (h : t.WellFormed) {handle : Block} (hlive : t.isLive handle = true) :
    handle.id ≠ t.nextId := by
  obtain ⟨live, hl⟩ := Option.isSome_iff_exists.mp hlive
  obtain ⟨hm, hid⟩ := mem_of_lookup hl
  rw [← hid]
  exact Nat.ne_of_lt (h.layout.issued live hm)

/-! ## Changes of state -/

/-- Another state of the heap in which the same ranges are outstanding. -/
theorem with_heap (h : t.WellFormed) {heap : H} (hs : Sound heap)
    (hg : ∀ e, Granted heap e ↔ Granted t.heap e) : { t with heap }.WellFormed where
  sound := hs
  granted_iff e := (hg e).trans (h.granted_iff e)
  layout := h.layout

theorem advance (h : t.WellFormed) (n : Nat) : (t.advance n).WellFormed where
  sound := h.sound
  granted_iff := h.granted_iff
  layout := h.layout

/-- The ranges of the other live blocks are those that are outstanding but one. -/
theorem granted_others_iff (h : t.WellFormed) (hb : b ∈ t.blocks) (e : Extent) :
    (Granted t.heap e ∧ e ≠ b.extent) ↔ ∃ c ∈ t.others b.id, c.extent = e := by
  simp only [h.granted_iff, mem_others]
  constructor
  · rintro ⟨⟨c, hc, rfl⟩, hne⟩
    exact ⟨c, ⟨hc, fun hid => hne (by rw [h.layout.eq_of_id hc hb hid])⟩, rfl⟩
  · rintro ⟨c, ⟨hc, hid⟩, rfl⟩
    exact ⟨⟨c, hc, rfl⟩, fun he => hid (congrArg Block.id (h.layout.eq_of_extent hc hb he))⟩

/-! ## Taking, returning and resizing blocks -/

theorem allocate (h : t.WellFormed) (size : Nat) (alignment : Alignment) :
    (t.allocate size alignment).2.WellFormed := by
  fun_cases Tracker.allocate t size alignment
  case case1 => exact h
  case case2 => exact h
  case case3 hsize padded hp error heap ha =>
    have hpos := Alignment.paddedSize_pos hsize hp
    obtain ⟨hs, hg⟩ := LawfulHeap.alloc_error h.sound hpos ha
    exact h.with_heap hs hg
  case case4 hsize padded hp heap ha =>
    have hpos := Alignment.paddedSize_pos hsize hp
    obtain ⟨-, hf, -⟩ := LawfulHeap.alloc_ok h.sound hpos ha
    exact absurd hf.start_pos (Nat.lt_irrefl 0)
  case case5 hsize padded hp raw heap ha hraw block =>
    have hpos := Alignment.paddedSize_pos hsize hp
    obtain ⟨hs, hf, hg⟩ := LawfulHeap.alloc_ok h.sound hpos ha
    have hb : block.Placed :=
      Block.place_placed (Nat.pos_of_ne_zero hsize) hp hf.start_pos hf.fits
    refine ⟨hs, fun e => ?_, h.layout.concat hb rfl fun c hc => hf.apart _ (h.granted hc)⟩
    rw [hg, h.granted_iff, exists_extent_concat]
    exact Iff.rfl

theorem free (h : t.WellFormed) (handle : Block) : (t.free handle).2.WellFormed := by
  fun_cases Tracker.free t handle
  case case1 => exact h
  case case2 live hl =>
    obtain ⟨hb, -⟩ := mem_of_lookup hl
    obtain ⟨hs, hg⟩ := LawfulHeap.release h.sound (h.granted hb)
    exact ⟨hs, fun e => (hg e).trans (h.granted_others_iff hb e), h.layout.filter _⟩

/-- The bytes that a resized block keeps lie inside its new range, before and after they are moved. -/
theorem realign_covers {old resized : Block} (ho : old.Placed) (hr : resized.Placed)
    (ha : resized.alignment = old.alignment) :
    resized.extent.Covers (resized.rawAddress + old.padding)
        (min old.requestedSize resized.requestedSize) ∧
      resized.extent.Covers resized.address (min old.requestedSize resized.requestedSize) := by
  have := ho.padding_lt
  have := hr.raw_le
  have := hr.stop_le
  have hpad := hr.padded_eq
  rw [ha] at hpad
  constructor <;> constructor <;> simp only [Block.extent, Block.padding] <;> omega

/-- Moving the bytes of a resized block changes no grant. -/
theorem sound_realign {heap : H} {old resized : Block} (hs : Sound heap)
    (hg : Granted heap resized.extent) (ho : old.Placed) (hr : resized.Placed)
    (ha : resized.alignment = old.alignment) :
    Sound (realign heap old resized) ∧
      ∀ e, Granted (realign heap old resized) e ↔ Granted heap e := by
  unfold realign
  split
  · exact ⟨hs, fun _ => Iff.rfl⟩
  · obtain ⟨h₁, h₂⟩ := realign_covers ho hr ha
    exact LawfulHeap.copy hs hg hg h₁ h₂

theorem reallocate (h : t.WellFormed) (handle : Block) (size : Nat) :
    (t.reallocate handle size).2.WellFormed := by
  fun_cases Tracker.reallocate t handle size
  case case1 => exact h
  case case2 => exact h
  case case3 => exact h
  case case4 hsize old hl padded hp error heap ha =>
    have hpos := Alignment.paddedSize_pos hsize hp
    obtain ⟨hb, -⟩ := mem_of_lookup hl
    obtain ⟨hs, hg⟩ := LawfulHeap.realloc_error h.sound (h.granted hb) hpos ha
    exact h.with_heap hs hg
  case case5 hsize old hl padded hp raw heap ha resized =>
    have hpos := Alignment.paddedSize_pos hsize hp
    obtain ⟨hb, -⟩ := mem_of_lookup hl
    obtain ⟨hs, hf, hg⟩ := LawfulHeap.realloc_ok h.sound (h.granted hb) hpos ha
    have hr : resized.Placed :=
      Block.place_placed (Nat.pos_of_ne_zero hsize) hp hf.start_pos hf.fits
    obtain ⟨hs', hg'⟩ := sound_realign hs ((hg _).mpr (.inl rfl)) (h.layout.placed old hb) hr rfl
    have hiff := h.granted_others_iff hb
    refine ⟨hs', fun e => ?_, (h.layout.filter _).concat hr rfl fun c hc => ?_⟩
    · rw [hg', hg, exists_extent_concat]
      exact or_congr Iff.rfl (hiff e)
    · exact hf.apart _ ((hiff _).mpr ⟨c, hc, rfl⟩)

/-! ## Reading and writing blocks -/

/-- What a handle gives access to lies inside one outstanding range. -/
theorem covers_of_locate (h : t.WellFormed) {handle : Block} {offset length address : Nat}
    (hl : t.locate handle offset length = .ok address) :
    ∃ b ∈ t.blocks, b.id = handle.id ∧ Granted t.heap b.extent ∧ b.extent.Covers address length := by
  obtain ⟨b, hb, hid, hle, rfl⟩ := locate_eq_ok hl
  exact ⟨b, hb, hid, h.granted hb, (h.layout.placed b hb).covers hle⟩

theorem fill (h : t.WellFormed) (handle : Block) (offset length : Nat) (byte : UInt8) :
    (t.fill handle offset length byte).2.WellFormed := by
  fun_cases Tracker.fill t handle offset length byte
  case case1 => exact h
  case case2 address hl =>
    obtain ⟨b, -, -, hg, hc⟩ := h.covers_of_locate hl
    obtain ⟨hs, hg⟩ := LawfulHeap.fill byte h.sound hg hc
    exact h.with_heap hs hg

theorem write (h : t.WellFormed) (handle : Block) (offset : Nat) (bytes : List UInt8) :
    (t.write handle offset bytes).2.WellFormed := by
  fun_cases Tracker.write t handle offset bytes
  case case1 => exact h
  case case2 address hl =>
    obtain ⟨b, -, -, hg, hc⟩ := h.covers_of_locate hl
    obtain ⟨hs, hg⟩ := LawfulHeap.store h.sound hg hc
    exact h.with_heap hs hg

theorem copy (h : t.WellFormed) (source : Block) (sourceOffset : Nat) (target : Block)
    (targetOffset length : Nat) (mode : CopyMode) :
    (t.copy source sourceOffset target targetOffset length mode).2.WellFormed := by
  fun_cases Tracker.copy t source sourceOffset target targetOffset length mode
  case case1 => exact h
  case case2 => exact h
  case case3 => exact h
  case case4 start hsource stop htarget hv =>
    obtain ⟨b, -, -, hg, hc⟩ := h.covers_of_locate hsource
    obtain ⟨b', -, -, hg', hc'⟩ := h.covers_of_locate htarget
    obtain ⟨hs, hg⟩ := LawfulHeap.copy h.sound hg hg' hc hc'
    exact h.with_heap hs hg
  case case5 start hsource stop htarget width hv =>
    obtain ⟨b, -, -, hg, hc⟩ := h.covers_of_locate hsource
    obtain ⟨b', -, -, hg', hc'⟩ := h.covers_of_locate htarget
    obtain ⟨hw, hd⟩ := CopyMode.dvd_of_validate hv
    obtain ⟨hs, hg⟩ := LawfulHeap.copySwapped h.sound hg hg' hc hc' hw hd
    exact h.with_heap hs hg

end WellFormed

end Tracker

end TrackedHeap
