import TrackedHeap.Proofs.Tracker.WellFormed

/-!
# Blocks do not disturb one another

What is read through a handle is settled by the live block of its id and the bytes of the heap in the
range of that block (`Tracker.read_congr`). An operation on one block changes bytes of that block's range
only, and ranges share no byte, so whatever is read through other live blocks stays the same:
`WellFormed.read_allocate`, `WellFormed.read_free`, `WellFormed.read_reallocate`, and
`WellFormed.read_fill`, `WellFormed.read_write`, `WellFormed.read_copy`, which also leave alone the bytes of
their own block outside the named range.
-/

namespace TrackedHeap

namespace Memory

theorem copySwapped_of_not_mem {m : Memory} {source target length width a : Nat}
    (h : a < target ∨ target + length ≤ a) : m.copySwapped source target length width a = m a := by
  exact if_neg (by omega)

/-- Memories that agree on a range read the same there. -/
theorem read_of_sameBytes {m m' : Memory} {start length : Nat}
    (h : Extent.SameBytes ⟨start, length⟩ m m') : m'.read start length = m.read start length := by
  refine List.map_congr_left fun i hi => ?_
  have := List.mem_range.mp hi
  exact h (start + i) (Nat.le_add_right _ _) (Nat.add_lt_add_left this start)

end Memory

namespace Extent

variable {d e : Extent} {m m' : Memory} {start length : Nat}

theorem SameBytes.of_covers (h : e.SameBytes m m') (hc : e.Covers start length) :
    SameBytes ⟨start, length⟩ m m' := fun a ha ha' =>
  h a (Nat.le_trans hc.1 ha) (Nat.lt_of_lt_of_le ha' hc.2)

/-- A byte of one range lies outside any other that is apart from it. -/
theorem Apart.outside (h : d.Apart e) {a : Nat} (ha : e.start ≤ a) (ha' : a < e.start + e.size) :
    a < d.start ∨ d.start + d.size ≤ a := by
  unfold Apart at h
  omega

theorem Apart.fill (h : Apart ⟨start, length⟩ e) (byte : UInt8) :
    e.SameBytes m (m.fill start length byte) := fun _ ha ha' =>
  Memory.fill_of_not_mem (h.outside ha ha')

theorem Apart.store {bytes : List UInt8} (h : Apart ⟨start, bytes.length⟩ e) :
    e.SameBytes m (m.store start bytes) := fun _ ha ha' =>
  Memory.store_of_not_mem (h.outside ha ha')

theorem Apart.copy (h : Apart ⟨start, length⟩ e) (source : Nat) :
    e.SameBytes m (m.copy source start length) := fun _ ha ha' =>
  Memory.copy_of_not_mem (h.outside ha ha')

theorem Apart.copySwapped (h : Apart ⟨start, length⟩ e) (source width : Nat) :
    e.SameBytes m (m.copySwapped source start length width) := fun _ ha ha' =>
  Memory.copySwapped_of_not_mem (h.outside ha ha')

end Extent

namespace Tracker

variable {H : Type} [Heap H]

omit [Heap H] in
/-- An access is checked against the live block alone. -/
theorem locate_congr {t t' : Tracker H} {handle : Block} {offset length : Nat}
    (h : t'.lookup handle.id = t.lookup handle.id) :
    t'.locate handle offset length = t.locate handle offset length := by
  unfold locate
  rw [h]

/-- What is read is settled by the live block and the bytes in the range that is read. -/
theorem read_congr {t t' : Tracker H} {handle : Block} {offset length : Nat}
    (h : t'.lookup handle.id = t.lookup handle.id)
    (hb : ∀ address, t.locate handle offset length = .ok address →
      Extent.SameBytes ⟨address, length⟩ (Heap.memory t.heap) (Heap.memory t'.heap)) :
    t'.read handle offset length = t.read handle offset length := by
  rw [read_eq, read_eq, locate_congr h]
  split
  · rfl
  · next address hl => rw [Memory.read_of_sameBytes (hb address hl)]

/-- Every access through a handle reads the same in both states. -/
def ReadsSame (t t' : Tracker H) (handle : Block) : Prop :=
  ∀ offset length, t'.read handle offset length = t.read handle offset length

open LawfulHeap (Sound Granted)

/-- In another state of the heap, outstanding ranges have changed inside the named range only. -/
def ChangesWithin [LawfulHeap H] (t : Tracker H) (heap : H) (start length : Nat) : Prop :=
  ∀ e, Granted t.heap e → ∀ s l, e.Covers s l → Extent.Apart ⟨start, length⟩ ⟨s, l⟩ →
    Extent.SameBytes ⟨s, l⟩ (Heap.memory t.heap) (Heap.memory heap)

namespace WellFormed

/-- The live block of an id is the same in states that have the same blocks of that id. -/
theorem lookup_congr [LawfulHeap H] {t t' : Tracker H} (h : t.WellFormed) (h' : t'.WellFormed)
    {id : Nat} (hb : ∀ b : Block, b.id = id → (b ∈ t'.blocks ↔ b ∈ t.blocks)) :
    t'.lookup id = t.lookup id := by
  refine Option.ext fun b => ?_
  rw [h.lookup_eq_some_iff, h'.lookup_eq_some_iff]
  exact and_congr_left (hb b)

variable [LawfulBytes H] {t : Tracker H}

/-- Accesses to other blocks, and to other parts of the block, miss what has changed. -/
theorem read_of_changesWithin (h : t.WellFormed) {heap : H} {target handle : Block}
    {offset length address : Nat} (hl : t.locate target offset length = .ok address)
    (hc : t.ChangesWithin heap address length) {o l : Nat}
    (hd : handle.id ≠ target.id ∨ o + l ≤ offset ∨ offset + length ≤ o) :
    { t with heap }.read handle o l = t.read handle o l := by
  refine read_congr rfl fun place hplace => ?_
  obtain ⟨b, hb, hbid, hble, rfl⟩ := locate_eq_ok hl
  obtain ⟨c, hm, hcid, hcle, rfl⟩ := locate_eq_ok hplace
  refine hc c.extent (h.granted hm) _ _ ((h.layout.placed c hm).covers hcle) ?_
  by_cases hid : c.id = b.id
  · obtain rfl := h.layout.eq_of_id hm hb hid
    have := hd.resolve_left (fun hne => hne (hcid.symm.trans (hid.trans hbid)))
    unfold Extent.Apart
    simp only
    omega
  · have := (h.layout.usable_apart hb hm fun e => hid e.symm)
    unfold Extent.Apart Block.usable at *
    simp only at *
    omega

/-! ## Accesses -/

theorem read_fill (h : t.WellFormed) (target : Block) (offset length : Nat) (byte : UInt8)
    {handle : Block} {o l : Nat}
    (hd : handle.id ≠ target.id ∨ o + l ≤ offset ∨ offset + length ≤ o) :
    (t.fill target offset length byte).2.read handle o l = t.read handle o l := by
  fun_cases Tracker.fill t target offset length byte
  case case1 => rfl
  case case2 address hl =>
    refine h.read_of_changesWithin hl (fun e he s l hc ha => ?_) hd
    obtain ⟨b, -, -, hg, hb⟩ := h.covers_of_locate hl
    have hs := LawfulBytes.fill_bytes byte h.sound hg hb e he
    exact (ha.fill byte).trans (hs.of_covers hc)

theorem read_write (h : t.WellFormed) (target : Block) (offset : Nat) (bytes : List UInt8)
    {handle : Block} {o l : Nat}
    (hd : handle.id ≠ target.id ∨ o + l ≤ offset ∨ offset + bytes.length ≤ o) :
    (t.write target offset bytes).2.read handle o l = t.read handle o l := by
  fun_cases Tracker.write t target offset bytes
  case case1 => rfl
  case case2 address hl =>
    refine h.read_of_changesWithin hl (fun e he s l hc ha => ?_) hd
    obtain ⟨b, -, -, hg, hb⟩ := h.covers_of_locate hl
    have hs := LawfulBytes.store_bytes h.sound hg hb e he
    exact ha.store.trans (hs.of_covers hc)

theorem read_copy (h : t.WellFormed) (source : Block) (sourceOffset : Nat) (target : Block)
    (targetOffset length : Nat) (mode : CopyMode) {handle : Block} {o l : Nat}
    (hd : handle.id ≠ target.id ∨ o + l ≤ targetOffset ∨ targetOffset + length ≤ o) :
    (t.copy source sourceOffset target targetOffset length mode).2.read handle o l =
      t.read handle o l := by
  fun_cases Tracker.copy t source sourceOffset target targetOffset length mode
  case case1 => rfl
  case case2 => rfl
  case case3 => rfl
  case case4 start hsource stop htarget hv =>
    refine h.read_of_changesWithin htarget (fun e he s l hc ha => ?_) hd
    obtain ⟨b, -, -, hg, hb⟩ := h.covers_of_locate hsource
    obtain ⟨b', -, -, hg', hb'⟩ := h.covers_of_locate htarget
    have hs := LawfulBytes.copy_bytes h.sound hg hg' hb hb' e he
    exact (ha.copy start).trans (hs.of_covers hc)
  case case5 start hsource stop htarget width hv =>
    refine h.read_of_changesWithin htarget (fun e he s l hc ha => ?_) hd
    obtain ⟨b, -, -, hg, hb⟩ := h.covers_of_locate hsource
    obtain ⟨b', -, -, hg', hb'⟩ := h.covers_of_locate htarget
    obtain ⟨hw, hdvd⟩ := CopyMode.dvd_of_validate hv
    have hs := LawfulBytes.copySwapped_bytes h.sound hg hg' hb hb' hw hdvd e he
    exact (ha.copySwapped start width).trans (hs.of_covers hc)

/-! ## Taking, returning and resizing blocks -/

/-- A block keeps what it reads when it stays live and its range keeps its bytes. -/
theorem readsSame_of_live {t' : Tracker H} (h : t.WellFormed) (h' : t'.WellFormed) {handle : Block}
    (hb : ∀ b : Block, b.id = handle.id → (b ∈ t'.blocks ↔ b ∈ t.blocks))
    (hs : ∀ b ∈ t.blocks, b.id = handle.id →
      b.extent.SameBytes (Heap.memory t.heap) (Heap.memory t'.heap)) :
    t.ReadsSame t' handle := by
  refine fun offset length => read_congr (h.lookup_congr h' hb) fun address hl => ?_
  obtain ⟨b, hm, hid, hle, rfl⟩ := locate_eq_ok hl
  exact (hs b hm hid).of_covers ((h.layout.placed b hm).covers hle)

theorem read_allocate (h : t.WellFormed) (size : Nat) (alignment : Alignment) {handle : Block}
    (hlive : t.isLive handle = true) : t.ReadsSame (t.allocate size alignment).2 handle := by
  have h' := h.allocate size alignment
  revert h'
  fun_cases Tracker.allocate t size alignment <;> intro h'
  case case1 => exact fun _ _ => rfl
  case case2 => exact fun _ _ => rfl
  case case3 hsize padded hp error heap ha =>
    have hpos := Alignment.paddedSize_pos hsize hp
    refine h.readsSame_of_live h' (fun _ _ => Iff.rfl) fun b hb _ => ?_
    exact LawfulBytes.alloc_bytes h.sound hpos ha _ (h.granted hb)
  case case4 hsize padded hp heap ha =>
    have hpos := Alignment.paddedSize_pos hsize hp
    refine h.readsSame_of_live h' (fun _ _ => Iff.rfl) fun b hb _ => ?_
    exact LawfulBytes.alloc_bytes h.sound hpos ha _ (h.granted hb)
  case case5 hsize padded hp raw heap ha hraw block =>
    have hpos := Alignment.paddedSize_pos hsize hp
    refine h.readsSame_of_live h' (fun b hid => ?_) fun b hb _ => ?_
    · -- the new block has an id that no live block has
      have hnew : b ≠ block := fun e => h.id_ne_nextId hlive (by rw [← hid, e]; rfl)
      simp [hnew]
    · exact LawfulBytes.alloc_bytes h.sound hpos ha _ (h.granted hb)

theorem read_free (h : t.WellFormed) (victim : Block) {handle : Block}
    (hne : handle.id ≠ victim.id) : t.ReadsSame (t.free victim).2 handle := by
  have h' := h.free victim
  revert h'
  fun_cases Tracker.free t victim <;> intro h'
  case case1 => exact fun _ _ => rfl
  case case2 live hl =>
    obtain ⟨hm, hlid⟩ := mem_of_lookup hl
    refine h.readsSame_of_live h' (fun b hid => ?_) fun b hb hid => ?_
    · exact mem_others.trans (and_iff_left (by rw [hid, hlid]; exact hne))
    · have hext := h.layout.extent_ne hb hm (by rw [hid, hlid]; exact hne)
      exact LawfulBytes.release_bytes h.sound (h.granted hm) _ (h.granted hb) hext

/-- Moving the bytes of a resized block changes no other range. -/
theorem sameBytes_realign {heap : H} {old resized : Block} (hs : Sound heap)
    (hg : Granted heap resized.extent) (ho : old.Placed) (hr : resized.Placed)
    (ha : resized.alignment = old.alignment) {e : Extent} (he : Granted heap e)
    (hapart : resized.extent.Apart e) :
    e.SameBytes (Heap.memory heap) (Heap.memory (realign heap old resized)) := by
  unfold realign
  split
  · exact .refl _ _
  · obtain ⟨h₁, h₂⟩ := realign_covers ho hr ha
    have hcopy := LawfulBytes.copy_bytes hs hg hg h₁ h₂ e he
    exact ((hapart.of_covers h₂).copy _).trans hcopy

theorem read_reallocate (h : t.WellFormed) (victim : Block) (size : Nat) {handle : Block}
    (hlive : t.isLive handle = true) (hne : handle.id ≠ victim.id) :
    t.ReadsSame (t.reallocate victim size).2 handle := by
  have h' := h.reallocate victim size
  revert h'
  fun_cases Tracker.reallocate t victim size <;> intro h'
  case case1 => exact fun _ _ => rfl
  case case2 => exact fun _ _ => rfl
  case case3 => exact fun _ _ => rfl
  case case4 hsize old hl padded hp error heap ha =>
    have hpos := Alignment.paddedSize_pos hsize hp
    obtain ⟨hm, hlid⟩ := mem_of_lookup hl
    refine h.readsSame_of_live h' (fun _ _ => Iff.rfl) fun b hb hid => ?_
    have hext := h.layout.extent_ne hb hm (by rw [hid, hlid]; exact hne)
    exact LawfulBytes.realloc_bytes h.sound (h.granted hm) hpos ha _ (h.granted hb) hext
  case case5 hsize old hl padded hp raw heap ha resized =>
    have hpos := Alignment.paddedSize_pos hsize hp
    obtain ⟨hm, hlid⟩ := mem_of_lookup hl
    obtain ⟨hs, hf, hg⟩ := LawfulHeap.realloc_ok h.sound (h.granted hm) hpos ha
    have hr : resized.Placed :=
      Block.place_placed (Nat.pos_of_ne_zero hsize) hp hf.start_pos hf.fits
    refine h.readsSame_of_live h' (fun b hid => ?_) fun b hb hid => ?_
    · have hnew : b ≠ resized := fun e => h.id_ne_nextId hlive (by rw [← hid, e]; rfl)
      simp only [List.mem_append, List.mem_singleton, hnew, or_false]
      exact mem_others.trans (and_iff_left (by rw [hid, hlid]; exact hne))
    · have hb' : Granted t.heap b.extent ∧ b.extent ≠ old.extent :=
        ⟨h.granted hb, h.layout.extent_ne hb hm (by rw [hid, hlid]; exact hne)⟩
      have hsame := LawfulBytes.realloc_bytes h.sound (h.granted hm) hpos ha _ hb'.1 hb'.2
      refine hsame.trans (sameBytes_realign hs ((hg _).mpr (.inl rfl)) (h.layout.placed old hm) hr rfl
        ((hg _).mpr (.inr hb')) (hf.apart _ hb').symm)

end WellFormed

end Tracker

end TrackedHeap
