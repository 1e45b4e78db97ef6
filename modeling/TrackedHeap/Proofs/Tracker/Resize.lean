import TrackedHeap.Proofs.Tracker.Accounting
import TrackedHeap.Proofs.Tracker.Isolation

/-!
# What a resized block is

A block that is resized becomes one with a fresh id, the same alignment and the new size, and its usable bytes are
those of the old one as far as they fit (`WellFormed.resized`). The heap carries the bytes along at their distance
from the start of the granted range; where the padding differs they are copied from that distance to the aligned
address, and both places lie in the range that was granted. The totals change by the difference of the padded sizes,
and what is held does not go round on the way.
-/

namespace TrackedHeap.Tracker

variable {H : Type} [Heap H]

/-- The state after `old` has become `block`, of `size` bytes. -/
structure Resized (t t' : Tracker H) (old : Block) (size : Nat) (block : Block) : Prop where
  id_eq : block.id = t.nextId
  alignment_eq : block.alignment = old.alignment
  requested_eq : block.requestedSize = size
  padded_eq : block.paddedSize = size + (old.alignment.bytes - 1)
  aligned : old.alignment.bytes ∣ block.address
  raw_le : block.rawAddress ≤ block.address
  stop_le : block.address + size ≤ block.rawAddress + block.paddedSize
  mem_blocks : ∀ b, b ∈ t'.blocks ↔ b = block ∨ b ∈ t.blocks ∧ b ≠ old
  bytes : ∀ i < min old.requestedSize size,
    Heap.memory t'.heap (block.address + i) = Heap.memory t.heap (old.address + i)
  /-- Through the handles the same is read. -/
  read : ∀ offset length, offset + length ≤ min old.requestedSize size →
    ∃ bytes, t.read old offset length = .ok bytes ∧ t'.read block offset length = .ok bytes
  grown : old.paddedSize ≤ block.paddedSize →
    t'.usage =
      { allocated := Word.addWrap t.usage.allocated (block.paddedSize - old.paddedSize)
        freed := t.usage.freed
        current := t.usage.current + (block.paddedSize - old.paddedSize)
        peak := max t.usage.peak (t.usage.current + (block.paddedSize - old.paddedSize)) }
  shrunk : block.paddedSize < old.paddedSize →
    t'.usage =
      { allocated := t.usage.allocated
        freed := Word.addWrap t.usage.freed (old.paddedSize - block.paddedSize)
        current := t.usage.current - (old.paddedSize - block.paddedSize)
        peak := t.usage.peak }

open LawfulHeap (Sound Granted)

namespace WellFormed

/-! ## The bytes -/

/-- The bytes that the heap left at their distance from the start are brought to the aligned address. -/
theorem memory_realign [LawfulBytes H] {heap : H} {old resized : Block} (hs : Sound heap)
    (hg : Granted heap resized.extent) (ho : old.Placed) (hr : resized.Placed)
    (ha : resized.alignment = old.alignment) {i : Nat} (hi : i < min old.requestedSize resized.requestedSize) :
    Heap.memory (realign heap old resized) (resized.address + i) =
      Heap.memory heap (resized.rawAddress + (old.padding + i)) := by
  have hraw := hr.raw_le
  unfold realign
  split
  · next hpadding =>
    have hplace : resized.address + i = resized.rawAddress + (old.padding + i) := by
      rw [hpadding, Block.padding]
      omega
    rw [hplace]
  · obtain ⟨h₁, h₂⟩ := realign_covers ho hr ha
    have hstop := hr.stop_le
    have hcopy := LawfulBytes.copy_bytes hs hg hg h₁ h₂ _ hg (resized.address + i)
      (by simp only [Block.extent]; omega) (by simp only [Block.extent]; omega)
    rw [hcopy, Memory.copy_add hi, Nat.add_assoc]

/-- Usable bytes that are kept lie in both granted ranges, at one distance from their starts. -/
theorem padding_add_lt {old resized : Block} (ho : old.Placed) (hr : resized.Placed)
    (ha : resized.alignment = old.alignment) {i : Nat} (hi : i < min old.requestedSize resized.requestedSize) :
    old.padding + i < min old.paddedSize resized.paddedSize := by
  have hpadding := ho.padding_lt
  have hold := ho.padded_eq
  have hnew := hr.padded_eq
  rw [ha] at hnew
  simp only [Block.padding]
  omega

variable {t : Tracker H} {b : Block}

/-- After the heap has resized the range of a live block, its bytes are brought to the new address. -/
theorem memory_reallocated [LawfulBytes H] (h : t.WellFormed) (hb : b ∈ t.blocks) {size padded raw id now : Nat}
    {heap : H} (hsize : ¬ size = 0) (hp : b.alignment.paddedSize size = .ok padded)
    (ha : Heap.realloc t.heap b.rawAddress padded = (.ok raw, heap)) {i : Nat} (hi : i < min b.requestedSize size) :
    let resized := Block.place id raw size padded b.alignment now
    Heap.memory (realign heap b resized) (resized.address + i) = Heap.memory t.heap (b.address + i) := by
  intro resized
  have hpos := Alignment.paddedSize_pos hsize hp
  obtain ⟨hs, hf, hg⟩ := LawfulHeap.realloc_ok h.sound (h.granted hb) hpos ha
  have ho := h.layout.placed b hb
  have hr : resized.Placed := Block.place_placed (Nat.pos_of_ne_zero hsize) hp hf.start_pos hf.fits
  have hcarried : Heap.memory heap (resized.rawAddress + (b.padding + i)) =
      Heap.memory t.heap (b.rawAddress + (b.padding + i)) :=
    LawfulBytes.realloc_carries h.sound (h.granted hb) hpos ha _ (padding_add_lt ho hr rfl hi)
  have hplace : b.rawAddress + (b.padding + i) = b.address + i := by
    have := ho.raw_le
    rw [Block.padding]
    omega
  rw [memory_realign hs ((hg _).mpr (.inl rfl)) ho hr rfl hi, hcarried, hplace]

/-- An access within the bounds of a live block succeeds. -/
theorem locate_live [LawfulHeap H] (h : t.WellFormed) (hb : b ∈ t.blocks) {offset length : Nat}
    (hle : offset + length ≤ b.requestedSize) : t.locate b offset length = .ok (b.address + offset) := by
  have hlookup : t.lookup b.id = some b := h.lookup_eq_some_iff.mpr ⟨hb, rfl⟩
  have hplaced := h.layout.placed b hb
  have hlt : offset + length < Word.limit := by
    have := hplaced.raw_pos
    have := hplaced.padded_eq
    have := hplaced.fits
    omega
  simp only [locate, hlookup, Word.add?_eq_some.mpr ⟨rfl, hlt⟩, if_pos hle]

/-- Where two live blocks hold the same bytes, the same is read through their handles. -/
theorem read_carried [LawfulHeap H] {t' : Tracker H} (h : t.WellFormed) (h' : t'.WellFormed) {c : Block}
    (hb : b ∈ t.blocks) (hc : c ∈ t'.blocks)
    (hbytes : ∀ i < min b.requestedSize c.requestedSize,
      Heap.memory t'.heap (c.address + i) = Heap.memory t.heap (b.address + i))
    {offset length : Nat} (hle : offset + length ≤ min b.requestedSize c.requestedSize) :
    ∃ bytes, t.read b offset length = .ok bytes ∧ t'.read c offset length = .ok bytes := by
  have hread : (Heap.memory t'.heap).read (c.address + offset) length =
      (Heap.memory t.heap).read (b.address + offset) length := by
    refine List.map_congr_left fun i hi => ?_
    rw [Nat.add_assoc, Nat.add_assoc]
    exact hbytes _ (Nat.lt_of_lt_of_le (Nat.add_lt_add_left (List.mem_range.mp hi) _) hle)
  refine ⟨(Heap.memory t.heap).read (b.address + offset) length, ?_, ?_⟩
  · rw [read_eq, h.locate_live hb (Nat.le_trans hle (Nat.min_le_left _ _))]
  · rw [read_eq, h'.locate_live hc (Nat.le_trans hle (Nat.min_le_right _ _))]
    exact congrArg Except.ok hread

end WellFormed

end TrackedHeap.Tracker

namespace TrackedHeap.Usage.Tallies

variable {u : Usage} {held old new : Nat}

/-- Growth adds the difference to what is held and to all that was granted. -/
theorem resize_grown (h : u.Tallies held) (hle : old ≤ new) (hlt : held + (new - old) < Word.limit) :
    u.resize old new =
      { allocated := Word.addWrap u.allocated (new - old)
        freed := u.freed
        current := u.current + (new - old)
        peak := max u.peak (u.current + (new - old)) } := by
  have hcurrent : Word.addWrap u.current (new - old) = u.current + (new - old) :=
    Word.addWrap_eq (h.current ▸ hlt)
  rw [Usage.resize, if_pos hle, Usage.add, hcurrent]

/-- Shrinkage takes the difference from what is held and adds it to all that was taken back. -/
theorem resize_shrunk (h : u.Tallies held) (hlt : new < old) (hle : old ≤ held) (hheld : held < Word.limit) :
    u.resize old new =
      { allocated := u.allocated
        freed := Word.addWrap u.freed (old - new)
        current := u.current - (old - new)
        peak := u.peak } := by
  have hcurrent : Word.subWrap u.current (old - new) = u.current - (old - new) :=
    Word.subWrap_eq (by rw [h.current]; omega) (h.current ▸ hheld)
  rw [Usage.resize, if_neg (Nat.not_le.mpr hlt), Usage.remove, hcurrent]

end TrackedHeap.Usage.Tallies

namespace TrackedHeap.Tracker

open LawfulHeap (Sound Granted)

variable {H : Type} [Heap H]

/-- What resizing a live block leads to, whatever else the handle says. -/
theorem WellFormed.resized [LawfulBytes H] {t t' : Tracker H} (h : t.WellFormed) (hu : t.usage.Tallies t.held)
    {old handle block : Block} (hold : old ∈ t.blocks) (hid : handle.id = old.id) {size : Nat}
    (hr : t.reallocate handle size = (.ok block, t')) : t.Resized t' old size block := by
  have h' := h.reallocate handle size
  have hlookup : t.lookup handle.id = some old := h.lookup_eq_some_iff.mpr ⟨hold, hid.symm⟩
  have ho := h.layout.placed old hold
  rw [hr] at h'
  revert hr
  fun_cases Tracker.reallocate t handle size <;> intro hr
  case case5 hsize live hlive padded hp raw heap ha resized =>
    cases hlookup.symm.trans hlive
    obtain ⟨hblock, ht'⟩ := Prod.mk.inj hr
    have hresized := Except.ok.inj hblock
    subst hresized ht'
    have hpos := Alignment.paddedSize_pos hsize hp
    obtain ⟨-, hf, -⟩ := LawfulHeap.realloc_ok h.sound (h.granted hold) hpos ha
    have hplaced : resized.Placed :=
      Block.place_placed (Nat.pos_of_ne_zero hsize) hp hf.start_pos hf.fits
    have hmem (b : Block) : b ∈ t.others old.id ++ [resized] ↔ b = resized ∨ b ∈ t.blocks ∧ b ≠ old := by
      have hne : (b ∈ t.blocks ∧ b.id ≠ old.id) ↔ b ∈ t.blocks ∧ b ≠ old :=
        and_congr_right fun hb => not_congr ⟨h.layout.eq_of_id hb hold, congrArg Block.id⟩
      rw [List.mem_append, List.mem_singleton, mem_others, hne, or_comm]
    have hheld : t.held = old.paddedSize + ((t.others old.id).map Block.paddedSize).sum := h.held_eq hold
    have hsum : ((t.others old.id).map Block.paddedSize).sum + resized.paddedSize < Word.limit := by
      have hlt := h'.held_lt
      rwa [held_concat rfl] at hlt
    have hroom (hle : old.paddedSize ≤ resized.paddedSize) :
        t.held + (resized.paddedSize - old.paddedSize) < Word.limit := by
      omega
    exact
      { id_eq := rfl
        alignment_eq := rfl
        requested_eq := rfl
        padded_eq := hplaced.padded_eq
        aligned := old.alignment.dvd_alignUp raw
        raw_le := hplaced.raw_le
        stop_le := hplaced.stop_le
        mem_blocks := hmem
        bytes := fun i hi => h.memory_reallocated hold hsize hp ha hi
        read := fun _ _ hle => h.read_carried h' hold ((hmem _).mpr (.inl rfl))
          (fun i hi => h.memory_reallocated hold hsize hp ha hi) hle
        grown := fun hle => hu.resize_grown hle (hroom hle)
        shrunk := fun hlt => hu.resize_shrunk hlt (by omega) h.held_lt }
  all_goals cases hr

/-- What is so in the view of a tracker is so. -/
theorem Resized.of_nonNull {t t' : Tracker H} {old block : Block} {size : Nat}
    (h : t.nonNull.Resized t'.nonNull old size block) : t.Resized t' old size block where
  id_eq := h.id_eq
  alignment_eq := h.alignment_eq
  requested_eq := h.requested_eq
  padded_eq := h.padded_eq
  aligned := h.aligned
  raw_le := h.raw_le
  stop_le := h.stop_le
  mem_blocks := h.mem_blocks
  bytes := h.bytes
  read := h.read
  grown := h.grown
  shrunk := h.shrunk

/-- Resizing a live block after any operations, over a heap that may answer with the address 0. -/
theorem resized_run [LawfulBytes (NonNull H)] {heap : H} (hs : Sound (NonNull.mk heap))
    (hg : ∀ e, ¬ Granted (NonNull.mk heap) e) (budget : Option Nat) (acts : List Act) {t' : Tracker H}
    {old handle block : Block} (hold : old ∈ ((ofHeap heap budget).run acts).blocks)
    (hid : handle.id = old.id) {size : Nat}
    (hr : ((ofHeap heap budget).run acts).reallocate handle size = (.ok block, t')) :
    ((ofHeap heap budget).run acts).Resized t' old size block := by
  have hview : ((ofHeap heap budget).run acts).nonNull.WellFormed :=
    (steps_run _ acts).wellFormed_nonNull hs hg
  refine .of_nonNull (hview.resized (tallies_run hs hg budget acts) hold hid ?_)
  rw [reallocate_nonNull, hr, viewed]

end TrackedHeap.Tracker
