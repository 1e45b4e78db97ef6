import TrackedHeap.Proofs.Carver.Construction
import TrackedHeap.Proofs.Carver.Tally
import TrackedHeap.Proofs.Checked.Basic
import TrackedHeap.Proofs.Ownership.Usage

/-!
# Arenas and rings within words

An arena as a list of blocks with the index of the one in use (`ArenaRow`): the index is that of the last block, so
there is a block at it, and there is always a first block, after which the others are dropped in a reset. What an
arena counts as allocated may be more than its capacity. It is a word all the same, because ranges of clients share
no byte of the address space (`Owned.grantedBytes_lt`).
-/

namespace TrackedHeap

open Checked
open CarveOut (grantedBytes)

/-- Clients have less than an address space. -/
theorem Owned.grantedBytes_lt {H : Type} {t : Tracker H} {ids : List Nat} {out : List CarveOut} (h : Owned t ids out)
    (hl : Layout t.blocks t.nextId) : grantedBytes out < Word.limit := by
  have hapart : (out.map CarveOut.range).Pairwise Extent.Apart :=
    List.pairwise_map.mpr <| h.apart.imp_of_mem fun hc hd hcd =>
      hcd.range_apart hl (h.mem _ hc) (h.mem _ hd) (h.fits _ hc) (h.fits _ hd)
  have hin : ∀ e ∈ out.map CarveOut.range, 1 ≤ e.start ∧ e.start + e.size ≤ Word.limit := by
    refine List.forall_mem_map.mpr fun c hc => ?_
    have hplaced := hl.placed _ (h.mem c hc)
    have hpos := hplaced.raw_pos
    have hle := hplaced.raw_le
    have hstop := hplaced.stop_le
    have hend := hplaced.fits
    have hfits := h.fits c hc
    constructor <;> simp only [CarveOut.range, CarveOut.address] <;> omega
  have hsum := Extent.sum_size_le hapart hin
  rw [List.map_map] at hsum
  exact Nat.lt_of_le_of_lt hsum (by decide)

/-! ## Arenas -/

/-- A growing row of equal blocks, with the place of the one in use. -/
structure ArenaRow where
  alignment : Alignment
  total : Nat
  arenaSize : Nat
  /-- The blocks, in the order in which they were opened. -/
  arenas : List Block
  /-- The index of the block in use. -/
  current : Nat := 0
  offset : Nat := 0
  allocated : Nat := 0
  tally : Tally := {}

namespace ArenaRow

/-- The range that starts at `start` in the block in use becomes a client's. -/
def grantChecked (r : ArenaRow) (start size : Nat) : Checked (Outcome CarveOut ArenaRow) := do
  let offset ← add start size
  let allocated ← add r.allocated size
  let block ← get r.arenas r.current
  return (.ok { block, offset := start, grantedSize := size, requestedSize := size }, { r with offset, allocated })

/-- Accepts the handle of any range in one of the blocks, and does nothing. -/
def release (r : ArenaRow) (handle : CarveOut) : Outcome Unit ArenaRow :=
  if r.arenas.any fun b => b.id == handle.block.id then (.ok (), r)
  else (.error (.notAnArena handle.block.id), r)

def stats (r : ArenaRow) : CarverStats :=
  .ofTally .arena r.total r.allocated r.tally

variable {H : Type} [Heap H]

/-- The first block. -/
def makeChecked (t : Tracker H) (total : Nat) (alignment : Alignment) : Checked (Outcome ArenaRow (Tracker H)) :=
  match requireCapacity total with
  | .error e => .ok (.error e, t)
  | .ok () => do
    let arenaSize := min total Arena.sizeLimit
    match ← t.allocateChecked arenaSize alignment with
    | (.error e, t) => return (.error e, t)
    | (.ok first, t) => return (.ok { alignment, total, arenaSize, arenas := [first] }, t)

/-- Takes a range for a request, which is not counted yet. -/
def carveChecked (r : ArenaRow) (t : Tracker H) (size : Nat) : Checked (Outcome CarveOut (ArenaRow × Tracker H)) :=
  if size = 0 then .ok (.error .zeroAllocation, r, t)
  else if r.arenaSize < size then .ok (.error (.outOfMemory size r.arenaSize), r, t)
  else do
    let start ← r.alignment.alignUpChecked r.offset
    let stop ← add start size
    if r.arenaSize < stop then do
      match ← t.allocateChecked r.arenaSize r.alignment with
      | (.error e, t) => return (.error e, r, t)
      | (.ok block, t) => do
        let arenas := r.arenas ++ [block]
        let current ← sub arenas.length 1
        let (result, r) ← { r with arenas, current }.grantChecked 0 size
        return (result, r, t)
    else do
      let (result, r) ← r.grantChecked start size
      return (result, r, t)

/-- Takes a range for a request. -/
def allocateChecked (r : ArenaRow) (t : Tracker H) (size : Nat) :
    Checked (Outcome CarveOut (ArenaRow × Tracker H)) := do
  let (result, r, t) ← r.carveChecked t size
  let tally ← r.tally.recordChecked result
  return (result, { r with tally }, t)

/-- Takes back every range, and returns the blocks from index 1 on. -/
def resetChecked (r : ArenaRow) (t : Tracker H) : Checked (Outcome Unit (ArenaRow × Tracker H)) :=
  match r.arenas with
  | [] => .error .outOfRange
  | first :: extra =>
    match Arena.freeBlocks t extra with
    | (result, t) => .ok (result, { r with arenas := [first], current := 0, offset := 0, allocated := 0 }, t)

end ArenaRow

namespace Arena

variable {H : Type} {t t' : Tracker H} {a : Arena} {size : Nat}

/-- The arena as a list of blocks. -/
def row (a : Arena) : ArenaRow where
  alignment := a.alignment
  total := a.total
  arenaSize := a.arenaSize
  arenas := a.first :: a.later.reverse
  current := a.later.length
  offset := a.offset
  allocated := a.allocated
  tally := a.tally

/-- The outcome with the arena as a list of blocks. -/
def inRow {α τ : Type} : Outcome α (Arena × τ) → Outcome α (ArenaRow × τ)
  | (result, a, t) => (result, a.row, t)

/-- What keeps the arithmetic of offsets within words. -/
structure Bounded (a : Arena) : Prop where
  arenaSize_le : a.arenaSize ≤ sizeLimit
  offset_le : a.offset ≤ a.arenaSize

/-- The block in use is the newest one. -/
theorem arenas_row_current (a : Arena) : a.row.arenas[a.row.current]? = some a.current := by
  simp only [row, current]
  cases a.later with
  | nil => rfl
  | cons b bs => simp

/-- A block that is opened goes to the end. -/
theorem row_concat (a : Arena) (block : Block) :
    ({ a with later := block :: a.later } : Arena).row =
      { a.row with arenas := a.row.arenas ++ [block], current := a.later.length + 1 } := by
  simp [row]

theorem length_arenas_concat (a : Arena) (block : Block) :
    sub (a.row.arenas ++ [block]).length 1 = .ok (a.later.length + 1) := by
  simp [row, sub]

theorem grantChecked_row {start : Nat} (hoffset : start + size < Word.limit)
    (hallocated : a.allocated + size < Word.limit) :
    a.row.grantChecked start size = .ok ((a.grant start size).1, (a.grant start size).2.row) := by
  have ha : a.row.allocated + size < Word.limit := hallocated
  rw [ArenaRow.grantChecked, add_eq hoffset, ok_bind, add_eq ha, ok_bind, get_eq a.arenas_row_current]
  rfl

theorem release_row (a : Arena) (handle : CarveOut) :
    a.row.release handle = ((a.release handle).1, (a.release handle).2.row) := by
  have hblocks : a.row.arenas = a.blocks.reverse := by
    rw [row, blocks, List.reverse_append, List.reverse_singleton, List.singleton_append]
  rw [ArenaRow.release, hblocks, List.any_reverse, release]
  split <;> rfl

variable [Heap H]

namespace Bounded

theorem carve (h : a.Bounded) (t : Tracker H) (size : Nat) : (a.carve t size).2.1.Bounded := by
  fun_cases Arena.carve a t size
  case case4 hsize hle start hfull block t₁ ha result a' hgrant =>
    cases hgrant
    refine ⟨h.arenaSize_le, ?_⟩
    show 0 + size ≤ a.arenaSize
    omega
  case case5 hsize hle start hroom result a' hgrant =>
    cases hgrant
    exact ⟨h.arenaSize_le, Nat.le_of_not_lt hroom⟩
  all_goals exact h

theorem allocate (h : a.Bounded) (t : Tracker H) (size : Nat) : (a.allocate t size).2.1.Bounded :=
  ⟨(h.carve t size).arenaSize_le, (h.carve t size).offset_le⟩

omit [Heap H] in
theorem release (h : a.Bounded) (handle : CarveOut) : (a.release handle).2.Bounded := by
  fun_cases Arena.release a handle <;> exact h

theorem reset (h : a.Bounded) (t : Tracker H) : (a.reset t).2.1.Bounded :=
  ⟨h.arenaSize_le, Nat.zero_le _⟩

/-- What is counted as allocated afterwards has to be a word. -/
theorem carveChecked (h : a.Bounded) (ht : t.Regular) (hlt : (a.carve t size).2.1.allocated < Word.limit) :
    a.row.carveChecked t size = .ok (inRow (a.carve t size)) := by
  have hlarge : sizeLimit + 4096 + sizeLimit < Word.limit := by decide
  have harena := h.arenaSize_le
  have hoffset := h.offset_le
  have hbytes : a.alignment.bytes ≤ 4096 := by
    cases a.alignment <;> decide
  have hup := a.alignment.alignUp_lt a.offset
  have hstart : a.row.alignment.alignUpChecked a.row.offset = .ok (a.alignment.alignUp a.offset) :=
    Alignment.alignUpChecked_eq (by
      show a.offset + (a.alignment.bytes - 1) < _
      omega)
  have hsizes : a.row.arenaSize = a.arenaSize := rfl
  have hask : t.allocateChecked a.arenaSize a.row.alignment = .ok (t.allocate a.arenaSize a.alignment) :=
    ht.allocateChecked a.arenaSize a.alignment
  revert hlt
  rw [ArenaRow.carveChecked, hsizes, hstart, hask, ok_bind]
  fun_cases Arena.carve a t size
  case case1 hsize => exact fun _ => if_pos hsize
  case case2 hsize hle =>
    intro _
    rw [if_neg hsize]
    exact if_pos hle
  case case3 hsize hle start hfull e t₁ ha =>
    intro _
    rw [if_neg hsize, if_neg hle, add_eq (by omega), ok_bind, if_pos hfull, ha]
    rfl
  case case4 hsize hle start hfull block t₁ ha result a' hgrant =>
    intro hlt
    have hallocated : a.allocated + size < Word.limit := by
      cases hgrant
      exact hlt
    have hgranted : ({ a with later := block :: a.later } : Arena).row.grantChecked 0 size = _ :=
      grantChecked_row (by omega) hallocated
    rw [if_neg hsize, if_neg hle, add_eq (by omega), ok_bind, if_pos hfull, ha, ok_bind]
    simp only [length_arenas_concat, ok_bind]
    rw [← hsizes, ← row_concat, hgranted, hgrant]
    rfl
  case case5 hsize hle start hroom result a' hgrant =>
    intro hlt
    have hallocated : a.allocated + size < Word.limit := by
      cases hgrant
      exact hlt
    rw [if_neg hsize, if_neg hle, add_eq (by omega), ok_bind, if_neg hroom,
      grantChecked_row (by omega) hallocated, hgrant]
    rfl

theorem allocateChecked (h : a.Bounded) (ht : t.Regular) (hr : a.tally.HasRoom)
    (hlt : (a.allocate t size).2.1.allocated < Word.limit) :
    a.row.allocateChecked t size = .ok (inRow (a.allocate t size)) := by
  have hroom : (a.carve t size).2.1.tally.HasRoom := by
    rw [a.tally_carve]
    exact hr
  rw [ArenaRow.allocateChecked, h.carveChecked ht hlt, ok_bind]
  simp only [inRow, row, hroom.recordChecked, ok_bind]
  rfl

end Bounded

/-- There is always a first block. -/
theorem resetChecked_row (a : Arena) (t : Tracker H) : a.row.resetChecked t = .ok (inRow (a.reset t)) :=
  rfl

theorem makeChecked_eq (h : t.Regular) (total : Nat) (alignment : Alignment) :
    ArenaRow.makeChecked t total alignment =
      .ok ((make t total alignment).1.map row, (make t total alignment).2) := by
  unfold ArenaRow.makeChecked
  fun_cases Arena.make t total alignment
  case case1 e hcapacity => simp only [hcapacity]; rfl
  case case2 hcapacity arenaSize e t₁ ha =>
    simp only [hcapacity]
    rw [h.allocateChecked, ok_bind, ha]
    rfl
  case case3 hcapacity arenaSize first t₁ ha =>
    simp only [hcapacity]
    rw [h.allocateChecked, ok_bind, ha]
    rfl

theorem bounded_of_make {total : Nat} {alignment : Alignment} (hm : make t total alignment = (.ok a, t')) :
    a.Bounded := by
  rw [(make_ok hm).1]
  exact ⟨Nat.min_le_right _ _, Nat.zero_le _⟩

end Arena

/-! ## Rings -/

namespace RingBuffer

variable {r : RingBuffer} {out : List CarveOut}

/-- The bytes that the next request may take. -/
def availableChecked (r : RingBuffer) : Checked Nat :=
  if r.full then .ok 0 else sub r.capacity r.writePosition

/-- Takes a range for a request, which is not counted yet. -/
def carveChecked (r : RingBuffer) (size : Nat) : Checked (Outcome CarveOut RingBuffer) :=
  if size = 0 then .ok (.error .zeroAllocation, r)
  else do
    let available ← r.availableChecked
    if r.capacity < size ∨ available < size then return (.error (.outOfMemory size available), r)
    else do
      let stop ← add r.writePosition size
      let allocated ← add r.allocated size
      return (.ok { block := r.base, offset := r.writePosition, grantedSize := size, requestedSize := size },
        { r with
          writePosition := if stop = r.capacity then 0 else stop
          full := r.full || stop == r.capacity
          allocated })

/-- Takes a range for a request. -/
def allocateChecked (r : RingBuffer) (size : Nat) : Checked (Outcome CarveOut RingBuffer) := do
  let (result, r) ← r.carveChecked size
  let tally ← r.tally.recordChecked result
  return (result, { r with tally })

/-- A ring of as many bytes. -/
def makeChecked {H : Type} [Heap H] (t : Tracker H) (total : Nat) (alignment : Alignment) :
    Checked (Outcome RingBuffer (Tracker H)) :=
  match requireCapacity total with
  | .error e => .ok (.error e, t)
  | .ok () => do
    match ← t.allocateChecked total alignment with
    | (.error e, t) => return (.error e, t)
    | (.ok base, t) => return (.ok { base, capacity := total }, t)

namespace Exact

theorem availableChecked (h : r.Exact out) : r.availableChecked = .ok r.available := by
  rw [RingBuffer.availableChecked, available]
  cases hfull : r.full with
  | true => rfl
  | false =>
    have hle : r.writePosition ≤ r.capacity := h.place_eq hfull ▸ h.le_capacity
    exact sub_eq hle

/-- A ring is filled to its capacity, and not further. -/
theorem carveChecked (h : r.Exact out) (hc : r.capacity < Word.limit) (size : Nat) :
    r.carveChecked size = .ok (r.carve size) := by
  rw [RingBuffer.carveChecked]
  fun_cases RingBuffer.carve r size
  case case1 hsize => exact if_pos hsize
  case case2 hsize hlt =>
    rw [if_neg hsize, h.availableChecked, ok_bind, if_pos (.inr hlt)]
    rfl
  case case3 hsize hroom stop =>
    have hle : ¬ r.full = true := fun hfull => by
      rw [available, if_pos hfull] at hroom
      omega
    have hplace := h.place_eq (Bool.eq_false_iff.mpr hle)
    have havailable := h.available_eq
    have hcapacity := h.le_capacity
    have hsmall : ¬ (r.capacity < size ∨ r.available < size) := by omega
    rw [if_neg hsize, h.availableChecked, ok_bind, if_neg hsmall, add_eq (by omega), ok_bind, add_eq (by omega),
      ok_bind, Bool.eq_false_iff.mpr hle, Bool.false_or]
    rfl

theorem allocateChecked (h : r.Exact out) (hc : r.capacity < Word.limit) (hr : r.tally.HasRoom) (size : Nat) :
    r.allocateChecked size = .ok (r.allocate size) := by
  rw [RingBuffer.allocateChecked, h.carveChecked hc, ok_bind]
  simp only [r.tally_carve, hr.recordChecked, ok_bind]
  rw [RingBuffer.allocate, ← r.tally_carve size]
  rfl

end Exact

theorem makeChecked_eq {H : Type} [Heap H] {t : Tracker H} (h : t.Regular) (total : Nat) (alignment : Alignment) :
    makeChecked t total alignment = .ok (make t total alignment) := by
  unfold makeChecked
  fun_cases RingBuffer.make t total alignment
  case case1 e hcapacity => simp only [hcapacity]
  case case2 hcapacity e t₁ ha =>
    simp only [hcapacity]
    rw [h.allocateChecked, ok_bind, ha]
    rfl
  case case3 hcapacity base t₁ ha =>
    simp only [hcapacity]
    rw [h.allocateChecked, ok_bind, ha]
    rfl

end RingBuffer

end TrackedHeap
