import TrackedHeap.Proofs.Carver.BestFit
import TrackedHeap.Proofs.Carver.Hybrid
import TrackedHeap.Proofs.Carver.Tally
import TrackedHeap.Proofs.Checked.Basic

/-!
# Buddies within words

A region of buddies by orders and offsets: the smallest order at which something is free is looked for, and then the
lowest offset of that order is taken; the other halves and the buddy of a chunk are found by adding or flipping one
bit of an offset. Orders stay below 64, offsets inside the region, and what is taken back was counted before, so all
of this stays within words; and an order at which something is free has a lowest offset, so the search and what it
leads to agree (`Buddy.Bounded.allocateChecked`, `Buddy.Bounded.releaseChecked`, `Buddy.Bounded.resetChecked`).
-/

namespace TrackedHeap

open Checked

namespace Chunk

variable {c : Chunk} {free : List Chunk}

/-- The chunk of an order at an offset. -/
def ofOffset (order offset : Nat) : Chunk where
  order := order
  index := offset / 2 ^ order

/-- The least order for a size, if its power is a word. -/
def orderFor? (size : Nat) : Option Nat :=
  if Word.limit / 2 < size then none else some (orderFor size)

/-- Halves a free chunk down to an order. The second halves join the free chunks. -/
def halve (order offset : Nat) : Nat → List Chunk → Checked (List Chunk)
  | 0, free => .ok free
  | current + 1, free =>
    if order < current + 1 then do
      let half ← power current
      let upper ← add offset half
      halve order offset current ((ofOffset current upper).insert free)
    else .ok free

/-- Adds a chunk to the free ones, joined with its buddy as long as that is free and there are larger orders. -/
def coalesce : Nat → (offset order : Nat) → List Chunk → Checked (List Chunk)
  | 0, offset, order, free => .ok ((ofOffset order offset).insert free)
  | larger + 1, offset, order, free => do
    let size ← power order
    let buddy := offset ^^^ size
    if free.contains (ofOffset order buddy) then do
      let next ← add order 1
      coalesce larger (min offset buddy) next (free.erase (ofOffset order buddy))
    else .ok ((ofOffset order offset).insert free)

@[simp] theorem ofOffset_offset (c : Chunk) : ofOffset c.order c.offset = c := by
  obtain ⟨order, index⟩ := c
  rw [ofOffset, offset_mk, Nat.mul_div_cancel _ (Nat.two_pow_pos order)]

/-- The power of an order is a word exactly if the order is below 64. -/
theorem orderFor_lt_iff {size : Nat} : orderFor size < 64 ↔ ¬ Word.limit / 2 < size := by
  rw [Nat.lt_succ_iff, orderFor_le_iff, Nat.not_lt]
  rfl

theorem orderFor?_eq {size : Nat} (h : orderFor size < 64) : orderFor? size = some (orderFor size) :=
  if_neg (orderFor_lt_iff.mp h)

theorem orderFor?_eq_none {size : Nat} (h : ¬ orderFor size < 64) : orderFor? size = none :=
  if_pos (not_not.mp (mt orderFor_lt_iff.mpr h))

/-- The first half of two starts where the chunk does. -/
theorem offset_parent (c : Chunk) : c.parent.offset = min c.offset c.buddy.offset := by
  obtain ⟨order, index⟩ := c
  have hindex : index / 2 * 2 = min index (mk order index).buddy.index := by
    simp only [buddy]
    split <;> omega
  show index / 2 * (1 <<< (order + 1)) = min (index * 1 <<< order) ((mk order index).buddy.index * 1 <<< order)
  rw [Nat.mul_min_mul_right, ← hindex, Nat.one_shiftLeft, Nat.one_shiftLeft, Nat.pow_succ', Nat.mul_assoc]

/-- Halving by offsets is halving. -/
theorem halve_eq {order n : Nat} (ho : c.order = order + n) (hlt : c.order < 64)
    (hstop : c.offset + c.size ≤ Word.limit) :
    halve order c.offset c.order free = .ok (split n c free).2 := by
  induction n generalizing c free with
  | zero =>
    obtain rfl : c.order = order := ho
    cases hc : c.order with
    | zero => rfl
    | succ k => rw [halve, if_neg (Nat.lt_irrefl _), split]
  | succ n ih =>
    obtain ⟨k, index⟩ := c
    obtain rfl : k = order + n + 1 := ho
    let lower : Chunk := ⟨order + n, 2 * index⟩
    let upper : Chunk := ⟨order + n, 2 * index + 1⟩
    have hlower : lower.offset = (mk (order + n + 1) index).offset :=
      offset_lower (c := ⟨order + n + 1, index⟩) (Nat.succ_pos _)
    have hupper : upper.offset = lower.offset + 1 <<< (order + n) := Nat.succ_mul _ _
    have hsize : (mk (order + n + 1) index).size = 1 <<< (order + n) + 1 <<< (order + n) := by
      rw [size, Nat.one_shiftLeft, Nat.one_shiftLeft, Nat.pow_succ', Nat.two_mul]
    have hhalf : 0 < lower.size := lower.size_pos
    simp only [lower, size] at hhalf
    have hchunk : ofOffset (order + n) (lower.offset + 1 <<< (order + n)) = upper := by
      rw [← hupper]
      exact upper.ofOffset_offset
    have hrest : halve order lower.offset lower.order (upper.insert free) = .ok (split n lower (upper.insert free)).2 :=
      ih rfl (Nat.lt_of_succ_lt hlt) (by
        show lower.offset + 1 <<< (order + n) ≤ _
        omega)
    rw [← hlower, hsize] at hstop
    simp only at hlt
    rw [halve, if_pos (by omega), power_eq (by omega), ok_bind, ← hlower, add_eq (by omega), ok_bind, hchunk]
    exact hrest

/-- Joining by offsets is joining. -/
theorem coalesce_eq {n : Nat} (hlt : c.order + n < 64) :
    coalesce n c.offset c.order free = .ok (merge n c free) := by
  induction n generalizing c free with
  | zero => rw [coalesce, ofOffset_offset, merge]
  | succ n ih =>
    have hbuddy : ofOffset c.order (c.offset ^^^ 1 <<< c.order) = c.buddy := by
      rw [← size, ← offset_buddy]
      exact c.buddy.ofOffset_offset
    rw [coalesce, power_eq (by omega), ok_bind, merge]
    simp only [hbuddy]
    by_cases hfree : free.contains c.buddy
    · have hlater : c.parent.order + n < 64 := by
        simp only [parent]
        omega
      have hrest : coalesce n c.parent.offset c.parent.order (free.erase c.buddy) =
          .ok (merge n c.parent (free.erase c.buddy)) := ih hlater
      rw [offset_parent, offset_buddy] at hrest
      have hnext : c.order + 1 < Word.limit := Nat.lt_of_lt_of_le (by omega : c.order + 1 < 64) (by decide)
      rw [if_pos hfree, if_pos hfree, add_eq hnext]
      exact hrest
    · rw [if_neg hfree, if_neg hfree, ofOffset_offset]

theorem foldlM_coalesce {order : Nat} {cs : List Chunk} (hcs : ∀ c ∈ cs, c.order + (order - c.order) < 64) :
    cs.foldlM (fun free c => coalesce (order - c.order) c.offset c.order free) free =
      .ok (cs.foldl (fun free c => merge (order - c.order) c free) free) := by
  induction cs generalizing free with
  | nil => rfl
  | cons c cs ih =>
    rw [List.foldlM_cons, coalesce_eq (hcs c List.mem_cons_self), ok_bind]
    exact ih fun x hx => hcs x (List.mem_cons_of_mem _ hx)

end Chunk

namespace Buddy

variable {H : Type} [Heap H] {t t' : Tracker H} {b : Buddy}

/-- A region of at least `total` bytes. -/
def makeChecked (t : Tracker H) (total : Nat) (alignment : Alignment) : Checked (Outcome Buddy (Tracker H)) :=
  match requireCapacity total with
  | .error e => .ok (.error e, t)
  | .ok () =>
    match Chunk.orderFor? total with
    | none => .ok (.error (.buddyTooLarge total), t)
    | some order => do
      let size ← power order
      match ← t.allocateChecked size alignment with
      | (.error e, t) => return (.error e, t)
      | (.ok base, t) => return (.ok (ofBase base order), t)

/-- Refuses a request. -/
def refuseChecked (b : Buddy) (size : Nat) : Checked (Outcome CarveOut Buddy) := do
  let rest ← sub b.total b.allocated
  return (.error (.outOfMemory size rest), b)

/-- Takes the lowest chunk of the least order at which one is free, from the order of a request on. -/
def serveChecked (b : Buddy) (size order : Nat) : Checked (Outcome CarveOut Buddy) :=
  match (List.range' order (b.maxOrder + 1 - order)).find? fun k => 0 < b.freeAt k with
  | none => b.refuseChecked size
  | some current =>
    match b.free.find? fun c => c.order == current with
    | none => .error (.internal "buddy free list out of sync")
    | some c => do
      let free ← Chunk.halve order c.offset current (b.free.erase c)
      let granted ← power order
      let allocated ← add b.allocated granted
      return (.ok { block := b.base, offset := c.offset, grantedSize := granted, requestedSize := size },
        { b with free, live := .ofOffset order c.offset :: b.live.filter fun d => d.offset != c.offset, allocated })

/-- Takes a chunk for a request, which is not counted yet. -/
def carveChecked (b : Buddy) (size : Nat) : Checked (Outcome CarveOut Buddy) :=
  if size = 0 then .ok (.error .zeroAllocation, b)
  else
    match Chunk.orderFor? size with
    | none => b.refuseChecked size
    | some order => if order ≤ b.maxOrder then b.serveChecked size order else b.refuseChecked size

/-- Takes a chunk for a request. -/
def allocateChecked (b : Buddy) (size : Nat) : Checked (Outcome CarveOut Buddy) := do
  let (result, b) ← b.carveChecked size
  let tally ← b.tally.recordChecked result
  return (result, { b with tally })

/-- Takes back the chunk at the offset that a handle names. -/
def releaseChecked (b : Buddy) (handle : CarveOut) : Checked (Outcome Unit Buddy) :=
  match handle.requireOwned b.base with
  | .error e => .ok (.error e, b)
  | .ok () =>
    match b.live.find? fun c => c.offset == handle.offset with
    | none => .ok (.error (.noBuddyAt handle.offset), b)
    | some c => do
      let size ← power c.order
      let allocated ← sub b.allocated size
      let free ← Chunk.coalesce (b.maxOrder - c.order) handle.offset c.order b.free
      let tally ← b.tally.returnedChecked
      return (.ok (), { b with free, live := b.live.erase c, allocated, tally })

/-- Takes back every chunk. -/
def resetChecked (b : Buddy) : Checked Buddy := do
  let free ← b.live.foldlM (fun free c => Chunk.coalesce (b.maxOrder - c.order) c.offset c.order free) b.free
  return { b with free, live := [], allocated := 0 }

/-- What keeps the arithmetic of a region within words. -/
structure Bounded (b : Buddy) : Prop where
  coalesced : b.Coalesced
  counted : b.Counted
  order_lt : b.maxOrder < 64

/-! ## The search for a chunk -/

/-- The first free chunk that is large enough is the first of the first order at which one is free. -/
theorem find?_order {least : Nat} {e : Chunk} (hf : (b.free.find? fun c => least ≤ c.order) = some e) :
    (b.free.find? fun c => c.order == e.order) = some e := by
  obtain ⟨hle, before, after, hfree, hbefore⟩ := List.find?_eq_some_iff_append.mp hf
  refine List.find?_eq_some_iff_append.mpr ⟨beq_self_eq_true _, before, after, hfree, fun c hc => ?_⟩
  have hlt := hbefore c hc
  simp only [decide_eq_true_eq, Bool.not_eq_true', decide_eq_false_iff_not] at hle hlt
  simp only [Bool.not_eq_true', beq_eq_false_iff_ne]
  omega

theorem freeAt_eq_zero_iff {k : Nat} : b.freeAt k = 0 ↔ ∀ c ∈ b.free, c.order ≠ k := by
  rw [freeAt, List.length_eq_zero_iff, List.filter_eq_nil_iff]
  simp only [beq_iff_eq]

namespace Bounded

theorem order_le (h : b.Bounded) {c : Chunk} (hc : c ∈ b.free) : c.order ≤ b.maxOrder :=
  (Chunk.Coalesced.inside_free h.coalesced hc).order_le

/-- The orders are searched up to that of the first free chunk that is large enough. -/
theorem find?_range' (h : b.Bounded) {least : Nat} {e : Chunk}
    (hf : (b.free.find? fun c => least ≤ c.order) = some e) :
    ((List.range' least (b.maxOrder + 1 - least)).find? fun k => 0 < b.freeAt k) = some e.order := by
  obtain ⟨hle, -, hsmaller, -⟩ := h.coalesced.first hf
  have hmem := List.mem_of_find?_eq_some hf
  have hmax := h.order_le hmem
  rw [List.find?_range'_eq_some]
  refine ⟨decide_eq_true (Nat.pos_of_ne_zero fun hzero => ?_), List.mem_range'_1.mpr ⟨hle, by omega⟩,
    fun k hk hlt => ?_⟩
  · exact freeAt_eq_zero_iff.mp hzero e hmem rfl
  · rw [hsmaller k hk hlt]
    rfl

/-- Nothing is found if no free chunk is large enough. -/
theorem find?_range'_none {least n : Nat} (hf : (b.free.find? fun c => least ≤ c.order) = none) :
    ((List.range' least n).find? fun k => 0 < b.freeAt k) = none := by
  refine List.find?_eq_none.mpr fun k hk => ?_
  have hzero : b.freeAt k = 0 := freeAt_eq_zero_iff.mpr fun c hc hck => by
    have hlt := List.find?_eq_none.mp hf c hc
    have hle := (List.mem_range'_1.mp hk).1
    simp only [decide_eq_true_eq] at hlt
    omega
  simp [hzero]

/-! ## Operations -/

theorem total_lt (h : b.Bounded) : b.total < Word.limit := by
  rw [total_eq]
  exact Nat.pow_lt_pow_right Nat.one_lt_two h.order_lt

theorem allocated_le (h : b.Bounded) : b.allocated ≤ b.total :=
  h.counted.allocated_le h.coalesced

theorem refuseChecked (h : b.Bounded) (size : Nat) :
    b.refuseChecked size = .ok (.error (.outOfMemory size (b.total - b.allocated)), b) := by
  rw [Buddy.refuseChecked, sub_eq h.allocated_le]
  rfl

theorem carve (h : b.Bounded) (size : Nat) : (b.carve size).2.Bounded where
  coalesced := h.coalesced.carve size
  counted := h.counted.carve size
  order_lt := (b.maxOrder_allocate size).symm ▸ h.order_lt

theorem with_tally (h : b.Bounded) (tally : Tally) : { b with tally }.Bounded :=
  ⟨h.coalesced, h.counted, h.order_lt⟩

theorem allocate (h : b.Bounded) (size : Nat) : (b.allocate size).2.Bounded :=
  (h.carve size).with_tally _

theorem release (h : b.Bounded) (handle : CarveOut) : (b.release handle).2.Bounded where
  coalesced := h.coalesced.release handle
  counted := h.counted.release handle
  order_lt := (b.release_fixed handle).1.symm ▸ h.order_lt

theorem reset (h : b.Bounded) : b.reset.Bounded where
  coalesced := h.coalesced.reset
  counted := b.counted_reset
  order_lt := (maxOrder_giveBack b.live).symm ▸ h.order_lt

/-- Looking for an order and then for the lowest chunk of that order finds the first chunk that is large enough. -/
theorem serveChecked (h : b.Bounded) {size order : Nat} (hsize : ¬ size = 0) (ho : Chunk.orderFor size = order) :
    b.serveChecked size order = .ok (b.carve size) := by
  have hafter := (h.carve size).allocated_le
  have htotal := (h.carve size).total_lt
  revert hafter htotal
  rw [Buddy.serveChecked, Buddy.carve, if_neg hsize, ho]
  cases hfind : b.free.find? fun c => order ≤ c.order with
  | none =>
    simp only [find?_range'_none hfind, hfind]
    exact fun _ _ => h.refuseChecked size
  | some e =>
    simp only [hfind]
    intro hafter htotal
    have hmem : e ∈ b.free := List.mem_of_find?_eq_some hfind
    have hle : order ≤ e.order := by simpa using List.find?_some hfind
    have hmax := h.order_le hmem
    have hlt := h.order_lt
    have hinside : e.offset + e.size ≤ 2 ^ b.maxOrder := Chunk.Coalesced.inside_free h.coalesced hmem
    have hstop : e.offset + e.size ≤ Word.limit := Nat.le_trans hinside (b.total_eq ▸ Nat.le_of_lt h.total_lt)
    have hhalve : Chunk.halve order e.offset e.order (b.free.erase e) =
        .ok (Chunk.split (e.order - order) e (b.free.erase e)).2 :=
      Chunk.halve_eq (Nat.add_sub_of_le hle).symm (by omega) hstop
    have horder := Chunk.order_split (e.order - order) e (b.free.erase e)
    rw [Nat.sub_sub_self hle] at horder
    have hoffset := Chunk.offset_split (Nat.sub_le e.order order) (b.free.erase e)
    rcases hsplit : Chunk.split (e.order - order) e (b.free.erase e) with ⟨chunk, free⟩
    simp only [hsplit] at hhalve horder hoffset hafter htotal ⊢
    have hchunk : Chunk.ofOffset order e.offset = chunk := by
      rw [← horder, ← hoffset, Chunk.ofOffset_offset]
    have hgranted : chunk.size = 1 <<< order := by rw [Chunk.size, horder]
    have hsum : b.allocated + 1 <<< order < Word.limit := by
      rw [← hgranted]
      exact Nat.lt_of_le_of_lt hafter htotal
    have hlive : (b.live.filter fun d => d.offset != e.offset) = b.live :=
      List.filter_eq_self.mpr fun d hd => bne_iff_ne.mpr fun he =>
        (Chunk.Coalesced.apart_of_free h.coalesced hmem hd).start_ne e.size_pos d.size_pos he.symm
    simp only [h.find?_range' hfind, find?_order hfind]
    rw [hlive, hhalve, ok_bind, power_eq (by omega), ok_bind, add_eq hsum, ok_bind, hchunk, ← hgranted, ← hoffset]
    rfl

theorem carveChecked (h : b.Bounded) (size : Nat) : b.carveChecked size = .ok (b.carve size) := by
  rw [Buddy.carveChecked]
  split_ifs with hsize
  · rw [Buddy.carve, if_pos hsize]
  -- a request of more than the region finds nothing, whether its size has a power or not
  have hrefused (hmax : b.maxOrder < Chunk.orderFor size) : b.refuseChecked size = .ok (b.carve size) := by
    have hfind : (b.free.find? fun c => Chunk.orderFor size ≤ c.order) = none := by
      refine List.find?_eq_none.mpr fun c hc => ?_
      have hle := h.order_le hc
      simp only [decide_eq_true_eq]
      omega
    rw [h.refuseChecked, Buddy.carve, if_neg hsize]
    simp only [hfind]
  by_cases hlt : Chunk.orderFor size < 64
  · simp only [Chunk.orderFor?_eq hlt]
    split_ifs with hmax
    · exact h.serveChecked hsize rfl
    · exact hrefused (Nat.lt_of_not_le hmax)
  · simp only [Chunk.orderFor?_eq_none hlt]
    exact hrefused (Nat.lt_of_lt_of_le h.order_lt (Nat.le_of_not_lt hlt))

theorem allocateChecked (h : b.Bounded) (hr : b.tally.HasRoom) (size : Nat) :
    b.allocateChecked size = .ok (b.allocate size) := by
  rw [Buddy.allocateChecked, h.carveChecked, ok_bind]
  simp only [b.tally_carve, hr.recordChecked, ok_bind]
  rw [Buddy.allocate, ← b.tally_carve size]
  rfl

/-- What comes back was counted, and its buddies are found by one bit. -/
theorem releaseChecked (h : b.Bounded) (hr : b.tally.HasRoom) (handle : CarveOut) :
    b.releaseChecked handle = .ok (b.release handle) := by
  unfold Buddy.releaseChecked
  fun_cases Buddy.release b handle
  case case1 e howned => simp only [howned]
  case case2 howned hfind => simp only [howned, hfind]
  case case3 howned c hfind =>
    have hmem : c ∈ b.live := List.mem_of_find?_eq_some hfind
    have hoffset : c.offset = handle.offset := by simpa using List.find?_some hfind
    have horder : c.order ≤ b.maxOrder := (Chunk.Coalesced.inside_live h.coalesced hmem).order_le
    have hlt := h.order_lt
    have hsize : 1 <<< c.order ≤ b.allocated := by
      rw [h.counted]
      exact List.single_le_sum (fun _ _ => Nat.zero_le _) _ (List.mem_map_of_mem (f := Chunk.size) hmem)
    simp only [howned, hfind]
    rw [power_eq (by omega), ok_bind, sub_eq hsize, ok_bind, ← hoffset, Chunk.coalesce_eq (by omega), ok_bind,
      hr.returnedChecked]
    rfl

theorem resetChecked (h : b.Bounded) : b.resetChecked = .ok b.reset := by
  have hlive (c : Chunk) (hc : c ∈ b.live) : c.order + (b.maxOrder - c.order) < 64 := by
    have horder : c.order ≤ b.maxOrder := (Chunk.Coalesced.inside_live h.coalesced hc).order_le
    have hlt := h.order_lt
    omega
  rw [Buddy.resetChecked, Chunk.foldlM_coalesce hlive, Buddy.reset, foldl_giveBack]
  rfl

end Bounded

/-! ## New regions -/

theorem makeChecked_eq (h : t.Regular) (total : Nat) (alignment : Alignment) :
    makeChecked t total alignment = .ok (make t total alignment) := by
  unfold makeChecked
  fun_cases Buddy.make t total alignment
  case case1 e hcapacity => simp only [hcapacity]
  case case2 hcapacity hlarge => simp only [hcapacity, Chunk.orderFor?, if_pos hlarge]
  case case3 hcapacity hlarge order e t₁ ha =>
    have hlt := Chunk.orderFor_lt_iff.mpr hlarge
    simp only [hcapacity, Chunk.orderFor?_eq hlt]
    rw [power_eq hlt, ok_bind, h.allocateChecked, ok_bind, ha]
    rfl
  case case4 hcapacity hlarge order base t₁ ha =>
    have hlt := Chunk.orderFor_lt_iff.mpr hlarge
    simp only [hcapacity, Chunk.orderFor?_eq hlt]
    rw [power_eq hlt, ok_bind, h.allocateChecked, ok_bind, ha]
    rfl

theorem bounded_of_make {total : Nat} {alignment : Alignment} (hm : make t total alignment = (.ok b, t')) :
    b.Bounded := by
  rw [(make_ok hm).1]
  refine ⟨coalesced_ofBase _ _, counted_ofBase _ _, ?_⟩
  revert hm
  fun_cases Buddy.make t total alignment
  case case4 hcapacity hlarge order base t₁ ha => exact fun _ => Chunk.orderFor_lt_iff.mpr hlarge
  all_goals exact fun hm => by cases hm

end Buddy

end TrackedHeap
