import Mathlib.Data.Nat.ModEq
import TrackedHeap.Heap.Budgeted
import TrackedHeap.Proofs.Heap.NonNull

/-!
# What is charged to a budget

A heap with a budget grants and takes back what the heap below it does, so it keeps the laws that the heap
below keeps, also when that one may answer with the address 0.

What is charged is counted with words (`Budgeted.Charged`): a request that is served charges its bytes, one
that is refused charges nothing, and a range that is taken back or resized gives back what it was charged,
if it stands on the list of ranges with its size. An answer with the address 0 counts as served here.
-/

namespace TrackedHeap

theorem Word.subWrap_modEq {a b c : Nat} (h : a ≡ c + b [MOD limit]) : subWrap a b ≡ c [MOD limit] := by
  unfold subWrap Nat.ModEq limit at *
  omega

namespace Extent

theorem sizeAt?_without_ne (extents : List Extent) {start other : Nat} (h : other ≠ start) :
    sizeAt? (without extents start) other = sizeAt? extents other := by
  unfold sizeAt? without
  rw [List.find?_filter]
  congr 2
  funext e
  by_cases he : e.start = other <;> simp [he, h]

theorem sizeAt?_insert_ne (extents : List Extent) {start other : Nat} (size : Nat)
    (h : other ≠ start) : sizeAt? (insert extents start size) other = sizeAt? extents other := by
  rw [← sizeAt?_without_ne extents h]
  simp [sizeAt?, insert, h.symm]

end Extent

namespace Budgeted

variable {H : Type} {h h' : Budgeted H} {bytes total size address old fresh : Nat} {e : MemoryError}

/-- A charge that the budget allows. -/
theorem reserve_eq_ok : h.reserve size = .ok h' ↔
    Word.addSat h.used size ≤ h.budget ∧ { h with used := Word.addWrap h.used size } = h' := by
  unfold reserve
  split
  · next hlt => simp [Nat.not_le_of_lt hlt]
  · next hle => simp [Nat.le_of_not_lt hle]

theorem reserve_eq_error : h.reserve size = .error e ↔
    h.budget < Word.addSat h.used size ∧ .outOfMemory size h.available = e := by
  unfold reserve
  split <;> simp [*]

/-- The bytes charged to a budget are those of a total, of which words show what is left modulo their
number. A budget below the largest word is never passed, so there they show all of it. -/
structure Charged (h : Budgeted H) (bytes total : Nat) : Prop where
  budget_eq : h.budget = bytes
  used_lt : h.used < Word.limit
  modEq : h.used ≡ total [MOD Word.limit]
  total_le : bytes < Word.largest → total ≤ bytes

namespace Charged

theorem start (inner : H) (bytes : Nat) : (Budgeted.mk inner bytes 0 []).Charged bytes 0 where
  budget_eq := rfl
  used_lt := (by decide : 0 < Word.limit)
  modEq := rfl
  total_le _ := Nat.zero_le _

/-- Only the bytes charged and the budget count. -/
theorem congr (hc : h.Charged bytes total) (hu : h'.used = h.used) (hb : h'.budget = h.budget) :
    h'.Charged bytes total where
  budget_eq := hb.trans hc.budget_eq
  used_lt := hu ▸ hc.used_lt
  modEq := hu ▸ hc.modEq
  total_le := hc.total_le

theorem used_eq (hc : h.Charged bytes total) : h.used = total % Word.limit :=
  (Nat.mod_eq_of_lt hc.used_lt).symm.trans hc.modEq

theorem used_eq_of_lt (hc : h.Charged bytes total) (hb : bytes < Word.largest) : h.used = total := by
  have hle := hc.total_le hb
  rw [hc.used_eq]
  exact Nat.mod_eq_of_lt (by unfold Word.largest at hb; omega)

/-- Bytes that make less than a word show as they are if the rest of the total does not show. -/
theorem used_eq_iff {held lost : Nat} (hc : h.Charged bytes (held + lost)) (hlt : held < Word.limit) :
    h.used = held ↔ Word.limit ∣ lost := by
  rw [hc.used_eq]
  unfold Word.limit at *
  omega

theorem used_le (hc : h.Charged bytes total) : h.used ≤ bytes := by
  by_cases hb : bytes < Word.largest
  · exact (hc.used_eq_of_lt hb).trans_le (hc.total_le hb)
  · have hlt := hc.used_lt
    unfold Word.largest at hb
    omega

theorem reserve (hc : h.Charged bytes total) (hr : h.reserve size = .ok h') :
    h'.Charged bytes (total + size) := by
  obtain ⟨hle, rfl⟩ := reserve_eq_ok.mp hr
  refine ⟨hc.budget_eq, Nat.mod_lt _ (by decide), ?_, fun hb => ?_⟩
  · calc Word.addWrap h.used size
      _ ≡ h.used + size [MOD Word.limit] := Nat.mod_modEq _ _
      _ ≡ total + size [MOD Word.limit] := hc.modEq.add_right size
  · -- a sum that stays below the largest word is not cut
    rw [hc.used_eq_of_lt hb, hc.budget_eq] at hle
    unfold Word.addSat at hle
    omega

theorem refund (hc : h.Charged bytes (total + size)) : (h.refund size).Charged bytes total where
  budget_eq := hc.budget_eq
  used_lt := Nat.mod_lt _ (by decide)
  modEq := Word.subWrap_modEq hc.modEq
  total_le hb := Nat.le_trans (Nat.le_add_right _ _) (hc.total_le hb)

/-- What the budget refuses is more than the total leaves of it. -/
theorem lt_of_reserve (hc : h.Charged bytes total) (hr : h.reserve size = .error e) :
    bytes < total + size := by
  have hlt := (reserve_eq_error.mp hr).1
  rw [hc.budget_eq] at hlt
  have hcut : Word.addSat h.used size ≤ Word.largest := Nat.min_le_right _ _
  rw [Word.addSat, hc.used_eq_of_lt (hlt.trans_le hcut)] at hlt
  exact hlt.trans_le (Nat.min_le_left _ _)

/-- What a resized range is charged before the heap below is asked: its growth, if it grows. -/
theorem grow (hc : h.Charged bytes total)
    (hr : (if size = 0 then .ok h else h.reserve size) = .ok h') :
    h'.Charged bytes (total + size) ∧ h'.sizes = h.sizes := by
  split at hr
  · next hzero =>
    cases hr
    rw [hzero]
    exact ⟨hc, rfl⟩
  · obtain ⟨-, heq⟩ := reserve_eq_ok.mp hr
    exact ⟨hc.reserve hr, heq ▸ rfl⟩

/-! ## Requests -/

variable [Heap H]

/-- A request that is served charges its bytes and lists the range. -/
theorem alloc_ok (hc : h.Charged bytes total) (ha : h.alloc size = (.ok address, h')) :
    h'.Charged bytes (total + size) ∧ h'.sizes = Extent.insert h.sizes address size := by
  revert ha
  fun_cases Budgeted.alloc h size
  case case2 charged hr address' inner heq =>
    intro ha
    cases ha
    exact ⟨(hc.reserve hr).congr rfl rfl, rfl⟩
  all_goals exact fun ha => by cases ha

/-- A request that is refused charges nothing. -/
theorem alloc_error (hc : h.Charged bytes total) (ha : h.alloc size = (.error e, h')) :
    h'.Charged bytes total ∧ h'.sizes = h.sizes := by
  revert ha
  fun_cases Budgeted.alloc h size
  case case1 =>
    intro ha
    cases ha
    exact ⟨hc, rfl⟩
  case case2 => exact fun ha => by cases ha
  case case3 charged hr e' inner heq =>
    intro ha
    cases ha
    obtain ⟨-, rfl⟩ := reserve_eq_ok.mp hr
    exact ⟨((hc.reserve hr).refund).congr rfl rfl, rfl⟩

theorem release (hc : h.Charged bytes (total + size)) (hs : Extent.sizeAt? h.sizes address = some size) :
    (h.release address).Charged bytes total ∧
      (h.release address).sizes = Extent.without h.sizes address := by
  unfold Budgeted.release
  rw [hs]
  exact ⟨hc.refund.congr rfl rfl, rfl⟩

/-- A range that was resized is charged with its new bytes in place of the old ones. -/
theorem realloc_ok (hc : h.Charged bytes (total + old)) (hs : Extent.sizeAt? h.sizes address = some old)
    (ha : h.realloc address size = (.ok fresh, h')) :
    h'.Charged bytes (total + size) ∧
      h'.sizes = Extent.insert (Extent.without h.sizes address) fresh size := by
  revert ha
  fun_cases Budgeted.realloc h address size
  case case2 old' growth charged hr fresh' inner heq =>
    intro ha
    cases ha
    have hold : old' = old := congrArg (·.getD 0) hs
    obtain ⟨hgrown, -⟩ := hc.grow hr
    have hsum : total + old + growth = total + size + (old' - size) := by omega
    rw [hsum] at hgrown
    exact ⟨hgrown.refund.congr rfl rfl, rfl⟩
  all_goals exact fun ha => by cases ha

/-- A range that could not be resized is charged as before. -/
theorem realloc_error (hc : h.Charged bytes total) (ha : h.realloc address size = (.error e, h')) :
    h'.Charged bytes total ∧ h'.sizes = h.sizes := by
  revert ha
  fun_cases Budgeted.realloc h address size
  case case1 =>
    intro ha
    cases ha
    exact ⟨hc, rfl⟩
  case case2 => exact fun ha => by cases ha
  case case3 old' growth charged hr e' inner heq =>
    intro ha
    cases ha
    obtain ⟨hgrown, hsizes⟩ := hc.grow hr
    exact ⟨hgrown.refund.congr rfl rfl, hsizes⟩

end Charged

end Budgeted

/-! ## The laws -/

namespace NonNull

variable {H : Type} [Heap H]

/-- The view of the heap below a budget. -/
def below (h : NonNull (Budgeted H)) : NonNull H :=
  ⟨h.inner.inner⟩

variable {h h' : NonNull (Budgeted H)} {size address : Nat} {result : Except MemoryError Nat}

/-- A request for a new range is refused by the budget and changes nothing, or is the one below. -/
theorem alloc_below (ha : Heap.alloc h size = (result, h')) :
    (h' = h ∧ ∃ e, result = .error e) ∨ Heap.alloc h.below size = (result, h'.below) := by
  have hcall : Heap.alloc h.inner size = h.inner.alloc size := rfl
  change NonNull.alloc h size = _ at ha
  change _ ∨ NonNull.alloc h.below size = _
  unfold NonNull.alloc at ha ⊢
  rw [hcall] at ha
  revert ha
  fun_cases Budgeted.alloc h.inner size
  case case1 e hr =>
    intro ha
    cases ha
    exact .inl ⟨rfl, e, rfl⟩
  case case2 charged hr address inner heq =>
    intro ha
    refine .inr ?_
    rw [show Heap.alloc h.below.inner size = _ from heq]
    simp only at ha ⊢
    split at ha <;> next hz => cases ha; simp only [hz, if_true, if_false]; rfl
  case case3 charged hr e inner heq =>
    intro ha
    cases ha
    refine .inr ?_
    rw [show Heap.alloc h.below.inner size = _ from heq]
    rfl

/-- So is a request to resize a range. -/
theorem realloc_below (ha : Heap.realloc h address size = (result, h')) :
    (h' = h ∧ ∃ e, result = .error e) ∨ Heap.realloc h.below address size = (result, h'.below) := by
  have hcall : Heap.realloc h.inner address size = h.inner.realloc address size := rfl
  change NonNull.realloc h address size = _ at ha
  change _ ∨ NonNull.realloc h.below address size = _
  unfold NonNull.realloc at ha ⊢
  rw [hcall] at ha
  revert ha
  fun_cases Budgeted.realloc h.inner address size
  case case1 old growth e hr =>
    intro ha
    cases ha
    exact .inl ⟨rfl, e, rfl⟩
  case case2 old growth charged hr fresh inner heq =>
    intro ha
    cases ha
    refine .inr ?_
    rw [show Heap.realloc h.below.inner address size = _ from heq]
    rfl
  case case3 old growth charged hr e inner heq =>
    intro ha
    cases ha
    refine .inr ?_
    rw [show Heap.realloc h.below.inner address size = _ from heq]
    rfl

end NonNull

open LawfulHeap (Sound Granted)

instance {H : Type} [Heap H] [LawfulHeap (NonNull H)] : LawfulHeap (NonNull (Budgeted H)) where
  Sound h := Sound h.below
  Granted h e := Granted h.below e
  alloc_ok hs hsize ha := by
    rcases NonNull.alloc_below ha with ⟨-, e, he⟩ | hbelow
    · cases he
    · exact LawfulHeap.alloc_ok hs hsize hbelow
  alloc_error hs hsize ha := by
    rcases NonNull.alloc_below ha with ⟨rfl, -⟩ | hbelow
    · exact ⟨hs, fun _ => Iff.rfl⟩
    · exact LawfulHeap.alloc_error hs hsize hbelow
  release hs hd := LawfulHeap.release hs hd
  realloc_ok hs hd hsize ha := by
    rcases NonNull.realloc_below ha with ⟨-, e, he⟩ | hbelow
    · cases he
    · exact LawfulHeap.realloc_ok hs hd hsize hbelow
  realloc_error hs hd hsize ha := by
    rcases NonNull.realloc_below ha with ⟨rfl, -⟩ | hbelow
    · exact ⟨hs, fun _ => Iff.rfl⟩
    · exact LawfulHeap.realloc_error hs hd hsize hbelow
  fill byte hs hd hc := LawfulHeap.fill byte hs hd hc
  store hs hd hc := LawfulHeap.store hs hd hc
  copy hs hc hd hsource htarget := LawfulHeap.copy hs hc hd hsource htarget
  copySwapped hs hc hd hsource htarget hwidth hdvd :=
    LawfulHeap.copySwapped hs hc hd hsource htarget hwidth hdvd

instance {H : Type} [Heap H] [LawfulBytes (NonNull H)] : LawfulBytes (NonNull (Budgeted H)) where
  alloc_bytes hs hsize ha e he := by
    rcases NonNull.alloc_below ha with ⟨rfl, -⟩ | hbelow
    · exact .refl _ _
    · exact LawfulBytes.alloc_bytes hs hsize hbelow e he
  release_bytes hs hd := LawfulBytes.release_bytes hs hd
  realloc_bytes hs hd hsize ha e he hne := by
    rcases NonNull.realloc_below ha with ⟨rfl, -⟩ | hbelow
    · exact .refl _ _
    · exact LawfulBytes.realloc_bytes hs hd hsize hbelow e he hne
  realloc_carries hs hd hsize ha := by
    rcases NonNull.realloc_below ha with ⟨-, e, he⟩ | hbelow
    · cases he
    · exact LawfulBytes.realloc_carries (H := NonNull H) hs hd hsize hbelow
  realloc_refused hs hd hsize ha := by
    rcases NonNull.realloc_below ha with ⟨rfl, -⟩ | hbelow
    · exact .refl _ _
    · exact LawfulBytes.realloc_refused (H := NonNull H) hs hd hsize hbelow
  fill_bytes byte hs hd hc := LawfulBytes.fill_bytes byte hs hd hc
  store_bytes hs hd hc := LawfulBytes.store_bytes hs hd hc
  copy_bytes hs hc hd hsource htarget := LawfulBytes.copy_bytes hs hc hd hsource htarget
  copySwapped_bytes hs hc hd hsource htarget hwidth hdvd :=
    LawfulBytes.copySwapped_bytes hs hc hd hsource htarget hwidth hdvd

end TrackedHeap
