import Mathlib.Algebra.Order.BigOperators.Group.List
import TrackedHeap.Proofs.Carver.Occupancy
import TrackedHeap.Proofs.Checked.Basic

/-!
# Bits of cells within words

The words of the bits are looked up by index, and a bit of a word by a power of two. A cell below the length has its
word (`Occupancy.Fits`), and the place of a bit in its word is below 64, so looking up, setting and clearing the bit
of a cell never stop (`Occupancy.Fits.isSetChecked`, `Occupancy.Fits.setChecked`, `Occupancy.Fits.clearChecked`). The
first clear bit and the number of set ones are below a bound that the number of words gives.
-/

namespace TrackedHeap.Occupancy

open Checked (add mul power get ok_bind)

variable {o : Occupancy} {i : Nat}

/-- The word that holds the bit of a cell. -/
def wordChecked (o : Occupancy) (index : Nat) : Checked (BitVec 64) :=
  get o.words.toList (index / 64)

/-- The word with nothing but the bit of a cell. -/
def maskChecked (index : Nat) : Checked (BitVec 64) := do
  let bit ← power (index % 64)
  return BitVec.ofNat 64 bit

/-- Whether a cell is taken. -/
def isSetChecked (o : Occupancy) (index : Nat) : Checked Bool := do
  let word ← o.wordChecked index
  let mask ← maskChecked index
  return word &&& mask != 0

/-- The cell is taken. -/
def setChecked (o : Occupancy) (index : Nat) : Checked Occupancy := do
  let word ← o.wordChecked index
  let mask ← maskChecked index
  return { o with words := o.words.setIfInBounds (index / 64) (word ||| mask) }

/-- The cell is free. -/
def clearChecked (o : Occupancy) (index : Nat) : Checked Occupancy := do
  let word ← o.wordChecked index
  let mask ← maskChecked index
  return { o with words := o.words.setIfInBounds (index / 64) (word &&& ~~~ mask) }

/-- The first free cell. -/
def firstClearChecked (o : Occupancy) : Checked (Option Nat) :=
  match o.words.findIdx? fun w => w != BitVec.allOnes 64 with
  | none => .ok none
  | some i => do
    let word ← get o.words.toList i
    let start ← mul i 64
    let index ← add start (trailingOnes word)
    return if index < o.len then some index else none

/-- The number of taken cells. -/
def countChecked (o : Occupancy) : Checked Nat :=
  Checked.sum (o.words.toList.map ones)

theorem maskChecked_eq (index : Nat) : maskChecked index = .ok (mask index) := by
  rw [maskChecked, Checked.power_eq (Nat.mod_lt _ (by decide)), ok_bind, mask]
  refine congrArg Except.ok (BitVec.eq_of_toNat_eq ?_)
  simp [Nat.one_shiftLeft, BitVec.toNat_shiftLeft]

/-- A bit of a word is set if the word and the bit have one in common. -/
theorem and_mask_ne_zero (w : BitVec 64) (i : Nat) : (w &&& mask i != 0) = w.getLsbD (i % 64) := by
  have hbit (j : Nat) (hj : j < 64) : (w &&& mask i).getLsbD j = (w.getLsbD j && decide (i % 64 = j)) := by
    have hmask := getLsbD_mask i j
    rw [Nat.mod_eq_of_lt hj] at hmask
    rw [BitVec.getLsbD_and, hmask]
  have hi := Nat.mod_lt i (by decide : 64 > 0)
  cases hset : w.getLsbD (i % 64) with
  | true =>
    refine bne_iff_ne.mpr fun hzero => ?_
    have h := hbit _ hi
    simp [hzero, hset] at h
  | false =>
    refine bne_eq_false_iff_eq.mpr (BitVec.eq_of_getLsbD_eq fun j hj => ?_)
    show (w &&& mask i).getLsbD j = (0#64).getLsbD j
    rw [hbit j hj, BitVec.getLsbD_zero, Bool.and_eq_false_iff, decide_eq_false_iff_not]
    by_cases hj' : i % 64 = j
    · exact .inl (hj' ▸ hset)
    · exact .inr hj'

theorem ones_le (w : BitVec 64) : ones w ≤ 64 := by
  refine Nat.le_trans (List.length_filter_le ..) ?_
  rw [List.length_range]

theorem count_eq_sum (o : Occupancy) : o.count = (o.words.toList.map ones).sum := by
  rw [count, ← Array.foldl_toList, List.sum_eq_foldl, List.foldl_map]

/-- A word has at most 64 bits that are set. -/
theorem count_le (o : Occupancy) : o.count ≤ o.words.size * 64 := by
  have hsum := List.sum_le_card_nsmul (o.words.toList.map ones) 64 (List.forall_mem_map.mpr fun w _ => ones_le w)
  rwa [List.length_map, Array.length_toList, Nat.nsmul_eq_mul, ← count_eq_sum] at hsum

theorem countChecked_eq (h : o.words.size * 64 < Word.limit) : o.countChecked = .ok o.count := by
  have hle := o.count_le
  rw [countChecked, count_eq_sum, Checked.sum_eq]
  rw [← count_eq_sum]
  omega

theorem firstClearChecked_eq (h : o.words.size * 64 < Word.limit) : o.firstClearChecked = .ok o.firstClear := by
  rw [firstClearChecked, firstClear]
  cases hf : o.words.findIdx? fun w => w != BitVec.allOnes 64 with
  | none => rfl
  | some i =>
    obtain ⟨hlt, hfull, -⟩ := Array.findIdx?_eq_some_iff_getElem.mp hf
    have htrailing := (trailingOnes_spec (bne_iff_ne.mp hfull)).1
    have hword : o.words.toList[i]? = some o.words[i] := by
      rw [Array.getElem?_toList, Array.getElem?_eq_getElem hlt]
    simp only [Checked.get_eq hword, ok_bind, Array.getElem?_eq_getElem hlt, Option.getD_some]
    rw [Checked.mul_eq (by omega), ok_bind, Checked.add_eq (by omega)]
    rfl

namespace Fits

theorem wordChecked (h : o.Fits) (hi : i < o.len) : o.wordChecked i = .ok (o.word i) := by
  have hlt := h.lt_size hi
  refine Checked.get_eq ?_
  rw [Array.getElem?_toList, word, Array.getElem?_eq_getElem hlt, Option.getD_some]

theorem isSetChecked (h : o.Fits) (hi : i < o.len) : o.isSetChecked i = .ok (o.isSet i) := by
  rw [Occupancy.isSetChecked, h.wordChecked hi, ok_bind, maskChecked_eq, ok_bind, and_mask_ne_zero]
  rfl

theorem setChecked (h : o.Fits) (hi : i < o.len) : o.setChecked i = .ok (o.set i) := by
  rw [Occupancy.setChecked, h.wordChecked hi, ok_bind, maskChecked_eq]
  rfl

theorem clearChecked (h : o.Fits) (hi : i < o.len) : o.clearChecked i = .ok (o.clear i) := by
  rw [Occupancy.clearChecked, h.wordChecked hi, ok_bind, maskChecked_eq]
  rfl

end Fits

end TrackedHeap.Occupancy
