import Mathlib.Data.Finset.Card
import TrackedHeap.Carver.Occupancy

/-!
# The bits of cells

Setting and clearing the bit of a cell changes that bit alone (`Occupancy.isSet_set`,
`Occupancy.isSet_clear`). The search for a clear bit finds the first cell whose bit is clear, and fails exactly
if there is none (`Occupancy.firstClear_eq_some_iff`, `Occupancy.firstClear_eq_none_iff`). The bits are a set of
cells (`Occupancy.taken`), to which one is added and from which one is taken away.
-/

namespace TrackedHeap.Occupancy

variable {o : Occupancy} {i j : Nat}

/-- There are as many words as the bits of all cells need. -/
def Fits (o : Occupancy) : Prop :=
  o.words.size = (o.len + 63) / 64

theorem fits_empty (len : Nat) : (empty len).Fits :=
  Array.size_replicate

theorem Fits.set (h : o.Fits) (i : Nat) : (o.set i).Fits := by
  simpa [Fits, Occupancy.set] using h

theorem Fits.clear (h : o.Fits) (i : Nat) : (o.clear i).Fits := by
  simpa [Fits, Occupancy.clear] using h

/-- The bit of a cell is in one of the words. -/
theorem Fits.lt_size (h : o.Fits) (hi : i < o.len) : i / 64 < o.words.size := by
  rw [h]
  omega

theorem getLsbD_mask (i j : Nat) : (mask i).getLsbD (j % 64) = decide (i % 64 = j % 64) := by
  have hi := Nat.mod_lt i (by decide : 64 > 0)
  have hj := Nat.mod_lt j (by decide : 64 > 0)
  simp only [mask, BitVec.getLsbD_shiftLeft, BitVec.getLsbD_one]
  grind

/-- A cell is settled by its word and the place in it. -/
theorem decide_eq_div_mod (i j : Nat) :
    decide (i = j) = (decide (i / 64 = j / 64) && decide (i % 64 = j % 64)) := by
  rw [← Bool.decide_and, decide_eq_decide]
  omega

theorem isSet_set (h : o.Fits) (hi : i < o.len) (j : Nat) :
    (o.set i).isSet j = (decide (i = j) || o.isSet j) := by
  have hlt := h.lt_size hi
  simp only [isSet, word, set, Array.getElem?_setIfInBounds, decide_eq_div_mod i j]
  by_cases hw : i / 64 = j / 64
  · rw [if_pos hw, if_pos (hw ▸ hlt), hw, Option.getD_some, BitVec.getLsbD_or, getLsbD_mask,
      Bool.or_comm]
    simp
  · simp [hw]

theorem isSet_clear (h : o.Fits) (hi : i < o.len) (j : Nat) :
    (o.clear i).isSet j = (!decide (i = j) && o.isSet j) := by
  have hlt := h.lt_size hi
  have hj := Nat.mod_lt j (by decide : 64 > 0)
  simp only [isSet, word, clear, Array.getElem?_setIfInBounds, decide_eq_div_mod i j]
  by_cases hw : i / 64 = j / 64
  · rw [if_pos hw, if_pos (hw ▸ hlt), hw, Option.getD_some, BitVec.getLsbD_and, BitVec.getLsbD_not,
      getLsbD_mask, Bool.and_comm]
    simp [hj]
  · simp [hw]

/-- In a word that is not full, the bit after the trailing ones is clear. -/
theorem trailingOnes_spec {w : BitVec 64} (hw : w ≠ BitVec.allOnes 64) :
    trailingOnes w < 64 ∧ w.getLsbD (trailingOnes w) = false := by
  unfold trailingOnes
  cases hf : (List.range 64).find? fun i => !w.getLsbD i with
  | none =>
    refine absurd (BitVec.eq_of_getLsbD_eq fun i hi => ?_) hw
    have hset := List.find?_eq_none.mp hf i (List.mem_range.mpr hi)
    rw [BitVec.getLsbD_allOnes, decide_eq_true hi]
    simpa using hset
  | some k =>
    exact ⟨List.mem_range.mp (List.mem_of_find?_eq_some hf), by simpa using List.find?_some hf⟩

theorem isSet_firstClear (hf : o.firstClear = some i) : i < o.len ∧ o.isSet i = false := by
  unfold firstClear at hf
  split at hf
  · cases hf
  · next k hk =>
    simp only at hf
    split at hf
    · next hlt =>
      obtain rfl := Option.some.inj hf
      refine ⟨hlt, ?_⟩
      obtain ⟨hsize, hne, -⟩ := Array.findIdx?_eq_some_iff_getElem.mp hk
      have hw : o.words[k]?.getD 0 ≠ BitVec.allOnes 64 := by
        simpa [Array.getElem?_eq_getElem hsize] using hne
      obtain ⟨hbound, hclear⟩ := trailingOnes_spec hw
      rw [isSet, word, Nat.mul_comm, Nat.mul_add_div (by decide), Nat.mul_add_mod,
        Nat.div_eq_of_lt hbound, Nat.mod_eq_of_lt hbound, Nat.add_zero]
      exact hclear
    · cases hf

/-- Trailing ones are set. -/
theorem getLsbD_of_lt_trailingOnes {w : BitVec 64} (hi : i < trailingOnes w) : w.getLsbD i = true := by
  unfold trailingOnes at hi
  cases hf : (List.range 64).find? fun i => !w.getLsbD i with
  | none =>
    rw [hf, Option.getD_none] at hi
    simpa using List.find?_range_eq_none.mp hf i hi
  | some k =>
    rw [hf, Option.getD_some] at hi
    simpa using (List.find?_range_eq_some.mp hf).2.2 i hi

/-- Every bit of a full word is set. -/
theorem isSet_of_full (hlt : i / 64 < o.words.size) (hfull : o.words[i / 64] = BitVec.allOnes 64) :
    o.isSet i = true := by
  rw [isSet, word, Array.getElem?_eq_getElem hlt, Option.getD_some, hfull, BitVec.getLsbD_allOnes]
  exact decide_eq_true (Nat.mod_lt i (by decide))

/-- Words before the first that is not full are full, and so is that word up to its first clear bit. -/
theorem isSet_before {k : Nat} (hk : o.words.findIdx? (fun w => w != BitVec.allOnes 64) = some k)
    (hj : j < k * 64 + trailingOnes (o.words[k]?.getD 0)) : o.isSet j = true := by
  obtain ⟨hsize, hne, hfull⟩ := Array.findIdx?_eq_some_iff_getElem.mp hk
  have hword : o.words[k]?.getD 0 ≠ BitVec.allOnes 64 := by
    simpa [Array.getElem?_eq_getElem hsize] using hne
  have hbound := (trailingOnes_spec hword).1
  rcases Nat.lt_or_ge (j / 64) k with hlt | hge
  · exact isSet_of_full (Nat.lt_trans hlt hsize) (by simpa using hfull (j / 64) hlt)
  · obtain rfl : k = j / 64 := by omega
    refine getLsbD_of_lt_trailingOnes ?_
    show j % 64 < trailingOnes (o.words[j / 64]?.getD 0)
    omega

/-- Cells before the first free one are taken. -/
theorem isSet_of_lt_firstClear (hf : o.firstClear = some i) (hj : j < i) : o.isSet j = true := by
  unfold firstClear at hf
  split at hf
  · cases hf
  · next k hk =>
    simp only at hf
    split at hf
    · obtain rfl := Option.some.inj hf
      exact isSet_before hk hj
    · cases hf

/-- If no free cell is found, all are taken. -/
theorem isSet_of_firstClear_eq_none (h : o.Fits) (hf : o.firstClear = none) (hi : i < o.len) : o.isSet i = true := by
  unfold firstClear at hf
  split at hf
  · next hk =>
    have hlt := h.lt_size hi
    exact isSet_of_full hlt (by simpa using Array.findIdx?_eq_none_iff.mp hk _ (Array.getElem_mem hlt))
  · next k hk =>
    simp only at hf
    split at hf
    · cases hf
    · next hlen => exact isSet_before hk (by omega)

/-- The search finds the first free cell. -/
theorem firstClear_eq_some_iff (h : o.Fits) :
    o.firstClear = some i ↔ i < o.len ∧ o.isSet i = false ∧ ∀ j < i, o.isSet j = true := by
  constructor
  · intro hf
    obtain ⟨hlt, hclear⟩ := isSet_firstClear hf
    exact ⟨hlt, hclear, fun j hj => isSet_of_lt_firstClear hf hj⟩
  · rintro ⟨hlt, hclear, hset⟩
    cases hf : o.firstClear with
    | none =>
      rw [isSet_of_firstClear_eq_none h hf hlt] at hclear
      cases hclear
    | some k =>
      rcases Nat.lt_trichotomy i k with hik | rfl | hki
      · rw [isSet_of_lt_firstClear hf hik] at hclear
        cases hclear
      · rfl
      · have hk := (isSet_firstClear hf).2
        rw [hset k hki] at hk
        cases hk

/-- The search fails exactly if all cells are taken. -/
theorem firstClear_eq_none_iff (h : o.Fits) : o.firstClear = none ↔ ∀ i < o.len, o.isSet i = true := by
  refine ⟨fun hf i hi => isSet_of_firstClear_eq_none h hf hi, fun hset => ?_⟩
  cases hf : o.firstClear with
  | none => rfl
  | some k =>
    obtain ⟨hlt, hclear⟩ := isSet_firstClear hf
    rw [hset k hlt] at hclear
    cases hclear

/-! ## The set of taken cells -/

/-- The cells that are taken. -/
def taken (o : Occupancy) : Finset Nat :=
  (Finset.range o.len).filter fun i => o.isSet i

theorem mem_taken : i ∈ o.taken ↔ i < o.len ∧ o.isSet i = true := by
  rw [taken, Finset.mem_filter, Finset.mem_range]

theorem card_taken_le (o : Occupancy) : o.taken.card ≤ o.len := by
  have hle := Finset.card_filter_le (Finset.range o.len) fun i => o.isSet i
  rwa [Finset.card_range] at hle

/-- No cell of a new slab is taken. -/
theorem isSet_empty (len i : Nat) : (empty len).isSet i = false := by
  have hword : (empty len).word i = 0 := by
    simp only [word, empty, Array.getElem?_replicate]
    split <;> rfl
  rw [isSet, hword]
  exact BitVec.getLsbD_zero

theorem taken_empty (len : Nat) : (empty len).taken = ∅ := by
  ext i
  simp [mem_taken, isSet_empty]

theorem taken_set (h : o.Fits) (hi : i < o.len) : (o.set i).taken = insert i o.taken := by
  ext j
  rw [Finset.mem_insert, mem_taken, mem_taken, isSet_set h hi, Bool.or_eq_true, decide_eq_true_eq]
  show j < o.len ∧ _ ↔ _
  constructor
  · rintro ⟨hj, rfl | hset⟩
    · exact .inl rfl
    · exact .inr ⟨hj, hset⟩
  · rintro (rfl | ⟨hj, hset⟩)
    · exact ⟨hi, .inl rfl⟩
    · exact ⟨hj, .inr hset⟩

theorem taken_clear (h : o.Fits) (hi : i < o.len) : (o.clear i).taken = o.taken.erase i := by
  ext j
  rw [Finset.mem_erase, mem_taken, mem_taken, isSet_clear h hi, Bool.and_eq_true, Bool.not_eq_true',
    decide_eq_false_iff_not]
  show j < o.len ∧ _ ↔ _
  rw [and_left_comm, ne_comm]

end TrackedHeap.Occupancy
