import TrackedHeap.CopyMode
import TrackedHeap.Memory

/-!
# Copies through a buffer

A copy may read all of its source into a buffer, put the bytes in order there (`CopyMode.arranged`), and write the
buffer to its target. For memory that is one step: a plain copy takes every byte from the memory as it was
(`Memory.copy_eq_store`), and so does one that reverses elements, from the place that the byte has in its element
(`Memory.copySwapped_eq_store`). To put bytes in order twice changes nothing (`CopyMode.arranged_arranged`).
-/

namespace TrackedHeap

namespace Bytes

variable {width n : Nat}

/-- The first `n` elements of `width` bytes with their bytes in reverse order, and the rest as it is. -/
def reverseEach (width : Nat) : Nat → List UInt8 → List UInt8
  | 0, bytes => bytes
  | n + 1, bytes => (bytes.take width).reverse ++ reverseEach width n (bytes.drop width)

@[simp] theorem length_reverseEach (width n : Nat) (bytes : List UInt8) :
    (reverseEach width n bytes).length = bytes.length := by
  induction n generalizing bytes with
  | zero => rfl
  | succ n ih =>
    rw [reverseEach, List.length_append, List.length_reverse, ih, List.length_take, List.length_drop]
    omega

theorem reverseEach_reverseEach {bytes : List UInt8} (h : n * width ≤ bytes.length) :
    reverseEach width n (reverseEach width n bytes) = bytes := by
  induction n generalizing bytes with
  | zero => rfl
  | succ n ih =>
    rw [Nat.succ_mul] at h
    have hfirst : (bytes.take width).reverse.length = width := by
      rw [List.length_reverse, List.length_take]
      omega
    have hrest : n * width ≤ (bytes.drop width).length := by
      rw [List.length_drop]
      omega
    rw [reverseEach, reverseEach, List.take_left' hfirst, List.drop_left' hfirst, List.reverse_reverse, ih hrest,
      List.take_append_drop]

/-- A byte of one of the elements comes from the place in it that is as far from the end. -/
theorem getElem?_reverseEach (hw : 0 < width) {bytes : List UInt8} (h : n * width ≤ bytes.length) (i : Nat) :
    (reverseEach width n bytes)[i]? =
      bytes[if i < n * width then i / width * width + (width - 1 - i % width) else i]? := by
  induction n generalizing bytes i with
  | zero => simp [reverseEach]
  | succ n ih =>
    rw [Nat.succ_mul] at h ⊢
    have hfirst : (bytes.take width).reverse.length = width := by
      rw [List.length_reverse, List.length_take]
      omega
    rcases Nat.lt_or_ge i width with hi | hi
    · have hlt : i < (bytes.take width).length := by
        rw [List.length_take]
        omega
      rw [reverseEach, List.getElem?_append_left (by omega), List.getElem?_reverse hlt, List.getElem?_take,
        if_pos (by rw [List.length_take]; omega), if_pos (by omega), Nat.div_eq_of_lt hi, Nat.mod_eq_of_lt hi,
        List.length_take, Nat.min_eq_left (by omega)]
      congr 1
      omega
    · obtain ⟨j, rfl⟩ := Nat.exists_eq_add_of_le hi
      have hrest : n * width ≤ (bytes.drop width).length := by
        rw [List.length_drop]
        omega
      rw [reverseEach, List.getElem?_append_right (by omega), hfirst, Nat.add_sub_cancel_left, ih hrest,
        List.getElem?_drop, Nat.add_div_left _ hw, Nat.add_mod_left, Nat.succ_mul]
      congr 1
      split <;> split <;> omega

end Bytes

namespace CopyMode

/-- The bytes as they arrive: every whole element reversed, if elements are. -/
def arranged (mode : CopyMode) (bytes : List UInt8) : List UInt8 :=
  match mode with
  | plain => bytes
  | byteSwap width => Bytes.reverseEach width (bytes.length / width) bytes

@[simp] theorem length_arranged (mode : CopyMode) (bytes : List UInt8) :
    (mode.arranged bytes).length = bytes.length := by
  cases mode with
  | plain => rfl
  | byteSwap width => exact Bytes.length_reverseEach _ _ _

theorem arranged_arranged (mode : CopyMode) (bytes : List UInt8) : mode.arranged (mode.arranged bytes) = bytes := by
  cases mode with
  | plain => rfl
  | byteSwap width =>
    rw [arranged, arranged, Bytes.length_reverseEach]
    exact Bytes.reverseEach_reverseEach (Nat.div_mul_le_self _ _)

end CopyMode

namespace Memory

variable {m : Memory} {source target length width : Nat}

theorem getElem?_read (m : Memory) (start : Nat) {i : Nat} (hi : i < length) :
    (m.read start length)[i]? = some (m (start + i)) := by
  rw [List.getElem?_eq_getElem (by rwa [length_read]), getElem_read]

/-- What was stored is read. -/
theorem read_store (m : Memory) (start : Nat) {bytes : List UInt8} (h : bytes.length = length) :
    (m.store start bytes).read start length = bytes := by
  refine List.ext_getElem ((length_read _ _ _).trans h.symm) fun i hi hlt => ?_
  rw [getElem_read, store_add hlt]

/-- Two ways to change the bytes of one range are the same if they agree inside it. -/
theorem eq_store {m' : Memory} {bytes : List UInt8} (hin : ∀ i (h : i < bytes.length), m' (target + i) = bytes[i])
    (hout : ∀ a, a < target ∨ target + bytes.length ≤ a → m' a = m a) : m' = m.store target bytes := by
  funext a
  by_cases ha : a < target ∨ target + bytes.length ≤ a
  · rw [hout a ha, store_of_not_mem ha]
  · obtain ⟨i, rfl⟩ := Nat.exists_eq_add_of_le (show target ≤ a by omega)
    have hi : i < bytes.length := by omega
    rw [hin i hi, store_add hi]

/-- A copy writes what was read before. -/
theorem copy_eq_store (m : Memory) (source target length : Nat) :
    m.copy source target length = m.store target (m.read source length) := by
  refine eq_store (fun i hi => ?_) fun a ha => ?_
  · rw [length_read] at hi
    rw [copy_add hi, getElem_read]
  · rw [length_read] at ha
    exact copy_of_not_mem ha

/-- Elements are reversed in a buffer between reading and writing. -/
theorem copySwapped_eq_store (m : Memory) (source target length : Nat) (hw : 0 < width) :
    m.copySwapped source target length width =
      m.store target ((CopyMode.byteSwap width).arranged (m.read source length)) := by
  refine eq_store (fun i hi => ?_) fun a ha => ?_
  · rw [CopyMode.length_arranged, length_read] at hi
    have hwhole : (i / width + 1) * width ≤ length ↔ i < length / width * width := by
      rw [← Nat.le_div_iff_mul_le hw, Nat.succ_le_iff, Nat.div_lt_iff_lt_mul hw]
    have hplace : swapped width length i =
        if i < length / width * width then i / width * width + (width - 1 - i % width) else i := by
      simp only [swapped, hwhole]
    have hlt : swapped width length i < length := by
      rw [swapped]
      split
      · next h =>
        rw [Nat.succ_mul] at h
        omega
      · exact hi
    have hread : ((CopyMode.byteSwap width).arranged (m.read source length))[i]? =
        some (m (source + swapped width length i)) := by
      rw [CopyMode.arranged, length_read, Bytes.getElem?_reverseEach hw, ← hplace, getElem?_read m source hlt]
      rw [length_read]
      exact Nat.div_mul_le_self _ _
    rw [copySwapped, if_pos ⟨Nat.le_add_right _ _, by omega⟩, Nat.add_sub_cancel_left]
    exact (List.getElem_of_getElem? hread).2.symm
  · rw [CopyMode.length_arranged, length_read] at ha
    exact if_neg (by omega)

end Memory

end TrackedHeap
