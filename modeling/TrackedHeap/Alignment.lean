import TrackedHeap.Error
import TrackedHeap.Text.Blank

/-!
# Alignment

A block's address is a multiple of one of four powers of two. To make room for that, a block of `size`
bytes takes `size + bytes - 1` bytes of the heap and starts at the first multiple inside them.
-/

namespace TrackedHeap

/-- The multiples a block may be asked to start at. -/
inductive Alignment where
  | byte
  | word
  | cacheLine
  | page
deriving DecidableEq, Repr

namespace Alignment

def all : List Alignment := [byte, word, cacheLine, page]

/-- The power of two that addresses are a multiple of. -/
def bytes : Alignment → Nat
  | byte => 1
  | word => 8
  | cacheLine => 64
  | page => 4096

/-- The least multiple of the alignment that is not below `n`. -/
def alignUp (a : Alignment) (n : Nat) : Nat :=
  (n + (a.bytes - 1)) / a.bytes * a.bytes

/-- The bytes that surely hold an aligned range of `size` bytes. -/
def paddedSize (a : Alignment) (size : Nat) : Except MemoryError Nat :=
  match Word.add? size (a.bytes - 1) with
  | some padded => .ok padded
  | none => .error (.sizeOverflows size)

def isAligned (a : Alignment) (address : Nat) : Bool :=
  address % a.bytes == 0

/-- The spelling in documents. -/
def name : Alignment → String
  | byte => "none"
  | word => "word"
  | cacheLine => "cache_line"
  | page => "page"

/-- The spelling for a reader. -/
def display : Alignment → String
  | byte => "NONE"
  | word => "WORD_ALIGNED"
  | cacheLine => "CACHE_LINE_ALIGNED"
  | page => "PAGE_ALIGNED"

/-- The spelling in the description of an allocator. -/
def label : Alignment → String
  | byte => "None"
  | word => "Word"
  | cacheLine => "CacheLine"
  | page => "Page"

/-- Reads either spelling or the number of bytes, in any case and between blanks. -/
def parse (text : String) : Except MemoryError Alignment :=
  let key := Text.lower (Text.trim text)
  if key = "none" ∨ key = "1" then .ok byte
  else if key = "word" ∨ key = "word_aligned" ∨ key = "8" then .ok word
  else if key = "cache_line" ∨ key = "cache_line_aligned" ∨ key = "64" then .ok cacheLine
  else if key = "page" ∨ key = "page_aligned" ∨ key = "4096" then .ok page
  else .error (.unknownAlignment key)

/-! ## Laws of rounding -/

theorem bytes_pos (a : Alignment) : 0 < a.bytes := by
  cases a <;> decide

theorem isAligned_iff {a : Alignment} {n : Nat} : a.isAligned n = true ↔ a.bytes ∣ n := by
  simp [isAligned, Nat.dvd_iff_mod_eq_zero]

theorem dvd_alignUp (a : Alignment) (n : Nat) : a.bytes ∣ a.alignUp n :=
  Nat.dvd_mul_left _ _

theorem le_alignUp (a : Alignment) (n : Nat) : n ≤ a.alignUp n := by
  have h := Nat.div_add_mod (n + (a.bytes - 1)) a.bytes
  have hm := Nat.mod_lt (n + (a.bytes - 1)) a.bytes_pos
  have := a.bytes_pos
  unfold alignUp
  rw [Nat.mul_comm] at h
  omega

/-- No multiple of the alignment lies between a number and its rounding. -/
theorem alignUp_le {a : Alignment} {n m : Nat} (hm : a.bytes ∣ m) (h : n ≤ m) : a.alignUp n ≤ m := by
  obtain ⟨k, rfl⟩ := hm
  have hk : (n + (a.bytes - 1)) / a.bytes < k + 1 := by
    rw [Nat.div_lt_iff_lt_mul a.bytes_pos, Nat.add_mul, Nat.one_mul, Nat.mul_comm k]
    have := a.bytes_pos
    omega
  rw [alignUp, Nat.mul_comm]
  exact Nat.mul_le_mul_left _ (Nat.le_of_lt_succ hk)

theorem alignUp_lt (a : Alignment) (n : Nat) : a.alignUp n < n + a.bytes := by
  have h := Nat.div_mul_le_self (n + (a.bytes - 1)) a.bytes
  have := a.bytes_pos
  unfold alignUp
  omega

theorem paddedSize_eq_ok {a : Alignment} {size padded : Nat} :
    a.paddedSize size = .ok padded ↔ size + (a.bytes - 1) = padded ∧ padded < Word.limit := by
  unfold paddedSize
  rw [← Word.add?_eq_some]
  split <;> simp_all

end Alignment

end TrackedHeap
