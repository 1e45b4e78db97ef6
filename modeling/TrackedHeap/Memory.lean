import TrackedHeap.Word

/-!
# Byte memory

A memory gives every address a byte. Each operation is stated by the byte that an address holds
afterwards, in terms of the memory before: so a copy takes its source as it was, however the two ranges
overlap.
-/

namespace TrackedHeap

/-- The byte at every address. -/
abbrev Memory := Nat → UInt8

namespace Memory

/-- The memory before anything was written. -/
def blank : Memory := fun _ => 0

/-- `length` bytes from `start` on become `byte`. -/
def fill (m : Memory) (start length : Nat) (byte : UInt8) : Memory := fun a =>
  if start ≤ a ∧ a < start + length then byte else m a

/-- The bytes from `start` on become `bytes`. -/
def store (m : Memory) (start : Nat) (bytes : List UInt8) : Memory := fun a =>
  if start ≤ a then bytes[a - start]?.getD (m a) else m a

/-- `length` bytes from `target` on become those from `source` on. -/
def copy (m : Memory) (source target length : Nat) : Memory := fun a =>
  if target ≤ a ∧ a < target + length then m (source + (a - target)) else m a

/-- Where the byte at place `i` of a range of `length` bytes comes from when each of its whole elements
of `width` bytes is reversed; a shorter rest at the end keeps its order. -/
def swapped (width length i : Nat) : Nat :=
  if (i / width + 1) * width ≤ length then i / width * width + (width - 1 - i % width) else i

/-- `length` bytes from `target` on become those from `source` on with every element reversed. -/
def copySwapped (m : Memory) (source target length width : Nat) : Memory := fun a =>
  if target ≤ a ∧ a < target + length then m (source + swapped width length (a - target)) else m a

/-- The `length` bytes from `start` on. -/
def read (m : Memory) (start length : Nat) : List UInt8 :=
  (List.range length).map fun i => m (start + i)

/-! ## Reading back -/

theorem fill_of_mem {m : Memory} {start length a : Nat} {byte : UInt8}
    (h : start ≤ a) (h' : a < start + length) : m.fill start length byte a = byte := by
  simp [fill, h, h']

theorem fill_of_not_mem {m : Memory} {start length a : Nat} {byte : UInt8}
    (h : a < start ∨ start + length ≤ a) : m.fill start length byte a = m a := by
  exact if_neg (by omega)

theorem copy_add {m : Memory} {source target length i : Nat} (h : i < length) :
    m.copy source target length (target + i) = m (source + i) := by
  simp [copy, h]

theorem copy_of_not_mem {m : Memory} {source target length a : Nat}
    (h : a < target ∨ target + length ≤ a) : m.copy source target length a = m a := by
  exact if_neg (by omega)

theorem store_add {m : Memory} {start i : Nat} {bytes : List UInt8} (h : i < bytes.length) :
    m.store start bytes (start + i) = bytes[i] := by
  simp [store, h]

theorem store_of_not_mem {m : Memory} {start a : Nat} {bytes : List UInt8}
    (h : a < start ∨ start + bytes.length ≤ a) : m.store start bytes a = m a := by
  by_cases hs : start ≤ a
  · simp [store, hs, List.getElem?_eq_none (show bytes.length ≤ a - start by omega)]
  · simp [store, hs]

theorem read_succ (m : Memory) (start length : Nat) :
    m.read start (length + 1) = m start :: m.read (start + 1) length := by
  simp [read, List.range_succ_eq_map, Nat.add_assoc, Nat.add_comm 1]

@[simp] theorem length_read (m : Memory) (start length : Nat) :
    (m.read start length).length = length := by
  simp [read]

theorem getElem_read {m : Memory} {start length i : Nat} (h : i < (m.read start length).length) :
    (m.read start length)[i] = m (start + i) := by
  simp [read]

end Memory

end TrackedHeap
