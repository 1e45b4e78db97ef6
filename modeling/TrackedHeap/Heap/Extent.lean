import TrackedHeap.Word

/-!
# Extents

The ranges that a heap has granted and not taken back: a list in which every start occurs once.
-/

namespace TrackedHeap

/-- A range of bytes. -/
structure Extent where
  start : Nat
  size : Nat
deriving DecidableEq, Repr

namespace Extent

/-- The size of the range that starts at the address. -/
def sizeAt? (extents : List Extent) (start : Nat) : Option Nat :=
  (extents.find? fun e => e.start == start).map Extent.size

/-- All ranges but the one that starts at the address. -/
def without (extents : List Extent) (start : Nat) : List Extent :=
  extents.filter fun e => e.start != start

/-- The ranges with one more, in place of any other with its start. -/
def insert (extents : List Extent) (start : Nat) (size : Nat) : List Extent :=
  ⟨start, size⟩ :: without extents start

theorem sizeAt?_insert (extents : List Extent) (start size : Nat) :
    sizeAt? (insert extents start size) start = some size := by
  simp [sizeAt?, insert]

theorem mem_without {extents : List Extent} {start : Nat} {e : Extent} :
    e ∈ without extents start ↔ e ∈ extents ∧ e.start ≠ start := by
  simp [without]

end Extent

end TrackedHeap
