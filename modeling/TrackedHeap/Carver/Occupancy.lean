/-!
# Occupancy of cells

One bit for each of `len` cells, in words of 64. Bits past the last cell stay clear, and the search for a
clear bit looks for the first word that has one.
-/

namespace TrackedHeap

/-- Which of `len` cells are taken. -/
structure Occupancy where
  words : Array (BitVec 64)
  len : Nat

namespace Occupancy

/-- All cells free. -/
def empty (len : Nat) : Occupancy where
  words := Array.replicate ((len + 63) / 64) 0
  len := len

/-- The word that holds the bit of a cell. -/
def word (o : Occupancy) (index : Nat) : BitVec 64 :=
  o.words[index / 64]?.getD 0

/-- The word with nothing but the bit of a cell. -/
def mask (index : Nat) : BitVec 64 :=
  1#64 <<< (index % 64)

/-- Whether a cell is taken. -/
def isSet (o : Occupancy) (index : Nat) : Bool :=
  (o.word index).getLsbD (index % 64)

/-- The cell is taken. -/
def set (o : Occupancy) (index : Nat) : Occupancy :=
  { o with words := o.words.setIfInBounds (index / 64) (o.word index ||| mask index) }

/-- The cell is free. -/
def clear (o : Occupancy) (index : Nat) : Occupancy :=
  { o with words := o.words.setIfInBounds (index / 64) (o.word index &&& ~~~ mask index) }

/-- How many of the lowest bits are set before the first clear one. -/
def trailingOnes (w : BitVec 64) : Nat :=
  ((List.range 64).find? fun i => !w.getLsbD i).getD 64

/-- The first free cell. -/
def firstClear (o : Occupancy) : Option Nat :=
  match o.words.findIdx? fun w => w != BitVec.allOnes 64 with
  | none => none
  | some i =>
    let index := i * 64 + trailingOnes (o.words[i]?.getD 0)
    if index < o.len then some index else none

/-- The number of set bits of a word. -/
def ones (w : BitVec 64) : Nat :=
  ((List.range 64).filter fun i => w.getLsbD i).length

/-- The number of taken cells. -/
def count (o : Occupancy) : Nat :=
  o.words.foldl (fun sum w => sum + ones w) 0

end Occupancy

end TrackedHeap
