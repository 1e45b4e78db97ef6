import TrackedHeap.Word

/-!
# Bytes in use

Running totals of the bytes that a tracker has granted, taken back and now holds, and the most it ever
held. A resized block counts as the growth or the shrinkage alone.
-/

namespace TrackedHeap

/-- Running totals of padded bytes. -/
structure Usage where
  allocated : Nat := 0
  freed : Nat := 0
  current : Nat := 0
  peak : Nat := 0
deriving DecidableEq, Repr

namespace Usage

/-- More bytes are held. -/
def add (u : Usage) (size : Nat) : Usage :=
  let current := Word.addWrap u.current size
  { u with
    allocated := Word.addWrap u.allocated size
    current
    peak := max u.peak current }

/-- Fewer bytes are held. -/
def remove (u : Usage) (size : Nat) : Usage :=
  { u with
    freed := Word.addWrap u.freed size
    current := Word.subWrap u.current size }

/-- A range of `old` bytes has become one of `new` bytes. -/
def resize (u : Usage) (old new : Nat) : Usage :=
  if old ≤ new then u.add (new - old) else u.remove (old - new)

end Usage

end TrackedHeap
