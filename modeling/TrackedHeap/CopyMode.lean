import TrackedHeap.Error

/-!
# Modes of copying

Bytes are copied as they are, or the bytes of every element of 2, 4 or 8 are put in reverse order on the
way.
-/

namespace TrackedHeap

/-- What happens to bytes on the way. -/
inductive CopyMode where
  | plain
  /-- The bytes of every element of `width` bytes are reversed. -/
  | byteSwap (width : Nat)
deriving DecidableEq, Repr

namespace CopyMode

/-- Refuses a width that is no element size, and then a length that it does not divide. -/
def validate (mode : CopyMode) (length : Nat) : Except MemoryError Unit :=
  match mode with
  | plain => .ok ()
  | byteSwap width =>
    if width ≠ 2 ∧ width ≠ 4 ∧ width ≠ 8 then .error (.swapWidth width)
    else if length % width ≠ 0 then .error (.swapLength length width)
    else .ok ()

end CopyMode

end TrackedHeap
