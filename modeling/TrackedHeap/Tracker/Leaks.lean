import TrackedHeap.Tracker.Basic

/-!
# Blocks that have been live for long

A block is reported as a possible leak when it is older than a given age. Ages are compared in whole
microseconds, and the given age is cut to a word, so an age of `2 ^ 64` microseconds or more counts as
what is left of it modulo `2 ^ 64`.
-/

namespace TrackedHeap

/-- A span of time. -/
structure Age where
  seconds : Nat
  nanoseconds : Nat
deriving DecidableEq, Repr

namespace Age

/-- The span of as many milliseconds. -/
def ofMilliseconds (n : Nat) : Age where
  seconds := n / 1000
  nanoseconds := n % 1000 * 1000000

/-- The whole microseconds of a span. -/
def microseconds (a : Age) : Nat :=
  a.seconds * 1000000 + a.nanoseconds / 1000

end Age

namespace Tracker

variable {H : Type}

/-- The live blocks older than an age, by rising id. The table holds live blocks only, so none has to be passed over
because it was returned. -/
def leaks (t : Tracker H) (age : Age) : List Block :=
  t.blocks.filter fun b => age.microseconds % Word.limit < t.now - b.createdAt

end Tracker

end TrackedHeap
