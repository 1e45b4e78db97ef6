import TrackedHeap.Block
import TrackedHeap.Heap
import TrackedHeap.Tracker.Pressure
import TrackedHeap.Tracker.Usage

/-!
# Trackers

A tracker hands out aligned blocks of a heap and knows every block that is live. Ids are given out in
rising order and never again, so a handle that has outlived its block names nothing. The table of live
blocks is in the order of ids.

A tracker has its own clock, which `advance` moves on. The times that it writes on blocks are words, so they
go round after `2 ^ 64` microseconds.
-/

namespace TrackedHeap

/-- The live blocks of a heap, and running totals over them. -/
structure Tracker (H : Type) where
  heap : H
  /-- What pressure is measured against. -/
  budget : Option Nat
  /-- The live blocks by rising id. -/
  blocks : List Block := []
  /-- The id of the next block. -/
  nextId : Nat := 1
  usage : Usage := {}
  /-- Microseconds since the tracker was made. -/
  clock : Nat := 0

/-- The figures that a tracker reports. -/
structure UsageReport where
  allocated : Nat
  freed : Nat
  current : Nat
  peak : Nat
  active : Nat
  /-- Held bytes per live block, or 0 if there is none. -/
  average : Float
  pressure : Pressure

namespace Tracker

variable {H : Type}

/-- The tracker of a heap that has granted nothing yet. -/
def ofHeap (heap : H) (budget : Option Nat) : Tracker H where
  heap := heap
  budget := budget

/-- Time passes. -/
def advance (t : Tracker H) (microseconds : Nat) : Tracker H :=
  { t with clock := t.clock + microseconds }

/-- The time as it is written on blocks. -/
def now (t : Tracker H) : Nat :=
  t.clock % Word.limit

/-- The live block of an id. -/
def lookup (t : Tracker H) (id : Nat) : Option Block :=
  t.blocks.find? fun b => b.id == id

/-- Whether the block that a handle names is live. -/
def isLive (t : Tracker H) (handle : Block) : Bool :=
  (t.lookup handle.id).isSome

/-- The number of live blocks. -/
def active (t : Tracker H) : Nat :=
  t.blocks.length

/-- The live blocks but the one of an id. -/
def others (t : Tracker H) (id : Nat) : List Block :=
  t.blocks.filter fun b => b.id != id

/-- The pressure on the budget. -/
def pressure (t : Tracker H) : Pressure :=
  .ofUse t.budget t.usage.current

/-- The figures now. -/
def report (t : Tracker H) : UsageReport where
  allocated := t.usage.allocated
  freed := t.usage.freed
  current := t.usage.current
  peak := t.usage.peak
  active := t.active
  average :=
    if t.active = 0 then 0 else Word.toFloat t.usage.current / Word.toFloat t.active
  pressure := t.pressure

end Tracker

end TrackedHeap
