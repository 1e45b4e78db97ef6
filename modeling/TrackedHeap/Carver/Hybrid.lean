import TrackedHeap.Carver.Arena
import TrackedHeap.Carver.Buddy
import TrackedHeap.Carver.Slab
import TrackedHeap.Carver.Tier

/-!
# Hybrids

A slab carver, a buddy region and an arena under one roof: small requests go to the first, medium ones to
the second and large ones to the third. A quarter of the capacity is for slabs, half for buddies and a
quarter for arenas. A handle finds its way back by the size that was asked for.
-/

namespace TrackedHeap

/-- One part for each tier of sizes. -/
structure Hybrid where
  small : SlabCarver
  medium : Buddy
  large : Arena

namespace Hybrid

/-- The figures of the parts and their sums. A request of no bytes reaches no part, and is not counted. -/
def stats (h : Hybrid) : CarverStats :=
  .ofParts [h.small.stats, h.medium.stats, h.large.stats]

/-- Takes back the range that a handle names. -/
def release (h : Hybrid) (handle : CarveOut) : Outcome Unit Hybrid :=
  match Tier.ofSize handle.requestedSize with
  | .small =>
    match h.small.release handle with
    | (result, small) => (result, { h with small })
  | .medium =>
    match h.medium.release handle with
    | (result, medium) => (result, { h with medium })
  | .large =>
    match h.large.release handle with
    | (result, large) => (result, { h with large })

variable {H : Type} [Heap H]

/-- The three parts, or none: if the last is refused its block, the block of the second goes back. -/
def make (t : Tracker H) (total : Nat) (alignment : Alignment) : Outcome Hybrid (Tracker H) :=
  match requireCapacity total with
  | .error e => (.error e, t)
  | .ok () =>
    match SlabCarver.make (total / 4) alignment with
    | .error e => (.error e, t)
    | .ok small =>
      match Buddy.make t (total / 2) alignment with
      | (.error e, t) => (.error e, t)
      | (.ok medium, t) =>
        match Arena.make t (total / 4) alignment with
        | (.error e, t) => (.error e, (t.free medium.base).2)
        | (.ok large, t) => (.ok { small, medium, large }, t)

/-- Takes a range for a request from the part of its tier. -/
def allocate (h : Hybrid) (t : Tracker H) (size : Nat) : Outcome CarveOut (Hybrid × Tracker H) :=
  if size = 0 then (.error .zeroAllocation, h, t)
  else
    match Tier.ofSize size with
    | .small =>
      match h.small.allocate t size with
      | (result, small, t) => (result, { h with small }, t)
    | .medium =>
      match h.medium.allocate size with
      | (result, medium) => (result, { h with medium }, t)
    | .large =>
      match h.large.allocate t size with
      | (result, large, t) => (result, { h with large }, t)

/-- Resets the parts. -/
def reset (h : Hybrid) (t : Tracker H) : Outcome Unit (Hybrid × Tracker H) :=
  match h.small.reset t with
  | (small, t) =>
    match h.large.reset t with
    | (result, large, t) => (result, { small, medium := h.medium.reset, large }, t)

/-- Returns the blocks of all parts. -/
def dispose (h : Hybrid) (t : Tracker H) : Tracker H :=
  h.large.dispose (((h.small.dispose t).free h.medium.base).2)

end Hybrid

end TrackedHeap
