import TrackedHeap.Form.Name
import TrackedHeap.Pool
import TrackedHeap.Carver.Basic

/-!
# Forms of figures

What trackers, pools and carvers report, as records. The parts of a carver are left out where there are
none.
-/

namespace TrackedHeap

open Json (Reader)

namespace UsageReport

def toJson (r : UsageReport) : Json :=
  .record
    [("total_allocated", .natural r.allocated),
      ("total_freed", .natural r.freed),
      ("current_allocated", .natural r.current),
      ("peak_allocated", .natural r.peak),
      ("active_blocks", .natural r.active),
      ("average_block_size", .real r.average),
      ("pressure", r.pressure.toJson)]

/-- The fields of the form, in their order. -/
def fields : List String :=
  ["total_allocated", "total_freed", "current_allocated", "peak_allocated", "active_blocks",
    "average_block_size", "pressure"]

def reader : Reader UsageReport
  | room, j => do
    let (room, slot) ← Reader.record fields room j
    let allocated ← Reader.required .word room (slot "total_allocated")
    let freed ← Reader.required .word room (slot "total_freed")
    let current ← Reader.required .word room (slot "current_allocated")
    let peak ← Reader.required .word room (slot "peak_allocated")
    let active ← Reader.required .word room (slot "active_blocks")
    let average ← Reader.required .float room (slot "average_block_size")
    let pressure ← Reader.required Pressure.reader room (slot "pressure")
    return { allocated, freed, current, peak, active, average, pressure }

end UsageReport

namespace PoolStats

def toJson (s : PoolStats) : Json :=
  .record
    [("block_size", .natural s.blockSize),
      ("alignment", s.alignment.toJson),
      ("max_pool_size", .natural s.limit),
      ("available", .natural s.available),
      ("acquired", .natural s.acquired),
      ("reused", .natural s.reused),
      ("created", .natural s.created),
      ("overflowed", .natural s.overflowed)]

/-- The fields of the form, in their order. -/
def fields : List String :=
  ["block_size", "alignment", "max_pool_size", "available", "acquired", "reused", "created",
    "overflowed"]

def reader : Reader PoolStats
  | room, j => do
    let (room, slot) ← Reader.record fields room j
    let blockSize ← Reader.required .word room (slot "block_size")
    let alignment ← Reader.required Alignment.reader room (slot "alignment")
    let limit ← Reader.required .word room (slot "max_pool_size")
    let available ← Reader.required .word room (slot "available")
    let acquired ← Reader.required .word room (slot "acquired")
    let reused ← Reader.required .word room (slot "reused")
    let created ← Reader.required .word room (slot "created")
    let overflowed ← Reader.required .word room (slot "overflowed")
    return { blockSize, alignment, limit, available, acquired, reused, created, overflowed }

end PoolStats

namespace CarverStats

/-- The members of the form but the parts. -/
def ownMembers (s : CarverStats) : List (String × Json) :=
  [("strategy", s.strategy.toJson),
    ("total_size", .natural s.total),
    ("allocated_size", .natural s.allocated),
    ("free_size", .natural s.free),
    ("allocation_count", .natural s.allocations),
    ("deallocation_count", .natural s.deallocations),
    ("failed_allocations", .natural s.failures)]

mutual

def toJson (s : CarverStats) : Json :=
  match s with
  | ⟨strategy, total, allocated, free, allocations, deallocations, failures, components⟩ =>
    let own :=
      ownMembers ⟨strategy, total, allocated, free, allocations, deallocations, failures, []⟩
    match components with
    | [] => .record own
    | part :: parts => .record (own ++ [("components", .array (part.toJson :: listToJson parts))])

def listToJson : List CarverStats → List Json
  | [] => []
  | s :: rest => s.toJson :: listToJson rest

end

/-- The fields of the form, in their order. -/
def fields : List String :=
  ["strategy", "total_size", "allocated_size", "free_size", "allocation_count",
    "deallocation_count", "failed_allocations", "components"]

/-- Each part takes two levels, one for the array of parts and one for itself. -/
def reader : Reader CarverStats
  | outer + 2, j => do
    let (room, slot) ← Reader.record fields (outer + 2) j
    let strategy ← Reader.required Strategy.reader room (slot "strategy")
    let total ← Reader.required .word room (slot "total_size")
    let allocated ← Reader.required .word room (slot "allocated_size")
    let free ← Reader.required .word room (slot "free_size")
    let allocations ← Reader.required .word room (slot "allocation_count")
    let deallocations ← Reader.required .word room (slot "deallocation_count")
    let failures ← Reader.required .word room (slot "failed_allocations")
    let components ← Reader.defaulted [] (.array fun _ part => reader outer part) room
      (slot "components")
    return ⟨strategy, total, allocated, free, allocations, deallocations, failures, components⟩
  | _, _ => none

end CarverStats

end TrackedHeap
