import TrackedHeap.Carver.Basic
import TrackedHeap.Form.Name

/-!
# Forms of blocks and ranges

Ids are written as numbers, and blocks and ranges as records of their fields.
-/

namespace TrackedHeap

open Json (Reader)

/-- A value or null. -/
def Json.ofOption (n : Option Nat) : Json :=
  match n with
  | some n => .natural n
  | none => .null

namespace Block

def toJson (b : Block) : Json :=
  .record
    [("id", .natural b.id),
      ("address", .natural b.address),
      ("raw_address", .natural b.rawAddress),
      ("requested_size", .natural b.requestedSize),
      ("padded_size", .natural b.paddedSize),
      ("alignment", b.alignment.toJson),
      ("created_at", .natural b.createdAt),
      ("freed", .bool b.freed),
      ("freed_at", .ofOption b.freedAt)]

/-- The fields of the form, in their order. -/
def fields : List String :=
  ["id", "address", "raw_address", "requested_size", "padded_size", "alignment", "created_at",
    "freed", "freed_at"]

def reader : Reader Block
  | room, j => do
    let (room, slot) ← Reader.record fields room j
    let id ← Reader.required .word room (slot "id")
    let address ← Reader.required .word room (slot "address")
    let rawAddress ← Reader.required .word room (slot "raw_address")
    let requestedSize ← Reader.required .word room (slot "requested_size")
    let paddedSize ← Reader.required .word room (slot "padded_size")
    let alignment ← Reader.required Alignment.reader room (slot "alignment")
    let createdAt ← Reader.required .word room (slot "created_at")
    let freed ← Reader.required .bool room (slot "freed")
    let freedAt ← Reader.optional .word room (slot "freed_at")
    return { id, address, rawAddress, requestedSize, paddedSize, alignment, createdAt, freed,
             freedAt }

end Block

namespace CarveOut

def toJson (c : CarveOut) : Json :=
  .record
    [("block", c.block.toJson),
      ("offset", .natural c.offset),
      ("granted_size", .natural c.grantedSize),
      ("requested_size", .natural c.requestedSize)]

/-- The fields of the form, in their order. -/
def fields : List String :=
  ["block", "offset", "granted_size", "requested_size"]

def reader : Reader CarveOut
  | room, j => do
    let (room, slot) ← Reader.record fields room j
    let block ← Reader.required Block.reader room (slot "block")
    let offset ← Reader.required .word room (slot "offset")
    let grantedSize ← Reader.required .word room (slot "granted_size")
    let requestedSize ← Reader.required .word room (slot "requested_size")
    return { block, offset, grantedSize, requestedSize }

end CarveOut

end TrackedHeap
