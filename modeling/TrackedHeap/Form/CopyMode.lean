import TrackedHeap.CopyMode
import TrackedHeap.Json.Decode

/-!
# Forms of modes of copying

A plain copy is its name, and a swapping one an object with the width under its name.
-/

namespace TrackedHeap.CopyMode

open Json (Reader)

def toJson : CopyMode → Json
  | plain => .string "Plain"
  | byteSwap width => .record [("ByteSwap", .record [("element_size", .natural width)])]

def reader : Reader CopyMode
  | _, .string "Plain" => some plain
  | room, .object [(some "Plain", .null)] => do
    let _ ← Json.enter room
    return plain
  | room, .object [(some "ByteSwap", j)] => do
    let room ← Json.enter room
    let (room, slot) ← Reader.record ["element_size"] room j
    let width ← Reader.required .word room (slot "element_size")
    return byteSwap width
  | _, _ => none

end TrackedHeap.CopyMode
