import TrackedHeap.Error
import TrackedHeap.Json.Decode

/-!
# Forms of errors

An error is an object with its tag and its details, which are a text or an object of sizes. Where the details
come before the tag they are kept until the tag is known, so all of them must have a value and fit into the
room, even what is passed over later. An error may also be an array of tag and details, and the tag is a
string there, never an object with a name in it.
-/

namespace TrackedHeap

open Json (Reader)

/-- What the details of an error are to be read as. -/
inductive ErrorTag where
  | invalidArgument
  | outOfMemory
  | illegalState
  | boundsViolation
deriving DecidableEq, Repr

namespace ErrorTag

def all : List ErrorTag := [invalidArgument, outOfMemory, illegalState, boundsViolation]

def name : ErrorTag → String
  | invalidArgument => "invalid_argument"
  | outOfMemory => "out_of_memory"
  | illegalState => "illegal_state"
  | boundsViolation => "bounds_violation"

/-- The tag of a name. -/
def ofName? (name : String) : Option ErrorTag :=
  all.find? fun tag => tag.name == name

end ErrorTag

namespace MemoryError

def tag : MemoryError → ErrorTag
  | invalidArgument _ => .invalidArgument
  | outOfMemory _ _ => .outOfMemory
  | illegalState _ => .illegalState
  | boundsViolation _ _ _ => .boundsViolation

def details : MemoryError → Json
  | invalidArgument text => .string text
  | outOfMemory requested available =>
    .record [("requested", .natural requested), ("available", .natural available)]
  | illegalState text => .string text
  | boundsViolation offset length size =>
    .record [("offset", .natural offset), ("length", .natural length), ("size", .natural size)]

def toJson (e : MemoryError) : Json :=
  .record [("error_type", .string e.tag.name), ("details", e.details)]

/-- The error of a tag, from its details. -/
def detailsReader : ErrorTag → Reader MemoryError
  | .invalidArgument, room, j => (Reader.string room j).map .invalidArgument
  | .outOfMemory, room, j => do
    let (room, slot) ← Reader.object ["requested", "available"] room j
    let requested ← Reader.required .word room (slot "requested")
    let available ← Reader.required .word room (slot "available")
    return .outOfMemory requested available
  | .illegalState, room, j => (Reader.string room j).map .illegalState
  | .boundsViolation, room, j => do
    let (room, slot) ← Reader.object ["offset", "length", "size"] room j
    let offset ← Reader.required .word room (slot "offset")
    let length ← Reader.required .word room (slot "length")
    let size ← Reader.required .word room (slot "size")
    return .boundsViolation offset length size

/-- Whether the details are a member before the tag. -/
def detailsFirst (members : List (String × Json)) : Bool :=
  (members.find? fun m => m.1 == "error_type" || m.1 == "details").any fun m => m.1 == "details"

def reader : Reader MemoryError
  | room, .object members => do
    let room ← Json.enter room
    let found ← Reader.members? ["error_type", "details"] members
    let tag ← found.lookup "error_type"
    let details ← found.lookup "details"
    if detailsFirst found && !Reader.readable room details then none
    else
      let tag ← Reader.choice ErrorTag.all ErrorTag.name room tag
      detailsReader tag room details
  | room, .array [.string name, details] => do
    let room ← Json.enter room
    let tag ← ErrorTag.ofName? name
    detailsReader tag room details
  | _, _ => none

end MemoryError

end TrackedHeap
