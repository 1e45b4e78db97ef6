import TrackedHeap.Word

/-!
# Errors

Every operation that can fail does so with a `MemoryError`. Its four kinds say who is to blame: the
argument, the supply of memory, the state of the thing named, or the bounds of a block. The wordings of
all refusals stand here, each under the name of its cause.
-/

namespace TrackedHeap

/-- What an error is about. -/
inductive ErrorKind where
  | invalidArgument
  | outOfMemory
  | illegalState
  | boundsViolation
deriving DecidableEq, Repr

namespace ErrorKind

def all : List ErrorKind := [invalidArgument, outOfMemory, illegalState, boundsViolation]

/-- The name under which a kind is reported. -/
def name : ErrorKind → String
  | invalidArgument => "InvalidArgument"
  | outOfMemory => "OutOfMemory"
  | illegalState => "IllegalState"
  | boundsViolation => "BoundsViolation"

end ErrorKind

/-- Why an operation on memory was refused. -/
inductive MemoryError where
  | invalidArgument (text : String)
  | outOfMemory (requested available : Nat)
  | illegalState (text : String)
  /-- An access of `length` bytes at `offset` to a block of `size` bytes. -/
  | boundsViolation (offset length size : Nat)
deriving DecidableEq, Repr

/-- The result of an operation beside the state it leaves, which a failure leaves too. -/
abbrev Outcome (α σ : Type) := Except MemoryError α × σ

namespace MemoryError

def kind : MemoryError → ErrorKind
  | invalidArgument _ => .invalidArgument
  | outOfMemory _ _ => .outOfMemory
  | illegalState _ => .illegalState
  | boundsViolation _ _ _ => .boundsViolation

/-- The line that a reader sees. -/
def message : MemoryError → String
  | invalidArgument text => s!"Invalid argument: {text}"
  | outOfMemory requested available =>
    s!"Out of memory: requested {requested} bytes, available {available} bytes"
  | illegalState text => s!"Illegal state: {text}"
  | boundsViolation offset length size =>
    s!"Bounds violation: offset {offset} + length {length} exceeds block size {size}"

/-- The code of the kind of error, for looking it up. -/
def code : MemoryError → String
  | invalidArgument _ => "memory::invalid_argument"
  | outOfMemory _ _ => "memory::out_of_memory"
  | illegalState _ => "memory::illegal_state"
  | boundsViolation _ _ _ => "memory::bounds_violation"

/-- Advice on the kind of error. -/
def help : MemoryError → String
  | invalidArgument _ => "Sizes must be positive and element sizes must divide the copied length."
  | outOfMemory _ _ => "The allocator or its size class is exhausted. Free or reset before retrying."
  | illegalState _ => "The handle is unknown, already freed, or owned by another allocator."
  | boundsViolation _ _ _ => "Accesses are checked against the requested size, not the padded size."

/-! ## Arguments -/

def zeroAllocation : MemoryError := .invalidArgument "allocation size must be > 0"

def zeroReallocation : MemoryError := .invalidArgument "reallocation size must be > 0"

def zeroCapacity : MemoryError := .invalidArgument "allocator capacity must be > 0"

def zeroPoolBlock : MemoryError := .invalidArgument "pool block size must be > 0"

def zeroPoolLimit : MemoryError := .invalidArgument "pool max size must be > 0"

def zeroBudget : MemoryError := .invalidArgument "raw budget must be > 0"

def emptyName : MemoryError := .invalidArgument "allocator name must not be empty"

/-- A text that does not read as settings. What the reader objected to is left out of the line. -/
def invalidConfig : MemoryError := .invalidArgument "invalid config"

def sizeOverflows (size : Nat) : MemoryError := .invalidArgument s!"size {size} overflows"

def buddyTooLarge (size : Nat) : MemoryError := .invalidArgument s!"buddy capacity {size} is too large"

def unknownAlignment (text : String) : MemoryError :=
  .invalidArgument s!"unknown alignment mode: {text}"

def notANumber (name text : String) : MemoryError :=
  .invalidArgument s!"{name} is not a number: {text}"

def swapWidth (width : Nat) : MemoryError :=
  .invalidArgument s!"byte swap element size must be 2, 4 or 8, got {width}"

def swapLength (length width : Nat) : MemoryError :=
  .invalidArgument s!"length {length} is not a multiple of element size {width}"

/-! ## States -/

def unknownStrategy (text : String) : MemoryError :=
  .illegalState s!"unknown allocator strategy: {text}"

def notAllocated (id : Nat) : MemoryError := .illegalState s!"block #{id} is not allocated"

def cannotReallocate (id : Nat) : MemoryError :=
  .illegalState s!"cannot reallocate block #{id}: not allocated"

def freedOrUnknown (id : Nat) : MemoryError := .illegalState s!"block #{id} is freed or unknown"

def alreadyPooled (id : Nat) : MemoryError := .illegalState s!"block #{id} is already pooled"

def notOwned (offset : Nat) (id : Nat) : MemoryError :=
  .illegalState s!"memory at offset {offset} of block #{id} is not owned by this allocator"

def notOwnedByPool (offset : Nat) (id : Nat) : MemoryError :=
  .illegalState s!"memory at offset {offset} of block #{id} is not owned by this pool"

def holdsOtherSize (id : Nat) (held claimed : Nat) : MemoryError :=
  .illegalState s!"block #{id} holds {held} bytes, not {claimed}"

def noBuddyAt (offset : Nat) : MemoryError :=
  .illegalState s!"no live buddy allocation at offset {offset}"

def noSlab (size : Nat) : MemoryError := .illegalState s!"no slab for {size} byte objects"

def notACell (offset size : Nat) : MemoryError :=
  .illegalState s!"offset {offset} is not a cell of the {size} byte slab"

def cellFree (index : Nat) (size : Nat) : MemoryError :=
  .illegalState s!"slab cell {index} of {size} byte objects is already free"

def notAnArena (id : Nat) : MemoryError :=
  .illegalState s!"block #{id} is not an arena of this allocator"

def nothingHeld (label : String) : MemoryError := .illegalState s!"nothing is held under {label}"

end MemoryError

end TrackedHeap
