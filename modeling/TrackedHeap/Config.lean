import TrackedHeap.Alignment
import TrackedHeap.Heap.Budgeted
import TrackedHeap.Heap.Bump
import TrackedHeap.Heap.Either
import TrackedHeap.Tracker.Leaks

/-!
# Configuration

The settings of a tracker, of the pool beside it and of the search for leaks: their defaults, the values
that are refused, and how they are read from environment variables. A variable that is not set or blank
leaves its default. Reading from a document is in `TrackedHeap.Form.Config`.
-/

namespace TrackedHeap

/-- The settings. -/
structure Config where
  /-- The alignment where a caller names none. -/
  alignment : Alignment := .word
  /-- The most bytes of the heap that may be in use, if there is a limit. -/
  budget : Option Nat := none
  /-- The age in milliseconds from which on a block is a possible leak. -/
  leakAge : Nat := 60000
  poolBlockSize : Nat := 4096
  /-- The most blocks that the pool keeps. -/
  poolLimit : Nat := 16
deriving DecidableEq, Repr

/-- The text of every variable that is set to a text. -/
abbrev Environment := String → Option String

/-- A word in decimal, with or without `+` before it, between blanks. -/
def parseWord? (text : String) : Option Nat :=
  let digits :=
    match Text.trimChars text.toList with
    | '+' :: rest => rest
    | rest => rest
  let n := Nat.ofDigitChars 10 digits 0
  if digits ≠ [] ∧ digits.all Char.isDigit ∧ n < Word.limit then some n else none

namespace Config

/-- A budget and no patience with leaks; the defaults otherwise. -/
def constrained (budget : Nat) : Config :=
  { budget := some budget, leakAge := 0 }

/-- The age from which on a block is a possible leak. -/
def age (c : Config) : Age :=
  .ofMilliseconds c.leakAge

/-- Refuses what neither pool nor heap can do with. -/
def validate (c : Config) : Except MemoryError Unit :=
  if c.poolBlockSize = 0 then .error .zeroPoolBlock
  else if c.poolLimit = 0 then .error .zeroPoolLimit
  else if c.budget = some 0 then .error .zeroBudget
  else .ok ()

/-- The text of a variable that is set and not blank. -/
def setText? (env : Environment) (name : String) : Option String :=
  (env name).filter fun text => !Text.allBlank text

/-- The number in a variable, or what is there already. -/
def readNumber (env : Environment) (name : String) (otherwise : Nat) : Except MemoryError Nat :=
  match setText? env name with
  | none => .ok otherwise
  | some text =>
    match parseWord? text with
    | some n => .ok n
    | none => .error (.notANumber name text)

/-- The alignment in a variable, or what is there already. -/
def readAlignment (env : Environment) (name : String) (otherwise : Alignment) :
    Except MemoryError Alignment :=
  match setText? env name with
  | none => .ok otherwise
  | some text => Alignment.parse text

/-- The number in a variable, if it holds one. -/
def readOptional (env : Environment) (name : String) : Except MemoryError (Option Nat) :=
  match setText? env name with
  | none => .ok none
  | some _ => (readNumber env name 0).map some

/-- The defaults, overridden by variables, in the order in which the first fault is reported. -/
def overridden (env : Environment) : Except MemoryError Config := do
  let defaults : Config := {}
  let alignment ← readAlignment env "RAWMEM_ALIGNMENT" defaults.alignment
  let budget ← readOptional env "RAWMEM_RAW_BUDGET"
  let leakAge ← readNumber env "RAWMEM_LEAK_AGE_MS" defaults.leakAge
  let poolBlockSize ← readNumber env "RAWMEM_POOL_BLOCK_SIZE" defaults.poolBlockSize
  let poolLimit ← readNumber env "RAWMEM_POOL_MAX_SIZE" defaults.poolLimit
  return { alignment, budget, leakAge, poolBlockSize, poolLimit }

/-- The settings that variables give, if they are fit for use. -/
def ofEnvironment (env : Environment) : Except MemoryError Config := do
  let config ← overridden env
  config.validate
  return config

end Config

/-- The heap of a process, with or without a budget. -/
abbrev ProcessHeap := BumpHeap ⊕ Budgeted BumpHeap

namespace Tracker

/-- A heap as it is, or with a budget on top. -/
def heapWith (heap : BumpHeap) : Option Nat → ProcessHeap
  | none => .inl heap
  | some budget => .inr { inner := heap, budget }

/-- A tracker over the heap of the process, of which the budget may be used. -/
def ofBudget (budget : Option Nat) : Tracker ProcessHeap :=
  ofHeap (heapWith BumpHeap.system budget) budget

/-- The tracker that fits the settings. -/
def ofConfig (c : Config) : Except MemoryError (Tracker ProcessHeap) := do
  c.validate
  return ofBudget c.budget

end Tracker

end TrackedHeap
