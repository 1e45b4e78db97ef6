import TrackedHeap.Config
import TrackedHeap.Form.Block
import TrackedHeap.Json.Parser

/-!
# Forms of settings

Settings are a record in which every field has its default.
-/

namespace TrackedHeap

open Json (Reader)

namespace Config

def toJson (c : Config) : Json :=
  .record
    [("default_alignment", c.alignment.toJson),
      ("raw_budget", .ofOption c.budget),
      ("leak_age_ms", .natural c.leakAge),
      ("pool_block_size", .natural c.poolBlockSize),
      ("pool_max_size", .natural c.poolLimit)]

/-- The fields of the form, in their order. -/
def fields : List String :=
  ["default_alignment", "raw_budget", "leak_age_ms", "pool_block_size", "pool_max_size"]

def reader : Reader Config
  | room, j => do
    let defaults : Config := {}
    let (room, slot) ← Reader.record fields room j
    let alignment ← Reader.defaulted defaults.alignment Alignment.reader room
      (slot "default_alignment")
    let budget ← Reader.defaulted defaults.budget (.nullable .word) room (slot "raw_budget")
    let leakAge ← Reader.defaulted defaults.leakAge .word room (slot "leak_age_ms")
    let poolBlockSize ← Reader.defaulted defaults.poolBlockSize .word room
      (slot "pool_block_size")
    let poolLimit ← Reader.defaulted defaults.poolLimit .word room (slot "pool_max_size")
    return { alignment, budget, leakAge, poolBlockSize, poolLimit }

end Config

/-- The value that a text writes in a form. -/
def Json.decode? {α : Type} (reader : Reader α) (text : String) : Option α :=
  (Json.parse? text).bind (reader nestingLimit)

/-- The settings that a text writes. They may be unfit for use. -/
def Config.ofText (text : String) : Except MemoryError Config :=
  match Json.decode? Config.reader text with
  | some config => .ok config
  | none => .error .invalidConfig

end TrackedHeap
