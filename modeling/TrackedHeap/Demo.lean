import TrackedHeap.Form.Stats
import TrackedHeap.Json.Printer
import TrackedHeap.Json.Sorted
import TrackedHeap.Registry

/-!
# The demonstration

A run through everything: settings from the environment, a registry with one allocator of each strategy, a
few requests of very different sizes to each, and a pool block that is taken, released and taken again. The
report of a run is a document; a run that cannot be made ends with a line for the reader.
-/

namespace TrackedHeap.Demo

/-- The sizes that every allocator is asked for. -/
def sizes : List Nat := [64, 500, 5000, 100000]

/-- The capacity of every allocator. -/
def capacity : Nat := 4 * 1024 * 1024

/-- Why a run was not made. -/
inductive Failure where
  /-- The settings cannot be read or are unfit for use. -/
  | settings (e : MemoryError)
  | memory (e : MemoryError)

/-- The text with each new line moved to the right. -/
def indented (text : String) : String :=
  String.ofList (text.toList.flatMap fun c =>
    if c = '\n' then ['\n', ' ', ' ', ' ', ' '] else [c])

/-- What is shown of a failure. -/
def Failure.message : Failure → String
  | settings e =>
    "Error: reading RAWMEM_* configuration\n\nCaused by:\n    " ++ indented e.message ++ "\n"
  | memory e => s!"Error: {e.message}\n"

variable {H : Type} [Heap H]

/-- The ranges that a carver grants for sizes. What it refuses is passed over. -/
def carveAll (c : Carver) (t : Tracker H) : List Nat → List CarveOut × Carver × Tracker H
  | [] => ([], c, t)
  | size :: rest =>
    match c.allocate t size with
    | (.ok range, c, t) =>
      match carveAll c t rest with
      | (ranges, c, t) => (range :: ranges, c, t)
    | (.error _, c, t) => carveAll c t rest

/-- Gives ranges back until one is refused. -/
def releaseAll (c : Carver) (t : Tracker H) : List CarveOut → Outcome Unit (Carver × Tracker H)
  | [] => (.ok (), c, t)
  | range :: rest =>
    match c.release t range with
    | (.ok (), c, t) => releaseAll c t rest
    | (.error e, c, t) => (.error e, c, t)

/-- The figures of an allocator at its fullest and when the ranges have come back. -/
def report (name : String) (peak after : CarverStats) : Json :=
  .record [("allocator", .string name), ("peak", peak.toJson), ("after_free", after.toJson)]

/-- Tries out the allocators of some strategies, each under the name of its strategy. -/
def tryAll (r : Registry) (t : Tracker H) :
    List Strategy → Except MemoryError (List Json × Registry × Tracker H)
  | [] => .ok ([], r, t)
  | strategy :: rest => do
    let name := Text.lower strategy.display
    match r.get t name strategy capacity r.alignment with
    | (.error e, _, _) => .error e
    | (.ok a, r, t) =>
      let (ranges, full, t) := carveAll a.carver t sizes
      match releaseAll full t ranges with
      | (.error e, _, _) => .error e
      | (.ok (), carver, t) =>
        let (reports, r, t) ← tryAll (r.setCarver a.serial carver) t rest
        return (report name full.stats carver.stats :: reports, r, t)

/-- Takes a block of the pool and releases it. -/
def takeAndRelease (p : Pool) (t : Tracker H) : Except MemoryError (Pool × Tracker H) :=
  match p.acquire t with
  | (.error e, _, _) => .error e
  | (.ok block, p, t) =>
    match p.release t block with
    | (.error e, _, _) => .error e
    | (.ok (), p, t) => .ok (p, t)

/-- The report of a run with given settings, if leaks are looked for `elapsed` microseconds after its
start. -/
def run (config : Config) (elapsed : Nat) : Except MemoryError Json := do
  let (registry, tracker) ← Registry.ofConfig config
  let (reports, _, tracker) ← tryAll registry tracker Strategy.all
  let pool ← Pool.make config.poolBlockSize config.alignment config.poolLimit
  let (pool, tracker) ← takeAndRelease pool tracker
  let (pool, tracker) ← takeAndRelease pool tracker
  let leaks := (tracker.advance elapsed).leaks config.age
  return Json.sorted (.record
    [("strategies", .array reports),
      ("pool", pool.stats.toJson),
      ("tracker", tracker.report.toJson),
      ("leak_candidates", .natural leaks.length)])

/-- The report of a run with settings from the environment. -/
def runIn (env : Environment) (elapsed : Nat) : Except Failure Json :=
  match Config.ofEnvironment env with
  | .error e => .error (.settings e)
  | .ok config => (run config elapsed).mapError .memory

/-- What is printed of a run with settings from the environment: the text of its report. A float stands there
in its shortest digits, from which a reader of documents may arrive at a float next to it. -/
def output (env : Environment) (elapsed : Nat) : Except Failure String :=
  (runIn env elapsed).map Json.renderLines

end TrackedHeap.Demo
