import TrackedHeap.Tracker.Leaks
import TrackedHeap.Workspace.Basic

/-!
# Requests to a workspace

Everything that a client can ask of a workspace, as data, with what is answered. `Workspace.perform` is one
step; a run is a list of requests. Handles are passed by value, so a request may carry a handle that was
made up, altered or kept for too long.
-/

namespace TrackedHeap

/-- What a client can ask. -/
inductive Request where
  /-- Time passes. -/
  | wait (microseconds : Nat)
  | allocate (size : Nat) (alignment : Alignment)
  | free (handle : Block)
  | reallocate (handle : Block) (size : Nat)
  | isLive (handle : Block)
  | lookup (id : Nat)
  | fill (handle : Block) (offset length : Nat) (byte : UInt8)
  | write (handle : Block) (offset : Nat) (bytes : List UInt8)
  | read (handle : Block) (offset length : Nat)
  | copy (source : Block) (sourceOffset : Nat) (target : Block) (targetOffset length : Nat)
      (mode : CopyMode)
  | compare (left : Block) (leftOffset : Nat) (right : Block) (rightOffset length : Nat)
  | report
  | pressure
  | blocks
  | budget
  | leaks (age : Age)
  | freeAll
  | allocCalls
  | makePool (label : String) (blockSize : Nat) (alignment : Alignment) (limit : Nat)
  | acquire (label : String)
  | release (label : String) (handle : Block)
  | clear (label : String)
  | poolStats (label : String)
  | dropPool (label : String)
  | build (label : String) (strategy : Strategy) (total : Nat) (alignment : Alignment)
  /-- The allocator of a name, or a new one, under a label; without an alignment, the registry's. -/
  | get (label name : String) (strategy : Strategy) (total : Nat) (alignment : Option Alignment)
  | carve (label : String) (size : Nat)
  | giveBack (label : String) (handle : CarveOut)
  | reset (label : String)
  | carverStats (label : String)
  | letGo (label : String)
  /-- Frees a name; the allocator that had it goes under a label, if one is given. -/
  | remove (name : String) (label : Option String)
  | names
  | shutdown
  | sameAllocator (left right : String)

/-- What a client is answered. -/
inductive Reply where
  | done
  | block (block : Block)
  | lookup (block : Option Block)
  | blocks (blocks : List Block)
  | carveOut (range : CarveOut)
  | flag (b : Bool)
  | count (n : Nat)
  | limit (n : Option Nat)
  | bytes (bytes : List UInt8)
  | difference (d : Int)
  | report (report : UsageReport)
  | pressure (level : Pressure)
  | pool (blockSize : Nat) (alignment : Alignment)
  | poolStats (stats : PoolStats)
  | carver (strategy : Strategy) (stats : CarverStats)
  /-- An allocator, and how many names are taken. -/
  | allocator (allocator : Allocator) (names : Nat)
  | carverStats (stats : CarverStats)
  | names (names : List String)

namespace Workspace

variable {H : Type}

/-- The reply to a question about the tracker, which leaves everything as it was. -/
def answer {α : Type} (w : Workspace H) (reply : α → Reply) :
    Except MemoryError α → Outcome Reply (Workspace H)
  | .ok a => (.ok (reply a), w)
  | .error e => (.error e, w)

/-- The reply to an operation on the tracker. -/
def onTracker {α : Type} (w : Workspace H) (reply : α → Reply) :
    Outcome α (Tracker H) → Outcome Reply (Workspace H)
  | (.ok a, tracker) => (.ok (reply a), { w with tracker })
  | (.error e, tracker) => (.error e, { w with tracker })

variable [Heap H]

/-- The reply to an operation on the pool under a label. -/
def onPool {α : Type} (w : Workspace H) (label : String) (reply : α → Reply)
    (act : Pool → Tracker H → Outcome α (Pool × Tracker H)) : Outcome Reply (Workspace H) :=
  match w.pools.lookup label with
  | none => (.error (.nothingHeld label), w)
  | some pool =>
    match act pool w.tracker with
    | (result, pool, tracker) =>
      (result.map reply, { w with tracker, pools := relabel w.pools label pool })

/-- The reply to an operation on the carver under a label. -/
def onCarver {α : Type} (w : Workspace H) (label : String) (reply : α → Reply)
    (act : Carver → Tracker H → Outcome α (Carver × Tracker H)) : Outcome Reply (Workspace H) :=
  match w.carver? label with
  | none => (.error (.nothingHeld label), w)
  | some carver =>
    match act carver w.tracker with
    | (result, carver, tracker) =>
      (result.map reply, { w with tracker }.setCarver label carver)

/-- Builds a carver and puts it under a label. -/
def build (w : Workspace H) (label : String) (strategy : Strategy) (total : Nat)
    (alignment : Alignment) : Outcome Reply (Workspace H) :=
  match Carver.build w.tracker strategy total alignment with
  | (.error e, tracker) => (.error e, { w with tracker })
  | (.ok carver, tracker) =>
    (.ok (.carver strategy carver.stats), { w with tracker }.hold label (.own carver))

/-- Puts a share in the allocator of a name under a label. -/
def get (w : Workspace H) (label name : String) (strategy : Strategy) (total : Nat)
    (alignment : Option Alignment) : Outcome Reply (Workspace H) :=
  match w.registry.get w.tracker name strategy total (alignment.getD w.registry.alignment) with
  | (.error e, registry, tracker) => (.error e, { w with registry, tracker })
  | (.ok a, registry, tracker) =>
    (.ok (.allocator a registry.length),
      { w with registry, tracker }.hold label (.shared a.serial))

/-- Frees a name, and puts a share in the allocator that had it under a label, if one is given. -/
def remove (w : Workspace H) (name : String) (label : Option String) : Outcome Reply (Workspace H) :=
  match w.registry.named? name with
  | none => (.ok (.flag false), w)
  | some a =>
    let removed := { w with registry := w.registry.remove name }
    match label with
    | none => (.ok (.flag true), removed.settle)
    | some label => (.ok (.flag true), removed.hold label (.shared a.serial))

/-- One step: the reply, and the workspace afterwards. -/
def perform (w : Workspace H) : Request → Outcome Reply (Workspace H)
  | .wait microseconds => (.ok .done, { w with tracker := w.tracker.advance microseconds })
  | .allocate size alignment => w.onTracker .block (w.tracker.allocate size alignment)
  | .free handle => w.onTracker .block (w.tracker.free handle)
  | .reallocate handle size => w.onTracker .block (w.tracker.reallocate handle size)
  | .isLive handle => (.ok (.flag (w.tracker.isLive handle)), w)
  | .lookup id => (.ok (.lookup (w.tracker.lookup id)), w)
  | .fill handle offset length byte =>
    w.onTracker (fun _ => .done) (w.tracker.fill handle offset length byte)
  | .write handle offset bytes =>
    w.onTracker (fun _ => .done) (w.tracker.write handle offset bytes)
  | .read handle offset length => w.answer .bytes (w.tracker.read handle offset length)
  | .copy source sourceOffset target targetOffset length mode =>
    w.onTracker (fun _ => .done)
      (w.tracker.copy source sourceOffset target targetOffset length mode)
  | .compare left leftOffset right rightOffset length =>
    w.answer .difference (w.tracker.compare left leftOffset right rightOffset length)
  | .report => (.ok (.report w.tracker.report), w)
  | .pressure => (.ok (.pressure w.tracker.pressure), w)
  | .blocks => (.ok (.blocks w.tracker.blocks), w)
  | .budget => (.ok (.limit w.tracker.budget), w)
  | .leaks age => (.ok (.blocks (w.tracker.leaks age)), w)
  | .freeAll =>
    match w.tracker.freeAll with
    | (count, tracker) => (.ok (.count count), { w with tracker })
  | .allocCalls => (.ok (.count (Heap.allocCalls w.tracker.heap)), w)
  | .makePool label blockSize alignment limit =>
    match Pool.make blockSize alignment limit with
    | .error e => (.error e, w)
    | .ok pool => (.ok (.pool blockSize alignment), w.holdPool label pool)
  | .acquire label => w.onPool label .block fun pool t => pool.acquire t
  | .release label handle =>
    w.onPool label (fun _ => .done) fun pool t => pool.release t handle
  | .clear label =>
    w.onPool label .count fun pool t =>
      match pool.clear t with
      | (count, pool, t) => (.ok count, pool, t)
  | .poolStats label => w.onPool label .poolStats fun pool t => (.ok pool.stats, pool, t)
  | .dropPool label => (.ok (.flag (w.pools.lookup label).isSome), w.dropPool label)
  | .build label strategy total alignment => w.build label strategy total alignment
  | .get label name strategy total alignment => w.get label name strategy total alignment
  | .carve label size => w.onCarver label .carveOut fun c t => c.allocate t size
  | .giveBack label handle => w.onCarver label (fun _ => .done) fun c t => c.release t handle
  | .reset label => w.onCarver label (fun _ => .done) fun c t => c.reset t
  | .carverStats label => w.onCarver label .carverStats fun c t => (.ok c.stats, c, t)
  | .letGo label => (.ok (.flag (w.holdings.lookup label).isSome), w.letGo label)
  | .remove name label => w.remove name label
  | .names => (.ok (.names w.registry.names), w)
  | .shutdown =>
    match w.shutdown with
    | (count, w) => (.ok (.count count), w)
  | .sameAllocator left right => (.ok (.flag (w.sameAllocator left right)), w)

/-- The workspace after a run. -/
def run (w : Workspace H) (requests : List Request) : Workspace H :=
  requests.foldl (fun w request => (w.perform request).2) w

end Workspace

end TrackedHeap
