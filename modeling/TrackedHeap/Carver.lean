import TrackedHeap.Carver.Hybrid
import TrackedHeap.Carver.ObjectPool
import TrackedHeap.Carver.RingBuffer

/-!
# Carvers

One carver of any strategy, with the operations that all strategies share. All of them act on the tracker
whose blocks the carver carves; a carver that needs nothing of it leaves it as it was.
-/

namespace TrackedHeap

/-- A carver of one of the strategies. -/
inductive Carver where
  | buddy (b : Buddy)
  | slab (s : SlabCarver)
  | arena (a : Arena)
  | ringBuffer (r : RingBuffer)
  | objectPool (p : ObjectPool)
  | hybrid (h : Hybrid)

namespace Carver

def strategy : Carver → Strategy
  | buddy _ => .buddy
  | slab _ => .slab
  | arena _ => .arena
  | ringBuffer _ => .ringBuffer
  | objectPool _ => .objectPool
  | hybrid _ => .hybrid

/-- The figures now. -/
def stats : Carver → CarverStats
  | buddy b => b.stats
  | slab s => s.stats
  | arena a => a.stats
  | ringBuffer r => r.stats
  | objectPool p => p.stats
  | hybrid h => h.stats

/-- The outcome with its carver seen as one of any strategy. -/
def lift {α σ τ : Type} (wrap : σ → Carver) : Outcome α (σ × τ) → Outcome α (Carver × τ)
  | (result, c, t) => (result, wrap c, t)

/-- The outcome of an operation that leaves the tracker alone. -/
def beside {α σ τ : Type} (t : τ) : Outcome α σ → Outcome α (σ × τ)
  | (result, c) => (result, c, t)

/-- The result of building a carver, seen as one of any strategy. -/
def built {σ τ : Type} (wrap : σ → Carver) : Outcome σ τ → Outcome Carver τ
  | (.ok c, t) => (.ok (wrap c), t)
  | (.error e, t) => (.error e, t)

variable {H : Type} [Heap H]

/-- A carver of a strategy over the blocks of a tracker. -/
def build (t : Tracker H) (strategy : Strategy) (total : Nat) (alignment : Alignment) :
    Outcome Carver (Tracker H) :=
  match strategy with
  | .buddy => built buddy (Buddy.make t total alignment)
  | .slab => built slab (SlabCarver.make total alignment, t)
  | .arena => built arena (Arena.make t total alignment)
  | .ringBuffer => built ringBuffer (RingBuffer.make t total alignment)
  | .objectPool => built objectPool (ObjectPool.make total alignment, t)
  | .hybrid => built hybrid (Hybrid.make t total alignment)

/-- Carves out a range of at least as many bytes. -/
def allocate (c : Carver) (t : Tracker H) (size : Nat) : Outcome CarveOut (Carver × Tracker H) :=
  match c with
  | buddy b => lift buddy (beside t (b.allocate size))
  | slab s => lift slab (s.allocate t size)
  | arena a => lift arena (a.allocate t size)
  | ringBuffer r => lift ringBuffer (beside t (r.allocate size))
  | objectPool p => lift objectPool (p.allocate t size)
  | hybrid h => lift hybrid (h.allocate t size)

/-- Takes back the range that a handle names, or, where ranges come back only together, checks that it is
one of the carver's. -/
def release (c : Carver) (t : Tracker H) (handle : CarveOut) : Outcome Unit (Carver × Tracker H) :=
  match c with
  | buddy b => lift buddy (beside t (b.release handle))
  | slab s => lift slab (beside t (s.release handle))
  | arena a => lift arena (beside t (a.release handle))
  | ringBuffer r => lift ringBuffer (beside t (r.release handle))
  | objectPool p => lift objectPool (beside t (p.release t handle))
  | hybrid h => lift hybrid (beside t (h.release handle))

/-- Takes back every range, except those of an object pool that clients still have. -/
def reset (c : Carver) (t : Tracker H) : Outcome Unit (Carver × Tracker H) :=
  match c with
  | buddy b => (.ok (), buddy b.reset, t)
  | slab s => lift slab (.ok (), s.reset t)
  | arena a => lift arena (a.reset t)
  | ringBuffer r => (.ok (), ringBuffer r.reset, t)
  | objectPool p => lift objectPool (p.reset t)
  | hybrid h => lift hybrid (h.reset t)

/-- The carver is done with: its blocks go back to the tracker, those that clients of an object pool
still have excepted. -/
def dispose (c : Carver) (t : Tracker H) : Tracker H :=
  match c with
  | buddy b => (t.free b.base).2
  | slab s => s.dispose t
  | arena a => a.dispose t
  | ringBuffer r => (t.free r.base).2
  | objectPool p => p.dispose t
  | hybrid h => h.dispose t

end Carver

end TrackedHeap
