import TrackedHeap.Pool
import TrackedHeap.Registry

/-!
# Workspaces

A tracker with everything that draws blocks from it: pools, carvers and a registry of named allocators.
Clients hold pools and carvers under labels of their choice. A label holds either a carver of its own or a
share in an allocator; whatever a label held before is let go once the new thing is there.

Letting go of a carver ends it, and letting go of a share ends the allocator if nobody else holds it.
-/

namespace TrackedHeap

/-- What a client holds under a label. -/
inductive Holding where
  /-- A carver that nobody else has. -/
  | own (carver : Carver)
  /-- A share in the allocator of a serial number. -/
  | shared (serial : Nat)

/-- The serial number of the allocator that a holding is a share in. -/
def Holding.serial? : Holding → Option Nat
  | .own _ => none
  | .shared serial => some serial

/-- A tracker and everything over it. -/
structure Workspace (H : Type) where
  tracker : Tracker H
  registry : Registry := {}
  pools : List (String × Pool) := []
  holdings : List (String × Holding) := []

namespace Workspace

/-- The pairs without a label. -/
def unlabel {α : Type} (pairs : List (String × α)) (label : String) : List (String × α) :=
  pairs.filter fun pair => pair.1 != label

/-- The pairs with a value under a label, in place of what was there. -/
def relabel {α : Type} (pairs : List (String × α)) (label : String) (value : α) :
    List (String × α) :=
  (label, value) :: unlabel pairs label

variable {H : Type}

/-- The serial numbers of the allocators that clients hold. -/
def held (w : Workspace H) : List Nat :=
  w.holdings.filterMap fun (_, holding) => holding.serial?

/-- The allocator that a label has a share in. -/
def allocator? (w : Workspace H) (label : String) : Option Allocator :=
  match w.holdings.lookup label with
  | some (.shared serial) => w.registry.find? serial
  | _ => none

/-- The carver under a label. -/
def carver? (w : Workspace H) (label : String) : Option Carver :=
  match w.holdings.lookup label with
  | some (.own carver) => some carver
  | some (.shared serial) => (w.registry.find? serial).map Allocator.carver
  | none => none

/-- The workspace after the carver under a label has changed. -/
def setCarver (w : Workspace H) (label : String) (carver : Carver) : Workspace H :=
  match w.holdings.lookup label with
  | some (.own _) => { w with holdings := relabel w.holdings label (.own carver) }
  | some (.shared serial) => { w with registry := w.registry.setCarver serial carver }
  | none => w

/-- Whether two labels have shares in one allocator. -/
def sameAllocator (w : Workspace H) (left right : String) : Bool :=
  match w.holdings.lookup left, w.holdings.lookup right with
  | some (.shared a), some (.shared b) => a == b
  | _, _ => false

variable [Heap H]

/-- Ends the allocators that nobody holds. -/
def settle (w : Workspace H) : Workspace H :=
  match w.registry.sweep w.tracker w.held with
  | (registry, tracker) => { w with registry, tracker }

/-- Ends a carver of a client's own. -/
def endHolding (w : Workspace H) : Holding → Workspace H
  | .own carver => { w with tracker := carver.dispose w.tracker }
  | .shared _ => w

/-- Lets go of what a label holds. -/
def letGo (w : Workspace H) (label : String) : Workspace H :=
  match w.holdings.lookup label with
  | none => w
  | some holding =>
    ({ w with holdings := unlabel w.holdings label }.endHolding holding).settle

/-- Puts something under a label, and lets go of what it held. -/
def hold (w : Workspace H) (label : String) (holding : Holding) : Workspace H :=
  let w' := { w with holdings := relabel w.holdings label holding }
  match w.holdings.lookup label with
  | none => w'
  | some old => (w'.endHolding old).settle

/-- Puts a pool under a label, and ends the one that was there. -/
def holdPool (w : Workspace H) (label : String) (pool : Pool) : Workspace H :=
  { w with
    pools := relabel w.pools label pool
    tracker :=
      match w.pools.lookup label with
      | none => w.tracker
      | some old => old.dispose w.tracker }

/-- Ends the pool under a label. -/
def dropPool (w : Workspace H) (label : String) : Workspace H :=
  match w.pools.lookup label with
  | none => w
  | some pool =>
    { w with pools := unlabel w.pools label, tracker := pool.dispose w.tracker }

/-! ## Closing a workspace -/

/-- Lets go of everything that clients hold, pools excepted. -/
def letGoAll (w : Workspace H) : Workspace H :=
  ((w.holdings.map Prod.snd).foldl endHolding { w with holdings := [] }).settle

/-- Resets the allocators of the registry and frees their names. -/
def shutdown (w : Workspace H) : Nat × Workspace H :=
  match w.registry.shutdown w.tracker with
  | (count, registry, tracker) => (count, { w with registry, tracker }.settle)

/-- Ends all pools. -/
def dropPools (w : Workspace H) : Workspace H :=
  { w with
    pools := []
    tracker := (w.pools.map Prod.snd).foldl (fun t pool => pool.dispose t) w.tracker }

end Workspace

end TrackedHeap
