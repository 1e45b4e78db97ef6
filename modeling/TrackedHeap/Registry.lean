import TrackedHeap.Carver
import TrackedHeap.Config
import TrackedHeap.Text.Quoted

/-!
# Registries of named allocators

An allocator is a carver with a name. A registry keeps allocators by name; whoever asks for a name that is
taken gets the allocator that has it, whatever else was asked for. Allocators are shared: one that has
been removed from the registry stays until nobody holds it any longer, and a serial number tells two of
one name apart.
-/

namespace TrackedHeap

/-- A carver with a name. -/
structure Allocator where
  serial : Nat
  name : String
  strategy : Strategy
  alignment : Alignment
  carver : Carver
  /-- Whether the registry has it under its name. -/
  registered : Bool

/-- Allocators that the registry or somebody else holds. -/
structure Registry where
  /-- The alignment of allocators for which none is named. -/
  alignment : Alignment := .byte
  allocators : List Allocator := []
  nextSerial : Nat := 0

namespace Allocator

/-- How an allocator is described for a programmer. -/
def describe (a : Allocator) : String :=
  "AdvancedAllocator \x7b name: " ++ Text.quoted a.name ++ ", kind: " ++ a.strategy.label ++
    ", alignment: " ++ a.alignment.label ++ " \x7d"

end Allocator

namespace Registry

/-- An empty registry with the alignment of the settings, and the tracker that fits them. -/
def ofConfig (c : Config) : Except MemoryError (Registry × Tracker ProcessHeap) := do
  let tracker ← Tracker.ofConfig c
  return ({ alignment := c.alignment }, tracker)

/-- The allocator of a serial number. -/
def find? (r : Registry) (serial : Nat) : Option Allocator :=
  r.allocators.find? fun a => a.serial == serial

/-- The allocator that has a name. -/
def named? (r : Registry) (name : String) : Option Allocator :=
  r.allocators.find? fun a => a.registered && a.name == name

/-- The allocators that have a name. -/
def registered (r : Registry) : List Allocator :=
  r.allocators.filter fun a => a.registered

/-- The names that are taken, sorted. -/
def names (r : Registry) : List String :=
  (r.registered.map Allocator.name).mergeSort fun x y => decide (x ≤ y)

/-- The number of names that are taken. -/
def length (r : Registry) : Nat :=
  r.registered.length

/-- The registry with the carver of an allocator changed. -/
def setCarver (r : Registry) (serial : Nat) (carver : Carver) : Registry :=
  { r with
    allocators := r.allocators.map fun a => if a.serial = serial then { a with carver } else a }

/-- The name is free again; the allocator that had it lives on. -/
def remove (r : Registry) (name : String) : Registry :=
  { r with
    allocators := r.allocators.map fun a =>
      if a.registered && a.name == name then { a with registered := false } else a }

variable {H : Type} [Heap H]

/-- The allocator that has the name, or a new one that gets it. -/
def get (r : Registry) (t : Tracker H) (name : String) (strategy : Strategy) (total : Nat)
    (alignment : Alignment) : Outcome Allocator (Registry × Tracker H) :=
  if name = "" then (.error .emptyName, r, t)
  else
    match r.named? name with
    | some a => (.ok a, r, t)
    | none =>
      match Carver.build t strategy total alignment with
      | (.error e, t) => (.error e, r, t)
      | (.ok carver, t) =>
        let a : Allocator :=
          { serial := r.nextSerial, name, strategy, alignment, carver, registered := true }
        (.ok a, { r with allocators := r.allocators ++ [a], nextSerial := r.nextSerial + 1 }, t)

/-- Resets the allocators of serial numbers, in their order. -/
def resetAll (r : Registry) (t : Tracker H) (serials : List Nat) : Registry × Tracker H :=
  serials.foldl
    (fun (r, t) serial =>
      match r.find? serial with
      | none => (r, t)
      | some a =>
        match a.carver.reset t with
        | (_, carver, t) => (r.setCarver serial carver, t))
    (r, t)

/-- Resets every allocator that has a name and frees the names, and says how many there were. The allocators are reset
in the order in which they were made, then all names are freed, and `sweep` ends the allocators that nobody holds. To
do all this for one name before the next, in any order of the names, returns the same blocks, for a reset looks at no
other allocator. -/
def shutdown (r : Registry) (t : Tracker H) : Nat × Registry × Tracker H :=
  match r.resetAll t (r.registered.map Allocator.serial) with
  | (reset, t) =>
    (r.length,
      { reset with allocators := reset.allocators.map fun a => { a with registered := false } }, t)

/-- Ends the allocators that neither the registry nor anybody else holds. -/
def sweep (r : Registry) (t : Tracker H) (held : List Nat) : Registry × Tracker H :=
  let (kept, ended) := r.allocators.partition fun a => a.registered || held.contains a.serial
  ({ r with allocators := kept }, ended.foldl (fun t a => a.carver.dispose t) t)

end Registry

end TrackedHeap
