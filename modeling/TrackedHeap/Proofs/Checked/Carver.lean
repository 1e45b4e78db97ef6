import TrackedHeap.Proofs.Carver.Tally
import TrackedHeap.Proofs.Checked.Hybrid
import TrackedHeap.Proofs.Checked.ObjectPool

/-!
# Carvers within words

A carver of any strategy whose operations may stop (`CarverRow`), and its runs, with the figures before and after each
operation (`CarverRow.runChecked`). Carvers are built without stopping (`Carver.buildChecked_eq`). What bounds the sums
of a new carver bounds them after any operations, whatever clients do and whatever becomes of the blocks
(`Carver.lasting_bounded`).
-/

namespace TrackedHeap

open Checked

/-! ## Carvers that may stop -/

/-- A carver of one of the strategies, with its arenas in a row. -/
inductive CarverRow where
  | buddy (b : Buddy)
  | slab (s : SlabCarver)
  | arena (a : ArenaRow)
  | ringBuffer (r : RingBuffer)
  | objectPool (p : ObjectPool)
  | hybrid (h : HybridRow)

namespace CarverRow

/-- The figures now. -/
def statsChecked : CarverRow → Checked CarverStats
  | buddy b => .ok b.stats
  | slab s => .ok s.stats
  | arena a => .ok a.stats
  | ringBuffer r => .ok r.stats
  | objectPool p => .ok p.stats
  | hybrid h => h.statsChecked

/-- The outcome with its carver seen as one of any strategy. -/
def lift {α σ τ : Type} (wrap : σ → CarverRow) (outcome : Checked (Outcome α (σ × τ))) :
    Checked (Outcome α (CarverRow × τ)) := do
  let (result, c, t) ← outcome
  return (result, wrap c, t)

/-- The outcome of an operation that leaves the tracker alone. -/
def beside {α σ τ : Type} (t : τ) (outcome : Checked (Outcome α σ)) : Checked (Outcome α (σ × τ)) := do
  let (result, c) ← outcome
  return (result, c, t)

/-- The result of building a carver, seen as one of any strategy. -/
def built {σ τ : Type} (wrap : σ → CarverRow) (outcome : Checked (Outcome σ τ)) :
    Checked (Outcome CarverRow τ) := do
  let (result, t) ← outcome
  return (result.map wrap, t)

/-- Takes back the range that a handle names. -/
def releaseChecked {H : Type} (c : CarverRow) (t : Tracker H) (handle : CarveOut) :
    Checked (Outcome Unit (CarverRow × Tracker H)) :=
  match c with
  | buddy b => lift buddy (beside t (b.releaseChecked handle))
  | slab s => lift slab (beside t (s.releaseChecked handle))
  | arena a => lift arena (beside t (.ok (a.release handle)))
  | ringBuffer r => lift ringBuffer (beside t (.ok (r.release handle)))
  | objectPool p => lift objectPool (beside t (p.releaseChecked t handle))
  | hybrid h => lift hybrid (beside t (h.releaseChecked handle))

variable {H : Type} [Heap H]

/-- A carver of a strategy over the blocks of a tracker. -/
def buildChecked (t : Tracker H) (strategy : Strategy) (total : Nat) (alignment : Alignment) :
    Checked (Outcome CarverRow (Tracker H)) :=
  match strategy with
  | .buddy => built buddy (Buddy.makeChecked t total alignment)
  | .slab => built slab (.ok (SlabCarver.make total alignment, t))
  | .arena => built arena (ArenaRow.makeChecked t total alignment)
  | .ringBuffer => built ringBuffer (RingBuffer.makeChecked t total alignment)
  | .objectPool => built objectPool (.ok (ObjectPool.make total alignment, t))
  | .hybrid => built hybrid (HybridRow.makeChecked t total alignment)

/-- Carves out a range of at least as many bytes. -/
def allocateChecked (c : CarverRow) (t : Tracker H) (size : Nat) :
    Checked (Outcome CarveOut (CarverRow × Tracker H)) :=
  match c with
  | buddy b => lift buddy (beside t (b.allocateChecked size))
  | slab s => lift slab (s.allocateChecked t size)
  | arena a => lift arena (a.allocateChecked t size)
  | ringBuffer r => lift ringBuffer (beside t (r.allocateChecked size))
  | objectPool p => lift objectPool (p.allocateChecked t size)
  | hybrid h => lift hybrid (h.allocateChecked t size)

/-- Takes back every range, except those of an object pool that clients still have. -/
def resetChecked (c : CarverRow) (t : Tracker H) : Checked (Outcome Unit (CarverRow × Tracker H)) :=
  match c with
  | buddy b => do
    let b ← b.resetChecked
    return (.ok (), buddy b, t)
  | slab s => do
    let (s, t) ← s.resetChecked t
    return (.ok (), slab s, t)
  | arena a => lift arena (a.resetChecked t)
  | ringBuffer r => .ok (.ok (), ringBuffer r.reset, t)
  | objectPool p => lift objectPool (p.resetChecked t)
  | hybrid h => lift hybrid (h.resetChecked t)

/-- One operation: the answer, and the carver and the tracker afterwards. -/
def actChecked (s : CarverRow × Tracker H) : Carver.Act → Checked (Outcome Carver.Answer (CarverRow × Tracker H))
  | .tracker a => .ok ((s.2.act a).1.map .tracker, s.1, (s.2.act a).2)
  | .allocate size => do
    let (result, s) ← s.1.allocateChecked s.2 size
    return (result.map .range, s)
  | .release handle => do
    let (result, s) ← s.1.releaseChecked s.2 handle
    return (result.map fun _ => .done, s)
  | .reset => do
    let (result, s) ← s.1.resetChecked s.2
    return (result.map fun _ => .done, s)

/-- A list of operations, and the figures before and after each: the figures, the answers, and the carver and the
tracker afterwards. -/
def runChecked (s : CarverRow × Tracker H) :
    List Carver.Act → Checked (List CarverStats × List Carver.Entry × CarverRow × Tracker H)
  | [] => do
    let figures ← s.1.statsChecked
    return ([figures], [], s)
  | a :: acts => do
    let figures ← s.1.statsChecked
    let (answer, s) ← actChecked s a
    let (later, answers, s) ← runChecked s acts
    return (figures :: later, (a, answer) :: answers, s)

end CarverRow

namespace Carver

/-- The carver with its arenas in a row. -/
def row : Carver → CarverRow
  | buddy b => .buddy b
  | slab s => .slab s
  | arena a => .arena a.row
  | ringBuffer r => .ringBuffer r
  | objectPool p => .objectPool p
  | hybrid h => .hybrid h.row

/-- The outcome with the arenas in a row. -/
def inRow {α τ : Type} : Outcome α (Carver × τ) → Outcome α (CarverRow × τ)
  | (result, c, t) => (result, c.row, t)

/-! ## Bounds -/

/-- What bounds the sums of a carver, whatever clients have. -/
def Bounded (c : Carver) : Prop :=
  match c with
  | buddy b => b.Bounded
  | slab s => s.Bounded
  | arena a => a.Bounded
  | ringBuffer r => r.capacity < Word.limit
  | objectPool p => p.Bounded
  | hybrid h => h.Bounded

theorem lasting_bounded (H : Type) [Heap H] : Lasting H (fun _ => True) Bounded where
  allocate {c} t size h := by
    cases c with
    | buddy b => exact Buddy.Bounded.allocate h size
    | slab s => exact SlabCarver.Bounded.allocate h t size
    | arena a => exact Arena.Bounded.allocate h t size
    | ringBuffer r =>
      show (r.allocate size).2.blank.capacity < Word.limit
      rw [RingBuffer.blank_allocate]
      exact h
    | objectPool p => exact ObjectPool.Bounded.allocate h t size
    | hybrid h' => exact Hybrid.Bounded.allocate h t size
  release {c} t handle _ h := by
    cases c with
    | buddy b => exact Buddy.Bounded.release h handle
    | slab s => exact SlabCarver.Bounded.release h handle
    | arena a => exact Arena.Bounded.release h handle
    | ringBuffer r => exact h
    | objectPool p => exact ObjectPool.Bounded.release h t handle
    | hybrid h' => exact Hybrid.Bounded.release h handle
  reset {c} t h := by
    cases c with
    | buddy b => exact Buddy.Bounded.reset h
    | slab s => exact SlabCarver.Bounded.reset h t
    | arena a => exact Arena.Bounded.reset h t
    | ringBuffer r => exact h
    | objectPool p => exact ObjectPool.Bounded.reset h t
    | hybrid h' => exact Hybrid.Bounded.reset h t

/-! ## New carvers -/

variable {H : Type} [Heap H] {t t' : Tracker H} {strategy : Strategy} {total : Nat} {alignment : Alignment}

theorem bounded_of_build {c : Carver} (htotal : total < Word.limit)
    (hb : Carver.build t strategy total alignment = (.ok c, t')) : c.Bounded := by
  cases strategy with
  | buddy =>
    obtain ⟨b, hm, rfl⟩ := built_ok hb
    exact Buddy.bounded_of_make hm
  | slab =>
    obtain ⟨s, hm, rfl⟩ := built_ok hb
    exact SlabCarver.bounded_of_make htotal (Prod.mk.inj hm).1
  | arena =>
    obtain ⟨a, hm, rfl⟩ := built_ok hb
    exact Arena.bounded_of_make hm
  | ringBuffer =>
    obtain ⟨r, hm, rfl⟩ := built_ok hb
    show r.capacity < Word.limit
    rw [(RingBuffer.make_ok hm).1]
    exact htotal
  | objectPool =>
    obtain ⟨p, hm, rfl⟩ := built_ok hb
    exact ObjectPool.bounded_of_make htotal (Prod.mk.inj hm).1
  | hybrid =>
    obtain ⟨h, hm, rfl⟩ := built_ok hb
    exact Hybrid.bounded_of_make htotal hm

theorem buildChecked_eq (h : t.Regular) (strategy : Strategy) (total : Nat) (alignment : Alignment) :
    CarverRow.buildChecked t strategy total alignment =
      .ok ((Carver.build t strategy total alignment).1.map row, (Carver.build t strategy total alignment).2) := by
  cases strategy with
  | buddy =>
    rw [CarverRow.buildChecked, Buddy.makeChecked_eq h, Carver.build]
    rcases Buddy.make t total alignment with ⟨_ | _, _⟩ <;> rfl
  | slab =>
    rw [CarverRow.buildChecked, Carver.build]
    rcases SlabCarver.make total alignment with _ | _ <;> rfl
  | arena =>
    rw [CarverRow.buildChecked, Arena.makeChecked_eq h, Carver.build]
    rcases Arena.make t total alignment with ⟨_ | _, _⟩ <;> rfl
  | ringBuffer =>
    rw [CarverRow.buildChecked, RingBuffer.makeChecked_eq h, Carver.build]
    rcases RingBuffer.make t total alignment with ⟨_ | _, _⟩ <;> rfl
  | objectPool =>
    rw [CarverRow.buildChecked, Carver.build]
    rcases ObjectPool.make total alignment with _ | _ <;> rfl
  | hybrid =>
    rw [CarverRow.buildChecked, Hybrid.makeChecked_eq h, Carver.build]
    rcases Hybrid.make t total alignment with ⟨_ | _, _⟩ <;> rfl

end Carver

end TrackedHeap
