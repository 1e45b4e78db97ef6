import TrackedHeap.Carver.Basic
import TrackedHeap.Proofs.Tracker.Accounting

/-!
# Arithmetic that stops at the width of a word

Elsewhere sizes and counts are natural numbers, and a sum is taken without asking whether it is a word. Here the
operations of trackers and carvers are written a second time, with each sum, difference, product, quotient, power
and index made by an operation that stops with a `Fault` where it has no result, and with the branches that nothing
should lead to. What is shown of them is that they give what the others give, and stop in one place only: where a count
of 32 bits runs out (`Checked.countOne`).

A tracker rounds an address up and adds to the bytes that are held. Both are words because the heap grants ranges
that do not run over the end of the address space and share no byte (`Tracker.Regular`).
-/

namespace TrackedHeap

/-- Why a computation stops. -/
inductive Fault where
  /-- A difference would be less than 0. -/
  | underflow
  /-- A sum, a product or a power is not a word, or a count has reached its limit. -/
  | overflow
  | divisionByZero
  /-- There is nothing at an index. -/
  | outOfRange
  /-- A branch was reached that nothing should lead to. -/
  | internal (text : String)
deriving DecidableEq, Repr

/-- A computation that may stop. -/
abbrev Checked := Except Fault

namespace Checked

variable {α β : Type} {a b : Nat}

/-- The first number that is no number of 32 bits with a sign. -/
def countLimit : Nat := 2 ^ 31

/-- One more, in a count of 32 bits with a sign. -/
def countOne (n : Nat) : Checked Nat :=
  if n + 1 < countLimit then .ok (n + 1) else .error .overflow

def add (a b : Nat) : Checked Nat :=
  if a + b < Word.limit then .ok (a + b) else .error .overflow

def sub (a b : Nat) : Checked Nat :=
  if b ≤ a then .ok (a - b) else .error .underflow

def mul (a b : Nat) : Checked Nat :=
  if a * b < Word.limit then .ok (a * b) else .error .overflow

def div (a b : Nat) : Checked Nat :=
  if b = 0 then .error .divisionByZero else .ok (a / b)

def mod (a b : Nat) : Checked Nat :=
  if b = 0 then .error .divisionByZero else .ok (a % b)

/-- The word with one bit set. -/
def power (order : Nat) : Checked Nat :=
  if order < 64 then .ok (1 <<< order) else .error .overflow

/-- The element at an index. -/
def get (xs : List α) (i : Nat) : Checked α :=
  match xs[i]? with
  | some x => .ok x
  | none => .error .outOfRange

/-- The sum, one after another. -/
def sum (ns : List Nat) : Checked Nat :=
  ns.foldlM add 0

@[simp] theorem ok_bind (x : α) (f : α → Checked β) : (Except.ok x : Checked α) >>= f = f x :=
  rfl

theorem countOne_eq (h : a + 1 < countLimit) : countOne a = .ok (a + 1) :=
  if_pos h

theorem add_eq (h : a + b < Word.limit) : add a b = .ok (a + b) :=
  if_pos h

theorem sub_eq (h : b ≤ a) : sub a b = .ok (a - b) :=
  if_pos h

theorem mul_eq (h : a * b < Word.limit) : mul a b = .ok (a * b) :=
  if_pos h

theorem div_eq (h : 0 < b) : div a b = .ok (a / b) :=
  if_neg (Nat.ne_of_gt h)

theorem mod_eq (h : 0 < b) : mod a b = .ok (a % b) :=
  if_neg (Nat.ne_of_gt h)

theorem power_eq {order : Nat} (h : order < 64) : power order = .ok (1 <<< order) :=
  if_pos h

theorem get_eq {xs : List α} {i : Nat} {x : α} (h : xs[i]? = some x) : get xs i = .ok x := by
  rw [get, h]

theorem mapM_eq {xs : List α} {f : α → Checked β} {g : α → β} (h : ∀ x ∈ xs, f x = .ok (g x)) :
    xs.mapM f = .ok (xs.map g) := by
  induction xs with
  | nil => rfl
  | cons x xs ih =>
    rw [List.mapM_cons, h x List.mem_cons_self, ok_bind, ih fun y hy => h y (List.mem_cons_of_mem _ hy)]
    rfl

theorem foldlM_add_eq {ns : List Nat} {n : Nat} (h : n + ns.sum < Word.limit) :
    ns.foldlM add n = .ok (n + ns.sum) := by
  induction ns generalizing n with
  | nil => rfl
  | cons m ns ih =>
    rw [List.sum_cons, ← Nat.add_assoc] at h ⊢
    rw [List.foldlM_cons, add_eq (by omega), ok_bind, ih h]

/-- All sums on the way are words if the last one is. -/
theorem sum_eq {ns : List Nat} (h : ns.sum < Word.limit) : sum ns = .ok ns.sum := by
  rw [sum, foldlM_add_eq (by rwa [Nat.zero_add]), Nat.zero_add]

end Checked

open Checked

/-! ## Counts -/

namespace Tally

/-- One more request, with its result. -/
def recordChecked {α : Type} (t : Tally) : Except MemoryError α → Checked Tally
  | .ok _ => do
    let allocations ← add t.allocations 1
    return { t with allocations }
  | .error _ => do
    let failures ← add t.failures 1
    return { t with failures }

/-- One more range that came back. -/
def returnedChecked (t : Tally) : Checked Tally := do
  let deallocations ← add t.deallocations 1
  return { t with deallocations }

/-- How often something was counted. -/
def events (t : Tally) : Nat :=
  t.allocations + t.deallocations + t.failures

/-- One more can be counted. -/
def HasRoom (t : Tally) : Prop :=
  t.events + 1 < Word.limit

namespace HasRoom

variable {t : Tally}

theorem recordChecked {α : Type} (h : t.HasRoom) (result : Except MemoryError α) :
    t.recordChecked result = .ok (t.record result) := by
  unfold HasRoom events at h
  cases result with
  | ok => rw [Tally.recordChecked, add_eq (by omega)]; rfl
  | error => rw [Tally.recordChecked, add_eq (by omega)]; rfl

theorem returnedChecked (h : t.HasRoom) : t.returnedChecked = .ok t.returned := by
  unfold HasRoom events at h
  rw [Tally.returnedChecked, add_eq (by omega)]
  rfl

end HasRoom

end Tally

/-! ## Trackers -/

/-- The least multiple of the alignment that is not below `n`. -/
def Alignment.alignUpChecked (a : Alignment) (n : Nat) : Checked Nat := do
  let sum ← add n (a.bytes - 1)
  return sum / a.bytes * a.bytes

theorem Alignment.alignUpChecked_eq {a : Alignment} {n : Nat} (h : n + (a.bytes - 1) < Word.limit) :
    a.alignUpChecked n = .ok (a.alignUp n) := by
  rw [alignUpChecked, add_eq h]
  rfl

/-- More bytes are held. Only what is held now is compared with the peak, and so has to be a word. -/
def Usage.addChecked (u : Usage) (size : Nat) : Checked Usage := do
  let current ← Checked.add u.current size
  return { u with allocated := Word.addWrap u.allocated size, current, peak := max u.peak current }

theorem Usage.addChecked_eq {u : Usage} {size : Nat} (h : u.current + size < Word.limit) :
    u.addChecked size = .ok (u.add size) := by
  rw [addChecked, add_eq h, ok_bind, Usage.add, Word.addWrap_eq h]
  rfl

namespace Tracker

variable {H : Type} [Heap H] {t t' : Tracker H}

/-- Takes a block of `size` bytes from the heap. -/
def allocateChecked (t : Tracker H) (size : Nat) (alignment : Alignment) : Checked (Outcome Block (Tracker H)) :=
  if size = 0 then .ok (.error .zeroAllocation, t)
  else
    match alignment.paddedSize size with
    | .error e => .ok (.error e, t)
    | .ok padded =>
      match Heap.alloc t.heap padded with
      | (.error e, heap) => .ok (.error e, { t with heap })
      | (.ok raw, heap) =>
        if raw = 0 then .ok (.error (.outOfMemory padded 0), { t with heap })
        else do
          let address ← alignment.alignUpChecked raw
          let usage ← t.usage.addChecked padded
          let block := { Block.place t.nextId raw size padded alignment t.now with address }
          return (.ok block,
            { t with heap, blocks := t.blocks ++ [block], nextId := t.nextId + 1, usage })

/-- Whatever is asked of the tracker, its blocks are apart in the address space, and it knows how much they take. -/
def Regular (t : Tracker H) : Prop :=
  ∀ t', Steps t t' → Layout t'.blocks t'.nextId ∧ t'.usage.current = t'.held

theorem Regular.steps (h : t.Regular) (s : Steps t t') : t'.Regular :=
  fun t'' s' => h t'' (s.trans s')

theorem Regular.layout (h : t.Regular) : Layout t.blocks t.nextId :=
  (h t .refl).1

theorem Regular.numbered (h : t.Regular) : t.Numbered :=
  ⟨h.layout.issued, fun _ hb _ hc => h.layout.eq_of_id hb hc⟩

open LawfulHeap (Sound Granted) in
/-- A tracker of a heap that had granted nothing, also over a heap that may answer with the address 0. -/
theorem regular_of_steps [LawfulHeap (NonNull H)] {heap : H} {budget : Option Nat} (hs : Sound (NonNull.mk heap))
    (hg : ∀ e, ¬ Granted (NonNull.mk heap) e) (s : Steps (ofHeap heap budget) t) : t.Regular := by
  intro t' s'
  have hafter : Steps (ofHeap heap budget) t' := s.trans s'
  have hview : t'.nonNull.WellFormed := Steps.wellFormed_nonNull hafter hs hg
  obtain ⟨acts, rfl⟩ := Steps.exists_run hafter
  exact ⟨hview.layout, (tallies_run hs hg budget acts).current⟩

/-- The new block lies in the address space, apart from the others, so no sum is too large. -/
theorem Regular.allocateChecked (h : t.Regular) (size : Nat) (alignment : Alignment) :
    t.allocateChecked size alignment = .ok (t.allocate size alignment) := by
  obtain ⟨hlayout, hheld⟩ := h _ (.single (.allocate t size alignment))
  revert hlayout hheld
  unfold Tracker.allocateChecked
  fun_cases Tracker.allocate t size alignment
  case case1 hsize => simp only [if_pos hsize, implies_true]
  case case2 hsize e hp => simp only [if_neg hsize, hp, implies_true]
  case case3 hsize padded hp e heap ha => simp only [if_neg hsize, hp, ha, implies_true]
  case case4 hsize padded hp heap ha => simp only [if_neg hsize, hp, ha, if_true, implies_true]
  case case5 hsize padded hp raw heap ha hraw block =>
    intro hlayout hheld
    have hplaced : block.Placed := hlayout.placed block (List.mem_append_right _ (List.mem_singleton_self _))
    have hraw_le : raw + padded ≤ Word.limit := hplaced.fits
    obtain ⟨hpadded, -⟩ := Alignment.paddedSize_eq_ok.mp hp
    have hcurrent : t.usage.current + padded < Word.limit := by
      have hsum := hlayout.sum_paddedSize_lt
      rw [List.map_append, List.sum_append, List.map_singleton, List.sum_singleton] at hsum
      rw [(h t .refl).2]
      exact hsum
    simp only [if_neg hsize, hp, ha, if_neg hraw]
    rw [Alignment.alignUpChecked_eq (by omega), Usage.addChecked_eq hcurrent]
    rfl

end Tracker

end TrackedHeap
