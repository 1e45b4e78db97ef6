import TrackedHeap.Proofs.Carver.Construction
import TrackedHeap.Proofs.Checked.Buddy
import TrackedHeap.Proofs.Checked.Sequence
import TrackedHeap.Proofs.Checked.Slab
import TrackedHeap.Proofs.Twin.Blank

/-!
# Hybrids within words

A hybrid stays within words because its parts do (`Hybrid.Bounded.allocateChecked`). The figures that it adds to its
parts' are sums of theirs. The capacities add up to a word, although that of the buddies may be almost twice what they
were made for (`Hybrid.bounded_of_make`); what was counted adds up to the operations there were, and what is allocated
to what clients have (`Hybrid.statsChecked_row`).
-/

namespace TrackedHeap

open Checked

/-! ## Counts and figures of parts -/

namespace Tally

variable {a b : Tally}

theorem events_add (a b : Tally) : (a + b).events = a.events + b.events := by
  show a.allocations + b.allocations + (a.deallocations + b.deallocations) + (a.failures + b.failures) = _
  unfold events
  omega

theorem HasRoom.of_add (h : (a + b).HasRoom) : a.HasRoom ∧ b.HasRoom := by
  unfold HasRoom at h ⊢
  rw [events_add] at h
  omega

end Tally

namespace CarverStats

/-- The figures of parts and their sums. -/
def ofPartsChecked (parts : List CarverStats) : Checked CarverStats := do
  let total ← sum (parts.map total)
  let allocated ← sum (parts.map allocated)
  let allocations ← sum (parts.map allocations)
  let deallocations ← sum (parts.map deallocations)
  let failures ← sum (parts.map failures)
  return {
    strategy := .hybrid, total, allocated, free := total - allocated, allocations, deallocations, failures,
    components := parts }

theorem sum_map_eq {figure : CarverStats → Nat} {parts : List CarverStats} (h : sumOf figure parts < Word.limit) :
    sum (parts.map figure) = .ok (sumOf figure parts) := by
  rw [sumOf_eq] at h ⊢
  exact sum_eq h

theorem ofPartsChecked_eq {parts : List CarverStats} (htotal : (ofParts parts).total < Word.limit)
    (hallocated : (ofParts parts).allocated < Word.limit) (hallocations : (ofParts parts).allocations < Word.limit)
    (hdeallocations : (ofParts parts).deallocations < Word.limit) (hfailures : (ofParts parts).failures < Word.limit) :
    ofPartsChecked parts = .ok (ofParts parts) := by
  rw [ofPartsChecked, sum_map_eq htotal, ok_bind, sum_map_eq hallocated, ok_bind, sum_map_eq hallocations, ok_bind,
    sum_map_eq hdeallocations, ok_bind, sum_map_eq hfailures]
  rfl

end CarverStats

/-! ## Hybrids -/

/-- One part for each tier of sizes, with the arenas in a row. -/
structure HybridRow where
  small : SlabCarver
  medium : Buddy
  large : ArenaRow

namespace HybridRow

/-- The figures of the parts and their sums. -/
def statsChecked (h : HybridRow) : Checked CarverStats :=
  CarverStats.ofPartsChecked [h.small.stats, h.medium.stats, h.large.stats]

/-- Takes back the range that a handle names. -/
def releaseChecked (h : HybridRow) (handle : CarveOut) : Checked (Outcome Unit HybridRow) :=
  match Tier.ofSize handle.requestedSize with
  | .small => do
    let (result, small) ← h.small.releaseChecked handle
    return (result, { h with small })
  | .medium => do
    let (result, medium) ← h.medium.releaseChecked handle
    return (result, { h with medium })
  | .large =>
    match h.large.release handle with
    | (result, large) => .ok (result, { h with large })

variable {H : Type} [Heap H]

/-- The three parts, or none. -/
def makeChecked (t : Tracker H) (total : Nat) (alignment : Alignment) : Checked (Outcome HybridRow (Tracker H)) :=
  match requireCapacity total with
  | .error e => .ok (.error e, t)
  | .ok () =>
    match SlabCarver.make (total / 4) alignment with
    | .error e => .ok (.error e, t)
    | .ok small => do
      match ← Buddy.makeChecked t (total / 2) alignment with
      | (.error e, t) => return (.error e, t)
      | (.ok medium, t) => do
        match ← ArenaRow.makeChecked t (total / 4) alignment with
        | (.error e, t) => return (.error e, (t.free medium.base).2)
        | (.ok large, t) => return (.ok { small, medium, large }, t)

/-- Takes a range for a request from the part of its tier. -/
def allocateChecked (h : HybridRow) (t : Tracker H) (size : Nat) :
    Checked (Outcome CarveOut (HybridRow × Tracker H)) :=
  if size = 0 then .ok (.error .zeroAllocation, h, t)
  else
    match Tier.ofSize size with
    | .small => do
      let (result, small, t) ← h.small.allocateChecked t size
      return (result, { h with small }, t)
    | .medium => do
      let (result, medium) ← h.medium.allocateChecked size
      return (result, { h with medium }, t)
    | .large => do
      let (result, large, t) ← h.large.allocateChecked t size
      return (result, { h with large }, t)

/-- Resets the parts. -/
def resetChecked (h : HybridRow) (t : Tracker H) : Checked (Outcome Unit (HybridRow × Tracker H)) := do
  let (small, t) ← h.small.resetChecked t
  let medium ← h.medium.resetChecked
  let (result, large, t) ← h.large.resetChecked t
  return (result, { small, medium, large }, t)

end HybridRow

namespace Hybrid

variable {H : Type} {t t' : Tracker H} {h : Hybrid}

/-- The hybrid with its arenas in a row. -/
def row (h : Hybrid) : HybridRow where
  small := h.small
  medium := h.medium
  large := h.large.row

/-- The outcome with the arenas in a row. -/
def inRow {α τ : Type} : Outcome α (Hybrid × τ) → Outcome α (HybridRow × τ)
  | (result, h, t) => (result, h.row, t)

/-- What was counted in all parts together. -/
def tally (h : Hybrid) : Tally :=
  h.small.tally + (h.medium.tally + h.large.tally)

/-- What keeps the arithmetic of the parts within words, and the sum of the capacities. -/
structure Bounded (h : Hybrid) : Prop where
  each : Each SlabCarver.Bounded Buddy.Bounded Arena.Bounded h
  total_lt : h.stats.total < Word.limit

/-- The capacity is that of the hybrid when it was new. -/
theorem total_of_blank {h h' : Hybrid} (hb : h'.blank = h.blank) : h'.stats.total = h.stats.total := by
  show h'.blank.stats.total = h.blank.stats.total
  rw [hb]

/-- The figures add up to words if there is room to count one more operation. -/
theorem statsChecked_row (htotal : h.stats.total < Word.limit) (hallocated : h.stats.allocated < Word.limit)
    (hr : h.tally.events < Word.limit) : h.row.statsChecked = .ok h.stats := by
  have hevents : h.stats.allocations + h.stats.deallocations + h.stats.failures = h.tally.events := rfl
  exact CarverStats.ofPartsChecked_eq htotal hallocated (show h.stats.allocations < _ by omega)
    (show h.stats.deallocations < _ by omega) (show h.stats.failures < _ by omega)

/-! ## Every operation keeps the bounds -/

namespace Bounded

theorem release (hb : h.Bounded) (handle : CarveOut) : (h.release handle).2.Bounded where
  each := hb.each.release (fun hs => hs.release handle) fun hm => hm.release handle
  total_lt := total_of_blank (h.blank_release handle) ▸ hb.total_lt

variable [Heap H]

theorem allocate (hb : h.Bounded) (t : Tracker H) (size : Nat) : (h.allocate t size).2.1.Bounded where
  each := hb.each.allocate (fun hs => hs.allocate t size) (fun hm => hm.allocate size) fun hl => hl.allocate t size
  total_lt := total_of_blank (h.blank_allocate t size) ▸ hb.total_lt

theorem reset (hb : h.Bounded) (t : Tracker H) : (h.reset t).2.1.Bounded where
  each := ⟨hb.each.small.reset t, hb.each.medium.reset, hb.each.large.reset (h.small.reset t).2⟩
  total_lt := total_of_blank (h.blank_reset t) ▸ hb.total_lt

end Bounded

/-! ## No operation stops -/

namespace Bounded

/-- An arena takes back everything of its own, and nothing is counted. -/
theorem releaseChecked (hb : h.Bounded) (hr : h.tally.HasRoom) (handle : CarveOut) :
    h.row.releaseChecked handle = .ok ((h.release handle).1, (h.release handle).2.row) := by
  obtain ⟨hsmall, hrest⟩ := hr.of_add
  rw [HybridRow.releaseChecked, Hybrid.release]
  cases Tier.ofSize handle.requestedSize with
  | small =>
    have hpart : h.row.small.releaseChecked handle = _ := hb.each.small.releaseChecked hsmall handle
    simp only [hpart, ok_bind]
    rfl
  | medium =>
    have hpart : h.row.medium.releaseChecked handle = _ := hb.each.medium.releaseChecked hrest.of_add.1 handle
    simp only [hpart, ok_bind]
    rfl
  | large =>
    have hpart : h.row.large.release handle = _ := h.large.release_row handle
    simp only [hpart]
    rfl

variable [Heap H]

/-- What is allocated of all parts afterwards has to be a word. -/
theorem allocateChecked (hb : h.Bounded) (ht : t.Regular) (hr : h.tally.HasRoom) {size : Nat}
    (hlt : (h.allocate t size).2.1.stats.allocated < Word.limit) :
    h.row.allocateChecked t size = .ok (inRow (h.allocate t size)) := by
  obtain ⟨hsmall, hrest⟩ := hr.of_add
  revert hlt
  rw [HybridRow.allocateChecked]
  by_cases hsize : size = 0
  · intro _
    rw [if_pos hsize, Hybrid.allocate, if_pos hsize]
    rfl
  rw [if_neg hsize]
  cases htier : Tier.ofSize size with
  | small =>
    have hpart : h.row.small.allocateChecked t size = _ := hb.each.small.allocateChecked ht hsmall size
    simp only [hpart, ok_bind, allocate_small hsize htier]
    exact fun _ => rfl
  | medium =>
    have hpart : h.row.medium.allocateChecked size = _ := hb.each.medium.allocateChecked hrest.of_add.1 size
    simp only [hpart, ok_bind, allocate_medium hsize htier]
    exact fun _ => rfl
  | large =>
    rw [allocate_large hsize htier]
    intro hlt
    have hle : (h.large.allocate t size).2.1.allocated < Word.limit := by
      refine Nat.lt_of_le_of_lt ?_ hlt
      show _ ≤ h.small.allocated + (h.medium.allocated + ((h.large.allocate t size).2.1.allocated + 0))
      omega
    have hpart : h.row.large.allocateChecked t size = _ := hb.each.large.allocateChecked ht hrest.of_add.2 hle
    simp only [hpart, ok_bind]
    rfl

theorem resetChecked (hb : h.Bounded) (t : Tracker H) : h.row.resetChecked t = .ok (inRow (h.reset t)) := by
  have hsmall : h.row.small.resetChecked t = _ := hb.each.small.resetChecked t
  have hmedium : h.row.medium.resetChecked = _ := hb.each.medium.resetChecked
  have hlarge : h.row.large.resetChecked (h.small.reset t).2 = _ := h.large.resetChecked_row _
  rw [HybridRow.resetChecked, hsmall, ok_bind]
  simp only [hmedium, ok_bind]
  rw [hlarge]
  rfl

end Bounded

/-! ## New hybrids -/

variable [Heap H] {total : Nat} {alignment : Alignment}

theorem makeChecked_eq (ht : t.Regular) (total : Nat) (alignment : Alignment) :
    HybridRow.makeChecked t total alignment =
      .ok ((make t total alignment).1.map row, (make t total alignment).2) := by
  have hmedium := Buddy.makeChecked_eq ht (total / 2) alignment
  have hlarge (t₁ : Tracker H) (h₁ : Tracker.Steps t t₁) :=
    Arena.makeChecked_eq (ht.steps h₁) (total / 4) alignment
  have hsteps := Buddy.steps_make t (total / 2) alignment
  unfold HybridRow.makeChecked
  fun_cases Hybrid.make t total alignment
  case case1 e hcapacity => simp only [hcapacity]; rfl
  case case2 hcapacity e hsmall => simp only [hcapacity, hsmall]; rfl
  case case3 hcapacity small hsmall e t₁ hm =>
    simp only [hcapacity, hsmall]
    rw [hmedium, hm]
    rfl
  case case4 hcapacity small hsmall medium t₁ hm e t₂ hl =>
    rw [hm] at hsteps
    simp only [hcapacity, hsmall]
    rw [hmedium, hm, ok_bind]
    simp only
    rw [hlarge t₁ hsteps, hl]
    rfl
  case case5 hcapacity small hsmall medium t₁ hm large t₂ hl =>
    rw [hm] at hsteps
    simp only [hcapacity, hsmall]
    rw [hmedium, hm, ok_bind]
    simp only
    rw [hlarge t₁ hsteps, hl]
    rfl

/-- The buddies of half the capacity are a power of 2 below the limit, so no more than half the limit. -/
theorem bounded_of_make (htotal : total < Word.limit) (hm : make t total alignment = (.ok h, t')) : h.Bounded := by
  obtain ⟨hsmall, t₁, hmedium, hlarge⟩ := make_ok hm
  have hbuddy := Buddy.bounded_of_make hmedium
  have hpower : h.medium.total ≤ 2 ^ 63 := by
    have hlt := hbuddy.order_lt
    rw [Buddy.total_eq]
    exact Nat.pow_le_pow_right Nat.two_pos (by omega)
  have hlimit : Word.limit = 2 ^ 64 := rfl
  refine ⟨⟨SlabCarver.bounded_of_make (by omega) hsmall, hbuddy, Arena.bounded_of_make hlarge⟩, ?_⟩
  have hslab : h.small.total = total / 4 := by rw [SlabCarver.make_ok hsmall]
  have harena : h.large.total = total / 4 := by rw [(Arena.make_ok hlarge).1]
  show h.small.total + (h.medium.total + (h.large.total + 0)) < _
  omega

end Hybrid

end TrackedHeap
