import TrackedHeap.Proofs.Ownership.Carver
import TrackedHeap.Proofs.Twin.Growing

/-!
# Twins of any strategy

A request, a range that comes back and a reset leave twins twins, whatever the strategy, and are answered alike
(`Carver.Twin.allocate`, `Carver.Twin.release`, `Carver.Twin.reset`). Object pools have no twins here: what they
hold back at a reset depends on what clients still have.
-/

namespace TrackedHeap

variable {H₁ H₂ : Type} {t₁ : Tracker H₁} {t₂ : Tracker H₂} {pairs more : Pairing}

open CarveOut (Answers Replies)

/-! ## Hybrids -/

namespace Hybrid

/-- The block that the part of the tier asks for to serve a request, if it has to ask for one. -/
def asks (h : Hybrid) (size : Nat) : Option (Nat × Alignment) :=
  if size = 0 then none
  else
    match Tier.ofSize size with
    | .small => h.small.asks size
    | .medium => none
    | .large => h.large.asks size

/-- The parts of the other hybrid are twins of the parts. -/
structure Twin (pairs : Pairing) (h h' : Hybrid) : Prop where
  small : h.small.Twin pairs h'.small
  medium : h.medium.Twin pairs h'.medium
  large : h.large.Twin pairs h'.large

variable {h h' : Hybrid}

theorem Twin.asks_eq (ht : h.Twin pairs h') (size : Nat) : h'.asks size = h.asks size := by
  unfold Hybrid.asks
  rw [ht.small.asks_eq, ht.large.asks_eq]

theorem Twin.release (ht : h.Twin pairs h') (hp : pairs.Between t₁ t₂) {c d : CarveOut}
    (hlike : c.Like pairs d) :
    Replies (h.release c).1 (h'.release d).1 ∧ (h.release c).2.Twin pairs (h'.release d).2 := by
  unfold Hybrid.release
  rw [hlike.requestedSize]
  cases Tier.ofSize c.requestedSize with
  | small =>
    obtain ⟨hr, htwin⟩ := ht.small.release hp hlike
    exact ⟨hr, htwin, ht.medium, ht.large⟩
  | medium =>
    obtain ⟨hr, htwin⟩ := ht.medium.release hp hlike
    exact ⟨hr, ht.small, htwin, ht.large⟩
  | large =>
    obtain ⟨hr, htwin⟩ := ht.large.release hp hlike
    exact ⟨hr, ht.small, ht.medium, htwin⟩

variable [Heap H₁] [Heap H₂]

theorem allocate_tracker (h : Hybrid) (t : Tracker H₁) (size : Nat) :
    (h.allocate t size).2.2 = (h.asks size).elim t fun request => (t.allocate request.1 request.2).2 := by
  by_cases hsize : size = 0
  · simp only [allocate, asks, if_pos hsize, Option.elim_none]
  unfold asks
  rw [if_neg hsize]
  cases ht : Tier.ofSize size with
  | small =>
    rw [allocate_small hsize ht]
    exact h.small.allocate_tracker t size
  | medium =>
    rw [allocate_medium hsize ht]
    rfl
  | large =>
    rw [allocate_large hsize ht]
    exact h.large.allocate_tracker t size

theorem Twin.allocate (ht : h.Twin pairs h') (hp : pairs.Between t₁ t₂) {size : Nat}
    (hagree : ∀ request ∈ h.asks size, t₁.Agree t₂ request) :
    ∃ more, Stepped Twin pairs t₁ t₂ (h.allocate t₁ size) (h'.allocate t₂ size) more := by
  by_cases hsize : size = 0
  · simp only [Hybrid.allocate, if_pos hsize]
    exact ⟨pairs, .aside hp ht (.refused _)⟩
  unfold Hybrid.asks at hagree
  rw [if_neg hsize] at hagree
  cases htier : Tier.ofSize size with
  | small =>
    rw [htier] at hagree
    obtain ⟨more, hs⟩ := ht.small.allocate hp hagree
    rw [allocate_small hsize htier, allocate_small hsize htier]
    exact ⟨more, hs.subset, hs.between, ⟨hs.twin, ht.medium.mono hs.subset, ht.large.mono hs.subset⟩, hs.answers⟩
  | medium =>
    obtain ⟨hans, htwin⟩ := ht.medium.allocate t₁ t₂ size
    rw [allocate_medium hsize htier, allocate_medium hsize htier]
    exact ⟨pairs, .aside hp ⟨ht.small, htwin, ht.large⟩ hans⟩
  | large =>
    rw [htier] at hagree
    obtain ⟨more, hs⟩ := ht.large.allocate hp hagree
    rw [allocate_large hsize htier, allocate_large hsize htier]
    exact ⟨more, hs.subset, hs.between, ⟨ht.small.mono hs.subset, ht.medium.mono hs.subset, hs.twin⟩, hs.answers⟩

theorem Twin.reset (ht : h.Twin pairs h') (t₁ : Tracker H₁) (t₂ : Tracker H₂) :
    (h.reset t₁).2.1.Twin pairs (h'.reset t₂).2.1 :=
  ⟨ht.small.reset t₁ t₂, ht.medium.reset, ht.large.reset (h.small.reset t₁).2 (h'.small.reset t₂).2⟩

end Hybrid

/-! ## Object pools -/

namespace ObjectPool

/-- The block that the pool asks for to serve a request, if it has to ask for one. -/
def asks (p : ObjectPool) (size : Nat) : Option (Nat × Alignment) :=
  if size = 0 ∨ (p.queued.find? fun c => c.requestedSize == size).isSome ∨ p.total < p.used + size then none
  else some (size, p.alignment)

theorem allocate_tracker [Heap H₁] (p : ObjectPool) (t : Tracker H₁) (size : Nat) :
    (p.allocate t size).2.2 = (p.asks size).elim t fun request => (t.allocate request.1 request.2).2 := by
  show (p.carve t size).2.2 = _
  unfold asks
  fun_cases ObjectPool.carve p t size
  case case1 hsize => simp [hsize]
  case case2 hfind => simp [hfind]
  case case3 hfull => simp [hfull]
  case case4 hsize hnone hroom e t' ha => simp [hsize, hnone, hroom, ha]
  case case5 hsize hnone hroom block t' ha => simp [hsize, hnone, hroom, ha]

end ObjectPool

/-! ## Carvers -/

namespace Carver

/-- The block that the carver asks for to serve a request, if it has to ask for one. -/
def asks (c : Carver) (size : Nat) : Option (Nat × Alignment) :=
  match c with
  | buddy _ | ringBuffer _ => none
  | slab s => s.asks size
  | arena a => a.asks size
  | objectPool p => p.asks size
  | hybrid h => h.asks size

/-- Twins of one strategy. -/
inductive Twin (pairs : Pairing) : Carver → Carver → Prop where
  | buddy {b b' : Buddy} (twin : b.Twin pairs b') : Twin pairs (.buddy b) (.buddy b')
  | slab {s s' : SlabCarver} (twin : s.Twin pairs s') : Twin pairs (.slab s) (.slab s')
  | arena {a a' : Arena} (twin : a.Twin pairs a') : Twin pairs (.arena a) (.arena a')
  | ringBuffer {r r' : RingBuffer} (twin : r.Twin pairs r') : Twin pairs (.ringBuffer r) (.ringBuffer r')
  | hybrid {h h' : Hybrid} (twin : h.Twin pairs h') : Twin pairs (.hybrid h) (.hybrid h')

variable {c c' : Carver}

/-- Twins ask for the same. -/
theorem Twin.asks_eq (h : c.Twin pairs c') (size : Nat) : c'.asks size = c.asks size := by
  cases h with
  | buddy twin => rfl
  | slab twin => exact twin.asks_eq size
  | arena twin => exact twin.asks_eq size
  | ringBuffer twin => rfl
  | hybrid twin => exact twin.asks_eq size

/-- Twins have as many bytes with clients. -/
theorem Twin.allocated_eq (h : c.Twin pairs c') : c'.stats.allocated = c.stats.allocated := by
  cases h with
  | buddy twin => cases twin; rfl
  | slab twin => cases twin; rfl
  | arena twin => cases twin; rfl
  | ringBuffer twin => cases twin; rfl
  | @hybrid h h' twin =>
    obtain ⟨small, medium, large⟩ := h
    obtain ⟨small', medium', large'⟩ := h'
    cases twin.small
    cases twin.medium
    cases twin.large
    rfl

theorem Twin.release (h : c.Twin pairs c') (hp : pairs.Between t₁ t₂) {x y : CarveOut} (hlike : x.Like pairs y) :
    Replies (c.release t₁ x).1 (c'.release t₂ y).1 ∧ (c.release t₁ x).2.1.Twin pairs (c'.release t₂ y).2.1 := by
  cases h with
  | buddy twin => exact (twin.release hp hlike).imp_right .buddy
  | slab twin => exact (twin.release hp hlike).imp_right .slab
  | arena twin => exact (twin.release hp hlike).imp_right .arena
  | ringBuffer twin => exact (twin.release hp hlike).imp_right .ringBuffer
  | hybrid twin => exact (twin.release hp hlike).imp_right .hybrid

variable [Heap H₁] [Heap H₂]

/-- A request takes the block that it asks for, and nothing else of the tracker. -/
theorem allocate_tracker (c : Carver) (t : Tracker H₁) (size : Nat) :
    (c.allocate t size).2.2 = (c.asks size).elim t fun request => (t.allocate request.1 request.2).2 := by
  cases c with
  | buddy b => rfl
  | slab s => exact s.allocate_tracker t size
  | arena a => exact a.allocate_tracker t size
  | ringBuffer r => rfl
  | objectPool p => exact p.allocate_tracker t size
  | hybrid h => exact h.allocate_tracker t size

/-- Twins stay twins and answer alike if their trackers agree on the block that they ask for. -/
theorem Twin.allocate (h : c.Twin pairs c') (hp : pairs.Between t₁ t₂) {size : Nat}
    (hagree : ∀ request ∈ c.asks size, t₁.Agree t₂ request) :
    ∃ more, Stepped Twin pairs t₁ t₂ (c.allocate t₁ size) (c'.allocate t₂ size) more := by
  cases h with
  | buddy twin =>
    obtain ⟨hans, htwin⟩ := twin.allocate t₁ t₂ size
    exact ⟨pairs, .aside hp (.buddy htwin) hans⟩
  | slab twin =>
    obtain ⟨more, hs⟩ := twin.allocate hp hagree
    exact ⟨more, hs.subset, hs.between, .slab hs.twin, hs.answers⟩
  | arena twin =>
    obtain ⟨more, hs⟩ := twin.allocate hp hagree
    exact ⟨more, hs.subset, hs.between, .arena hs.twin, hs.answers⟩
  | ringBuffer twin =>
    obtain ⟨hans, htwin⟩ := twin.allocate t₁ t₂ size
    exact ⟨pairs, .aside hp (.ringBuffer htwin) hans⟩
  | hybrid twin =>
    obtain ⟨more, hs⟩ := twin.allocate hp hagree
    exact ⟨more, hs.subset, hs.between, .hybrid hs.twin, hs.answers⟩

theorem Twin.reset (h : c.Twin pairs c') (t₁ : Tracker H₁) (t₂ : Tracker H₂) :
    (c.reset t₁).2.1.Twin pairs (c'.reset t₂).2.1 := by
  cases h with
  | buddy twin => exact .buddy twin.reset
  | slab twin => exact .slab (twin.reset t₁ t₂)
  | arena twin => exact .arena (twin.reset t₁ t₂)
  | ringBuffer twin => exact .ringBuffer twin.reset
  | hybrid twin => exact .hybrid (twin.reset t₁ t₂)

end Carver

end TrackedHeap
