import TrackedHeap.Carver
import TrackedHeap.Proofs.Carver.Occupancy
import TrackedHeap.Proofs.Ownership.Buddy
import TrackedHeap.Proofs.Tracker.Refusal

/-!
# Refused requests to carvers

A carver that refuses a request has at most counted it (`Carver.missed`), and one that refuses to take a
range back has changed nothing (`Carver.allocate_refused`, `Carver.release_refused`). Of its tracker it has
asked nothing, or a block that was refused to it (`Tracker.Denied`): a carver asks for a block once all its
own checks are passed, and what it gets is enough for the request. For a slab that is so because a new slab
has at least one cell and all of them are free (`SlabCarver.newSlab_room`).
-/

namespace TrackedHeap

/-- Nothing was asked of the tracker, or a block that it refused. -/
def Tracker.Denied {H : Type} [Heap H] (t : Tracker H) (e : MemoryError) (t' : Tracker H) : Prop :=
  t' = t ∨ ∃ size alignment, t.allocate size alignment = (.error e, t')

/-- One more request that was refused. -/
def Tally.missed (t : Tally) : Tally :=
  { t with failures := t.failures + 1 }

/-- In a slab of free cells the first one is found. -/
theorem Occupancy.firstClear_empty {len : Nat} (h : 0 < len) : (empty len).firstClear = some 0 := by
  have hfind : (empty len).words.findIdx? (fun w => w != BitVec.allOnes 64) = some 0 := by
    refine Array.findIdx?_eq_some_iff_getElem.mpr ⟨?_, ?_, fun j hj => absurd hj (Nat.not_lt_zero j)⟩
    · simp only [empty, Array.size_replicate]
      omega
    · simp only [empty, Array.getElem_replicate]
      decide
  have hword : (empty len).words[0]?.getD 0 = 0 := by
    simp only [empty, Array.getElem?_replicate]
    split <;> rfl
  have hones : trailingOnes 0 = 0 := by decide
  unfold firstClear
  simp only [hfind, hword, hones]
  exact if_pos h

variable {H : Type} [Heap H] {t t' : Tracker H} {e : MemoryError} {size : Nat}

/-! ## Each strategy -/

namespace SlabCarver

variable {s s' : SlabCarver}

omit [Heap H] in
theorem carveFrom_refused {slab : Slab} (h : s.carveFrom slab = (.error e, s')) : s' = s := by
  revert h
  fun_cases SlabCarver.carveFrom s slab
  case case1 => exact fun h => by cases h; rfl
  case case2 => exact fun h => by cases h

theorem newSlab_refused (h : s.newSlab t size = (.error e, s', t')) : s' = s ∧ t.Denied e t' := by
  revert h
  fun_cases SlabCarver.newSlab s t size
  case case3 ha => exact fun h => by cases h; exact ⟨rfl, .inr ⟨_, _, ha⟩⟩
  case case4 => exact fun h => by cases h
  all_goals exact fun h => by cases h; exact ⟨rfl, .inl rfl⟩

/-- A new slab has a cell for the request. -/
theorem newSlab_room {slab : Slab} (h : s.newSlab t size = (.ok slab, s', t')) :
    slab.occupancy.firstClear = some 0 := by
  revert h
  fun_cases SlabCarver.newSlab s t size
  case case4 cells hcells hroom base t₁ ha new =>
    intro h
    obtain ⟨hslab, -⟩ := Prod.mk.inj h
    rw [← Except.ok.inj hslab]
    exact Occupancy.firstClear_empty (Nat.pos_of_ne_zero hcells)
  all_goals exact fun h => by cases h

theorem carve_refused (h : s.carve t size = (.error e, s', t')) :
    s' = s ∧ t.Denied e t' := by
  revert h
  fun_cases SlabCarver.carve s t size
  case case1 => exact fun h => by cases h; exact ⟨rfl, .inl rfl⟩
  case case2 hsize slab hfind result s₁ hcarve =>
    intro h
    cases h
    exact ⟨carveFrom_refused hcarve, .inl rfl⟩
  case case3 hsize hnone e' s₁ t₁ hnew =>
    intro h
    cases h
    exact newSlab_refused hnew
  case case4 hsize hnone slab s₁ t₁ hnew result s₂ hcarve =>
    intro h
    cases h
    -- a slab that was just taken does not refuse
    rw [carveFrom, newSlab_room hnew] at hcarve
    cases hcarve

theorem allocate_refused (h : s.allocate t size = (.error e, s', t')) :
    s' = { s with tally := s.tally.missed } ∧ t.Denied e t' := by
  unfold allocate at h
  split at h
  next hcarve =>
    cases h
    obtain ⟨rfl, hdenied⟩ := carve_refused hcarve
    exact ⟨rfl, hdenied⟩

theorem release_refused {handle : CarveOut} (h : s.release handle = (.error e, s')) : s' = s := by
  revert h
  fun_cases SlabCarver.release s handle
  case case4 => exact fun h => by cases h
  all_goals exact fun h => by cases h; rfl

end SlabCarver

namespace Arena

variable {a a' : Arena}

theorem carve_refused (h : a.carve t size = (.error e, a', t')) : a' = a ∧ t.Denied e t' := by
  revert h
  fun_cases Arena.carve a t size
  case case1 => exact fun h => by cases h; exact ⟨rfl, .inl rfl⟩
  case case2 => exact fun h => by cases h; exact ⟨rfl, .inl rfl⟩
  case case3 ha => exact fun h => by cases h; exact ⟨rfl, .inr ⟨_, _, ha⟩⟩
  case case4 hgrant => exact fun h => by cases h; cases hgrant
  case case5 hgrant => exact fun h => by cases h; cases hgrant

theorem allocate_refused (h : a.allocate t size = (.error e, a', t')) :
    a' = { a with tally := a.tally.missed } ∧ t.Denied e t' := by
  unfold allocate at h
  split at h
  next hcarve =>
    cases h
    obtain ⟨rfl, hdenied⟩ := carve_refused hcarve
    exact ⟨rfl, hdenied⟩

theorem release_refused {handle : CarveOut} (h : a.release handle = (.error e, a')) : a' = a := by
  revert h
  fun_cases Arena.release a handle
  case case1 => exact fun h => by cases h
  case case2 => exact fun h => by cases h; rfl

end Arena

theorem Buddy.allocate_refused {b b' : Buddy} (h : b.allocate size = (.error e, b')) :
    b' = { b with tally := b.tally.missed } := by
  unfold allocate at h
  split at h
  next hcarve =>
    cases h
    rw [carve_error hcarve]
    rfl

namespace RingBuffer

variable {r r' : RingBuffer}

theorem carve_refused (h : r.carve size = (.error e, r')) : r' = r := by
  revert h
  fun_cases RingBuffer.carve r size
  case case3 => exact fun h => by cases h
  all_goals exact fun h => by cases h; rfl

theorem allocate_refused (h : r.allocate size = (.error e, r')) :
    r' = { r with tally := r.tally.missed } := by
  unfold allocate at h
  split at h
  next hcarve =>
    cases h
    rw [carve_refused hcarve]
    rfl

end RingBuffer

namespace ObjectPool

variable {p p' : ObjectPool}

theorem carve_refused (h : p.carve t size = (.error e, p', t')) : p' = p ∧ t.Denied e t' := by
  revert h
  fun_cases ObjectPool.carve p t size
  case case1 => exact fun h => by cases h; exact ⟨rfl, .inl rfl⟩
  case case2 => exact fun h => by cases h
  case case3 => exact fun h => by cases h; exact ⟨rfl, .inl rfl⟩
  case case4 ha => exact fun h => by cases h; exact ⟨rfl, .inr ⟨_, _, ha⟩⟩
  case case5 => exact fun h => by cases h

theorem allocate_refused (h : p.allocate t size = (.error e, p', t')) :
    p' = { p with tally := p.tally.missed } ∧ t.Denied e t' := by
  unfold allocate at h
  split at h
  next hcarve =>
    cases h
    obtain ⟨rfl, hdenied⟩ := carve_refused hcarve
    exact ⟨rfl, hdenied⟩

omit [Heap H] in
theorem release_refused {handle : CarveOut} (h : p.release t handle = (.error e, p')) : p' = p := by
  revert h
  fun_cases ObjectPool.release p t handle
  case case5 => exact fun h => by cases h
  all_goals exact fun h => by cases h; rfl

end ObjectPool

theorem Hybrid.release_refused {h h' : Hybrid} {handle : CarveOut}
    (hr : h.release handle = (.error e, h')) : h' = h := by
  revert hr
  fun_cases Hybrid.release h handle
  case case1 htier result small hpart =>
    intro hr
    cases hr
    rw [SlabCarver.release_refused hpart]
  case case2 htier result medium hpart =>
    intro hr
    cases hr
    rw [Buddy.release_error hpart]
  case case3 htier result large hpart =>
    intro hr
    cases hr
    rw [Arena.release_refused hpart]

/-! ## Any strategy -/

namespace Carver

variable {c c' : Carver}

theorem lift_eq {α σ τ : Type} {wrap : σ → Carver} {o : Outcome α (σ × τ)} {result : Except MemoryError α}
    {x : τ} (h : lift wrap o = (result, c', x)) : ∃ s, o = (result, s, x) ∧ c' = wrap s := by
  obtain ⟨_, s, _⟩ := o
  cases h
  exact ⟨s, rfl, rfl⟩

theorem beside_eq {α σ τ : Type} {o : Outcome α σ} {result : Except MemoryError α} {s : σ} {x x' : τ}
    (h : beside x o = (result, s, x')) : o = (result, s) ∧ x' = x := by
  cases h
  exact ⟨rfl, rfl⟩

/-- The carver after a request that it refused: one more failure is counted, in a hybrid by the part that
was asked. -/
def missed (c : Carver) (size : Nat) : Carver :=
  match c with
  | buddy b => buddy { b with tally := b.tally.missed }
  | slab s => slab { s with tally := s.tally.missed }
  | arena a => arena { a with tally := a.tally.missed }
  | ringBuffer r => ringBuffer { r with tally := r.tally.missed }
  | objectPool p => objectPool { p with tally := p.tally.missed }
  | hybrid h =>
    if size = 0 then hybrid h
    else
      match Tier.ofSize size with
      | .small => hybrid { h with small := { h.small with tally := h.small.tally.missed } }
      | .medium => hybrid { h with medium := { h.medium with tally := h.medium.tally.missed } }
      | .large => hybrid { h with large := { h.large with tally := h.large.tally.missed } }

theorem hybrid_allocate_refused {h h' : Hybrid} (ha : h.allocate t size = (.error e, h', t')) :
    hybrid h' = (hybrid h).missed size ∧ t.Denied e t' := by
  unfold missed
  revert ha
  fun_cases Hybrid.allocate h t size
  case case1 hsize =>
    intro ha
    cases ha
    simp only [if_pos hsize]
    exact ⟨trivial, .inl rfl⟩
  case case2 hsize htier result small t₁ hpart =>
    intro ha
    cases ha
    obtain ⟨rfl, hdenied⟩ := SlabCarver.allocate_refused hpart
    simp only [if_neg hsize, htier]
    exact ⟨trivial, hdenied⟩
  case case3 hsize htier result medium hpart =>
    intro ha
    cases ha
    simp only [if_neg hsize, htier, Buddy.allocate_refused hpart]
    exact ⟨trivial, .inl rfl⟩
  case case4 hsize htier result large t₁ hpart =>
    intro ha
    cases ha
    obtain ⟨rfl, hdenied⟩ := Arena.allocate_refused hpart
    simp only [if_neg hsize, htier]
    exact ⟨trivial, hdenied⟩

/-- A refused request is counted, and nothing else happens to the carver. -/
theorem allocate_refused (h : c.allocate t size = (.error e, c', t')) :
    c' = c.missed size ∧ t.Denied e t' := by
  unfold allocate at h
  cases c with
  | buddy b =>
    obtain ⟨b', hpart, rfl⟩ := lift_eq h
    obtain ⟨hown, rfl⟩ := beside_eq hpart
    rw [Buddy.allocate_refused hown]
    exact ⟨rfl, .inl rfl⟩
  | slab s =>
    obtain ⟨s', hpart, rfl⟩ := lift_eq h
    obtain ⟨rfl, hdenied⟩ := SlabCarver.allocate_refused hpart
    exact ⟨rfl, hdenied⟩
  | arena a =>
    obtain ⟨a', hpart, rfl⟩ := lift_eq h
    obtain ⟨rfl, hdenied⟩ := Arena.allocate_refused hpart
    exact ⟨rfl, hdenied⟩
  | ringBuffer r =>
    obtain ⟨r', hpart, rfl⟩ := lift_eq h
    obtain ⟨hown, rfl⟩ := beside_eq hpart
    rw [RingBuffer.allocate_refused hown]
    exact ⟨rfl, .inl rfl⟩
  | objectPool p =>
    obtain ⟨p', hpart, rfl⟩ := lift_eq h
    obtain ⟨rfl, hdenied⟩ := ObjectPool.allocate_refused hpart
    exact ⟨rfl, hdenied⟩
  | hybrid part =>
    obtain ⟨part', hpart, rfl⟩ := lift_eq h
    exact hybrid_allocate_refused hpart

omit [Heap H] in
/-- A range that is not taken back changes nothing. -/
theorem release_refused {handle : CarveOut} (h : c.release t handle = (.error e, c', t')) :
    c' = c ∧ t' = t := by
  unfold release at h
  cases c with
  | buddy b =>
    obtain ⟨b', hpart, rfl⟩ := lift_eq h
    obtain ⟨hown, rfl⟩ := beside_eq hpart
    rw [Buddy.release_error hown]
    exact ⟨rfl, rfl⟩
  | slab s =>
    obtain ⟨s', hpart, rfl⟩ := lift_eq h
    obtain ⟨hown, rfl⟩ := beside_eq hpart
    rw [SlabCarver.release_refused hown]
    exact ⟨rfl, rfl⟩
  | arena a =>
    obtain ⟨a', hpart, rfl⟩ := lift_eq h
    obtain ⟨hown, rfl⟩ := beside_eq hpart
    rw [Arena.release_refused hown]
    exact ⟨rfl, rfl⟩
  | ringBuffer r =>
    obtain ⟨r', hpart, rfl⟩ := lift_eq h
    obtain ⟨hown, rfl⟩ := beside_eq hpart
    obtain ⟨-, rfl⟩ := Prod.mk.inj hown
    exact ⟨rfl, rfl⟩
  | objectPool p =>
    obtain ⟨p', hpart, rfl⟩ := lift_eq h
    obtain ⟨hown, rfl⟩ := beside_eq hpart
    rw [ObjectPool.release_refused hown]
    exact ⟨rfl, rfl⟩
  | hybrid part =>
    obtain ⟨part', hpart, rfl⟩ := lift_eq h
    obtain ⟨hown, rfl⟩ := beside_eq hpart
    rw [Hybrid.release_refused hown]
    exact ⟨rfl, rfl⟩

end Carver

end TrackedHeap
