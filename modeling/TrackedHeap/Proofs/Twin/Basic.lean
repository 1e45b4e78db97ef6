import TrackedHeap.Proofs.Carver.Buddy
import TrackedHeap.Proofs.Ownership.Sequence

/-!
# Twins

Two carvers over two trackers are twins if they differ in the identities of their blocks and in their tallies
alone. Which block of the one stands for which of the other is a list of pairs of ids, one-to-one as far as it
goes (`Pairing.Between`); it grows by a pair whenever both trackers grant a block. What twins answer is the
same but for the identities (`CarveOut.Answers`), so they cannot be told apart by what they grant and refuse.

This module is about carvers that have one block from the start, which never ask their trackers for more.
-/

namespace TrackedHeap

/-- Which block of one tracker stands for which of another, by their ids. -/
abbrev Pairing := List (Nat × Nat)

variable {H₁ H₂ : Type} {t₁ t₁' : Tracker H₁} {t₂ t₂' : Tracker H₂} {pairs more : Pairing}

/-- The pairs match ids that the two trackers have given out, each with one other. -/
structure Pairing.Between (pairs : Pairing) (t₁ : Tracker H₁) (t₂ : Tracker H₂) : Prop where
  oneToOne : ∀ p ∈ pairs, ∀ q ∈ pairs, p.1 = q.1 ↔ p.2 = q.2
  left_lt : ∀ p ∈ pairs, p.1 < t₁.nextId
  right_lt : ∀ p ∈ pairs, p.2 < t₂.nextId

namespace Pairing.Between

theorem nil (t₁ : Tracker H₁) (t₂ : Tracker H₂) : Between [] t₁ t₂ where
  oneToOne := by simp
  left_lt := by simp
  right_lt := by simp

/-- The trackers may give out more ids. -/
theorem mono (h : pairs.Between t₁ t₂) (h₁ : t₁.nextId ≤ t₁'.nextId) (h₂ : t₂.nextId ≤ t₂'.nextId) :
    pairs.Between t₁' t₂' where
  oneToOne := h.oneToOne
  left_lt p hp := Nat.lt_of_lt_of_le (h.left_lt p hp) h₁
  right_lt p hp := Nat.lt_of_lt_of_le (h.right_lt p hp) h₂

/-- Two new blocks are matched with each other. -/
theorem allocate [Heap H₁] [Heap H₂] (h : pairs.Between t₁ t₂) {size size' : Nat}
    {alignment alignment' : Alignment} {b₁ b₂ : Block} (h₁ : t₁.allocate size alignment = (.ok b₁, t₁'))
    (h₂ : t₂.allocate size' alignment' = (.ok b₂, t₂')) : Between ((b₁.id, b₂.id) :: pairs) t₁' t₂' := by
  obtain ⟨-, hnext₁, hid₁, -⟩ := Tracker.allocate_ok h₁
  obtain ⟨-, hnext₂, hid₂, -⟩ := Tracker.allocate_ok h₂
  have hold : pairs.Between t₁' t₂' := h.mono (by omega) (by omega)
  refine ⟨fun p hp q hq => ?_, fun p hp => ?_, fun p hp => ?_⟩
  · have hlt₁ := h.left_lt
    have hlt₂ := h.right_lt
    rcases List.mem_cons.mp hp with rfl | hp <;> rcases List.mem_cons.mp hq with rfl | hq
    · exact iff_of_true rfl rfl
    · have := hlt₁ q hq
      have := hlt₂ q hq
      exact iff_of_false (by simp only; omega) (by simp only; omega)
    · have := hlt₁ p hp
      have := hlt₂ p hp
      exact iff_of_false (by simp only; omega) (by simp only; omega)
    · exact h.oneToOne p hp q hq
  · rcases List.mem_cons.mp hp with rfl | hp
    · simp only
      omega
    · exact hold.left_lt p hp
  · rcases List.mem_cons.mp hp with rfl | hp
    · simp only
      omega
    · exact hold.right_lt p hp

end Pairing.Between

/-! ## What can be told apart -/

/-- The errors differ at most in the id of a block in their text. -/
inductive MemoryError.Like : MemoryError → MemoryError → Prop where
  | refl (e : MemoryError) : Like e e
  | notOwned (offset id id' : Nat) : Like (.notOwned offset id) (.notOwned offset id')
  | notAnArena (id id' : Nat) : Like (.notAnArena id) (.notAnArena id')

/-- The ranges differ in the identities of their blocks alone, which the pairs match. -/
structure CarveOut.Like (pairs : Pairing) (c d : CarveOut) : Prop where
  block : (c.block.id, d.block.id) ∈ pairs
  offset : d.offset = c.offset
  grantedSize : d.grantedSize = c.grantedSize
  requestedSize : d.requestedSize = c.requestedSize

theorem CarveOut.Like.mono {c d : CarveOut} (h : c.Like pairs d) (hs : pairs ⊆ more) : c.Like more d :=
  ⟨hs h.block, h.offset, h.grantedSize, h.requestedSize⟩

/-- What twins answer to a request: the like ranges, the same refusal, or each what its tracker refused it
with. -/
inductive CarveOut.Answers [Heap H₁] [Heap H₂] (pairs : Pairing) (t₁ : Tracker H₁) (t₂ : Tracker H₂) :
    Except MemoryError CarveOut → Except MemoryError CarveOut → Prop where
  | granted {c d : CarveOut} (like : c.Like pairs d) : Answers pairs t₁ t₂ (.ok c) (.ok d)
  | refused (e : MemoryError) : Answers pairs t₁ t₂ (.error e) (.error e)
  | passedOn {size : Nat} {alignment : Alignment} {e₁ e₂ : MemoryError}
    (left : (t₁.allocate size alignment).1 = .error e₁) (right : (t₂.allocate size alignment).1 = .error e₂) :
    Answers pairs t₁ t₂ (.error e₁) (.error e₂)

/-- What twins answer when they take a range back. -/
inductive CarveOut.Replies : Except MemoryError Unit → Except MemoryError Unit → Prop where
  | done : Replies (.ok ()) (.ok ())
  | refused {e e' : MemoryError} (like : e.Like e') : Replies (.error e) (.error e')

open CarveOut (Answers Replies)

/-- Handles of matched blocks belong to matched blocks, or neither does. -/
theorem Pairing.Between.owned_iff (h : pairs.Between t₁ t₂) {c d : CarveOut} (hlike : c.Like pairs d)
    {base base' : Block} (hbase : (base.id, base'.id) ∈ pairs) :
    c.block.id = base.id ↔ d.block.id = base'.id :=
  h.oneToOne _ hlike.block _ hbase

/-- So a check for that passes both, or refuses both alike. -/
theorem Pairing.Between.requireOwned (h : pairs.Between t₁ t₂) {c d : CarveOut} (hlike : c.Like pairs d)
    {base base' : Block} (hbase : (base.id, base'.id) ∈ pairs) :
    (c.requireOwned base = .ok () ∧ d.requireOwned base' = .ok ()) ∨
      ∃ e e' : MemoryError, e.Like e' ∧ c.requireOwned base = .error e ∧ d.requireOwned base' = .error e' := by
  have howned := h.owned_iff hlike hbase
  unfold CarveOut.requireOwned
  by_cases hid : c.block.id = base.id
  · exact .inl ⟨if_pos hid, if_pos (howned.mp hid)⟩
  · refine .inr ⟨_, _, ?_, if_neg hid, if_neg fun hid' => hid (howned.mpr hid')⟩
    rw [hlike.offset]
    exact .notOwned _ _ _

/-! ## Regions of buddies -/

namespace Buddy

/-- The other region has another block and another tally. -/
inductive Twin (pairs : Pairing) (b : Buddy) : Buddy → Prop where
  | intro (base : Block) (tally : Tally) (paired : (b.base.id, base.id) ∈ pairs) :
    Twin pairs b { b with base, tally }

variable {b b' : Buddy}

theorem Twin.mono (h : b.Twin pairs b') (hs : pairs ⊆ more) : b.Twin more b' := by
  cases h with
  | intro base tally paired => exact .intro base tally (hs paired)

theorem Twin.allocate [Heap H₁] [Heap H₂] (h : b.Twin pairs b') (t₁ : Tracker H₁) (t₂ : Tracker H₂)
    (size : Nat) : Answers pairs t₁ t₂ (b.allocate size).1 (b'.allocate size).1 ∧
      (b.allocate size).2.Twin pairs (b'.allocate size).2 := by
  cases h with
  | intro base tally paired =>
    simp only [Buddy.allocate]
    unfold Buddy.carve
    split
    · exact ⟨.refused _, .intro _ _ paired⟩
    · simp only
      split
      · exact ⟨.refused _, .intro _ _ paired⟩
      · exact ⟨.granted ⟨paired, rfl, rfl, rfl⟩, .intro _ _ paired⟩

theorem Twin.release (h : b.Twin pairs b') (hp : pairs.Between t₁ t₂) {c d : CarveOut}
    (hlike : c.Like pairs d) :
    Replies (b.release c).1 (b'.release d).1 ∧ (b.release c).2.Twin pairs (b'.release d).2 := by
  cases h with
  | intro base tally paired =>
    unfold Buddy.release
    rcases hp.requireOwned hlike paired with ⟨hc, hd⟩ | ⟨e, e', he, hc, hd⟩
    · rw [hc, hd]
      simp only [hlike.offset]
      split
      · exact ⟨.refused (.refl _), .intro _ _ paired⟩
      · exact ⟨.done, .intro _ _ paired⟩
    · rw [hc, hd]
      exact ⟨.refused he, .intro _ _ paired⟩

/-- Chunks that come back change nothing but the free ones. -/
theorem foldl_giveBack (b : Buddy) (cs : List Chunk) :
    cs.foldl giveBack b =
      { b with free := cs.foldl (fun free c => Chunk.merge (b.maxOrder - c.order) c free) b.free } := by
  induction cs generalizing b with
  | nil => rfl
  | cons c cs ih => exact ih (b.giveBack c)

theorem Twin.reset (h : b.Twin pairs b') : b.reset.Twin pairs b'.reset := by
  cases h with
  | intro base tally paired =>
    unfold Buddy.reset
    simp only [foldl_giveBack]
    exact .intro _ _ paired

end Buddy

/-! ## Rings -/

namespace RingBuffer

/-- The other ring has another block and another tally. -/
inductive Twin (pairs : Pairing) (r : RingBuffer) : RingBuffer → Prop where
  | intro (base : Block) (tally : Tally) (paired : (r.base.id, base.id) ∈ pairs) :
    Twin pairs r { r with base, tally }

variable {r r' : RingBuffer}

theorem Twin.allocate [Heap H₁] [Heap H₂] (h : r.Twin pairs r') (t₁ : Tracker H₁) (t₂ : Tracker H₂)
    (size : Nat) : Answers pairs t₁ t₂ (r.allocate size).1 (r'.allocate size).1 ∧
      (r.allocate size).2.Twin pairs (r'.allocate size).2 := by
  cases h with
  | intro base tally paired =>
    have hroom : RingBuffer.available { r with base, tally } = r.available := rfl
    simp only [RingBuffer.allocate, RingBuffer.carve, hroom]
    split
    · exact ⟨.refused _, .intro _ _ paired⟩
    · split
      · exact ⟨.refused _, .intro _ _ paired⟩
      · exact ⟨.granted ⟨paired, rfl, rfl, rfl⟩, .intro _ _ paired⟩

theorem Twin.release (h : r.Twin pairs r') (hp : pairs.Between t₁ t₂) {c d : CarveOut}
    (hlike : c.Like pairs d) :
    Replies (r.release c).1 (r'.release d).1 ∧ (r.release c).2.Twin pairs (r'.release d).2 := by
  cases h with
  | intro base tally paired =>
    refine ⟨?_, .intro _ _ paired⟩
    unfold RingBuffer.release
    rcases hp.requireOwned hlike paired with ⟨hc, hd⟩ | ⟨e, e', he, hc, hd⟩
    · rw [hc, hd]
      exact .done
    · rw [hc, hd]
      exact .refused he

theorem Twin.reset (h : r.Twin pairs r') : r.reset.Twin pairs r'.reset := by
  cases h with
  | intro base tally paired => exact .intro _ _ paired

end RingBuffer

end TrackedHeap
