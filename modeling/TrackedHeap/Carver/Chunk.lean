/-!
# Chunks

The ranges of a region that halving it leads to. A chunk of order `k` has `2 ^ k` bytes and is the
`index`th of its order, so it starts at a multiple of its size by construction. Two halves of one chunk
are buddies.

Chunks are ordered by order and then by place, so that the first of a sorted list at or above an order
is the lowest of the smallest.
-/

namespace TrackedHeap

/-- The `index`th range of `2 ^ order` bytes of a region. -/
structure Chunk where
  order : Nat
  index : Nat
deriving DecidableEq, Repr

namespace Chunk

def size (c : Chunk) : Nat :=
  1 <<< c.order

/-- The place of the first byte. -/
def offset (c : Chunk) : Nat :=
  c.index * c.size

/-- The other half of the chunk that this one is a half of. -/
def buddy (c : Chunk) : Chunk where
  order := c.order
  index := if c.index % 2 = 0 then c.index + 1 else c.index - 1

/-- The chunk that this one is a half of. -/
def parent (c : Chunk) : Chunk where
  order := c.order + 1
  index := c.index / 2

/-- The first half. -/
def lower (c : Chunk) : Chunk where
  order := c.order - 1
  index := 2 * c.index

/-- The second half. -/
def upper (c : Chunk) : Chunk where
  order := c.order - 1
  index := 2 * c.index + 1

/-- By order, then by place. -/
def precedes (c d : Chunk) : Bool :=
  c.order < d.order || (c.order == d.order && c.index < d.index)

/-- A sorted list with one more chunk. -/
def insert (c : Chunk) : List Chunk → List Chunk
  | [] => [c]
  | d :: ds => if c.precedes d then c :: d :: ds else d :: insert c ds

/-- The least order of a chunk of at least `size` bytes. -/
def orderFor (size : Nat) : Nat :=
  if size ≤ 1 then 0 else Nat.log2 (size - 1) + 1

/-- Halves a chunk as often as asked, and always keeps the first half. The second halves join the free
chunks. -/
def split : Nat → Chunk → List Chunk → Chunk × List Chunk
  | 0, c, free => (c, free)
  | n + 1, c, free => split n c.lower (c.upper.insert free)

/-- Adds a chunk to the free ones, joined with its buddy as long as that is free, but at most as often as
allowed. -/
def merge : Nat → Chunk → List Chunk → List Chunk
  | 0, c, free => c.insert free
  | n + 1, c, free =>
    if free.contains c.buddy then merge n c.parent (free.erase c.buddy) else c.insert free

theorem size_pos (c : Chunk) : 0 < c.size := by
  rw [size, Nat.one_shiftLeft]
  exact Nat.two_pow_pos c.order

/-- Of two buddies each is the other's. -/
theorem buddy_buddy (c : Chunk) : c.buddy.buddy = c := by
  obtain ⟨order, index⟩ := c
  simp only [buddy, Chunk.mk.injEq, true_and]
  split <;> split <;> omega

theorem mem_insert {c d : Chunk} {cs : List Chunk} : d ∈ insert c cs ↔ d = c ∨ d ∈ cs := by
  induction cs with
  | nil => simp [insert]
  | cons e es ih =>
    unfold insert
    split
    · simp
    · simp only [List.mem_cons, ih]
      exact ⟨fun h => by rcases h with h | h | h <;> simp [h],
        fun h => by rcases h with h | h | h <;> simp [h]⟩

/-- An order is enough for a size exactly when it is at least the least one. -/
theorem orderFor_le_iff {size order : Nat} : orderFor size ≤ order ↔ size ≤ 1 <<< order := by
  rw [Nat.one_shiftLeft]
  unfold orderFor
  split
  · have := Nat.two_pow_pos order
    omega
  · rw [Nat.succ_le_iff, Nat.log2_lt (by omega)]
    omega

end Chunk

end TrackedHeap
