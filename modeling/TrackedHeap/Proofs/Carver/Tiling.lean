import Mathlib.Algebra.Group.Nat.Defs
import Mathlib.Data.List.Pairwise
import TrackedHeap.Carver.Chunk
import TrackedHeap.Proofs.Heap.Extent

/-!
# Tilings by chunks

A byte lies in the chunk of order `k` whose index is the byte's place divided by `2 ^ k`
(`Chunk.has_iff`). So of two chunks that share a byte one lies inside the other (`Chunk.Has.mono`), and
halving a chunk and joining two buddies keep the bytes.

A list of chunks tiles a region if every byte of the region lies in exactly one of them (`Chunk.Tiles`).
Tilings survive halving (`Tiles.halve`) and joining (`Tiles.join`).
-/

namespace TrackedHeap

namespace Chunk

theorem size_eq (c : Chunk) : c.size = 2 ^ c.order :=
  Nat.one_shiftLeft c.order

/-- The bytes of the chunk. -/
def extent (c : Chunk) : Extent where
  start := c.offset
  size := c.size

/-- The byte lies in the chunk. -/
def Has (c : Chunk) (x : Nat) : Prop :=
  c.offset ≤ x ∧ x < c.offset + c.size

/-- All bytes of the chunk lie in a region of `2 ^ order` bytes. -/
def Inside (order : Nat) (c : Chunk) : Prop :=
  c.offset + c.size ≤ 2 ^ order

variable {c d : Chunk} {x y order : Nat}

theorem has_iff : c.Has x ↔ x / 2 ^ c.order = c.index := by
  have hpos := Nat.two_pow_pos c.order
  unfold Has offset
  rw [size_eq, Nat.div_eq_iff hpos]
  omega

theorem has_offset (c : Chunk) : c.Has c.offset :=
  ⟨Nat.le_refl _, Nat.lt_add_of_pos_right c.size_pos⟩

/-- A chunk with a byte of a chunk that is no larger has all bytes of it. -/
theorem Has.mono (hcd : c.order ≤ d.order) (hc : c.Has x) (hd : d.Has x) (hy : c.Has y) : d.Has y := by
  rw [has_iff] at *
  have hdiv (z : Nat) : z / 2 ^ d.order = z / 2 ^ c.order / 2 ^ (d.order - c.order) := by
    rw [Nat.div_div_eq_div_mul, ← Nat.pow_add, Nat.add_sub_cancel' hcd]
  rw [hdiv, hy, ← hc, ← hdiv, hd]

/-- Chunks of one order that share a byte are equal. -/
theorem eq_of_has (ho : c.order = d.order) (hc : c.Has x) (hd : d.Has x) : c = d := by
  rw [has_iff] at *
  obtain ⟨k, i⟩ := c
  obtain ⟨l, j⟩ := d
  simp only at ho hc hd
  rw [← hc, ← hd, ho]

/-- Chunks are apart if they have no byte in common. -/
theorem apart_iff : c.extent.Apart d.extent ↔ ∀ x, c.Has x → ¬ d.Has x := by
  have hc := c.size_pos
  have hd := d.size_pos
  simp only [Extent.Apart, extent, Has]
  constructor
  · intro h x
    omega
  · intro h
    have h₁ := h c.offset
    have h₂ := h d.offset
    omega

theorem not_apart_of_has (hc : c.Has x) (hd : d.Has x) : ¬ c.extent.Apart d.extent := fun h =>
  apart_iff.mp h x hc hd

/-- Chunks that are apart are different. -/
theorem ne_of_apart (h : c.extent.Apart d.extent) : c ≠ d := by
  rintro rfl
  exact not_apart_of_has c.has_offset c.has_offset h

/-! ## Halves and buddies -/

theorem has_parent : c.parent.Has x ↔ c.Has x ∨ c.buddy.Has x := by
  simp only [has_iff, parent, buddy]
  rw [Nat.pow_succ, ← Nat.div_div_eq_div_mul]
  split <;> omega

theorem not_has_buddy (h : c.Has x) : ¬ c.buddy.Has x := by
  rw [has_iff] at *
  simp only [buddy]
  split <;> omega

theorem buddy_ne (c : Chunk) : c.buddy ≠ c := fun he =>
  not_has_buddy c.has_offset (by rw [he]; exact c.has_offset)

theorem parent_lower (h : 0 < c.order) : c.lower.parent = c := by
  obtain ⟨k, i⟩ := c
  simp only [parent, lower, Chunk.mk.injEq] at *
  omega

theorem buddy_lower (c : Chunk) : c.lower.buddy = c.upper := by
  simp [buddy, lower, upper]

theorem buddy_upper (c : Chunk) : c.upper.buddy = c.lower := by
  rw [← buddy_lower, buddy_buddy]

theorem has_halves (h : 0 < c.order) : c.Has x ↔ c.lower.Has x ∨ c.upper.Has x := by
  rw [← buddy_lower, ← has_parent, parent_lower h]

/-! ## Chunks of a region -/

theorem Inside.order_le (h : c.Inside order) : c.order ≤ order := by
  have hle : c.size ≤ 2 ^ order := Nat.le_trans (Nat.le_add_left _ _) h
  rw [size_eq] at hle
  exact (Nat.pow_le_pow_iff_right (by decide)).mp hle

theorem inside_iff : c.Inside order ↔ c.order ≤ order ∧ (Chunk.mk order 0).Has c.offset := by
  constructor
  · intro h
    refine ⟨h.order_le, ?_⟩
    have := c.size_pos
    simp only [Inside, Has, offset, size_eq] at *
    omega
  · rintro ⟨hle, htop⟩
    -- the last byte of the chunk lies in the region with the first
    have hlast : c.Has (c.offset + c.size - 1) := by
      have := c.size_pos
      unfold Has
      omega
    have := (Has.mono hle c.has_offset htop hlast).2
    have := c.size_pos
    simp only [Inside, offset, size_eq] at *
    omega

/-- The chunk that is the whole region is the only one of its order. -/
theorem Inside.eq_top (h : c.Inside order) (ho : c.order = order) : c = ⟨order, 0⟩ :=
  eq_of_has ho c.has_offset (inside_iff.mp h).2

theorem Inside.parent (h : c.Inside order) (ho : c.order < order) : c.parent.Inside order := by
  have htop := (inside_iff.mp h).2
  have hsub : (Chunk.mk order 0).Has c.parent.offset :=
    Has.mono (c := c.parent) ho (has_parent.mpr (.inl c.has_offset)) htop c.parent.has_offset
  exact inside_iff.mpr ⟨ho, hsub⟩

/-- A chunk that lies in one of a region lies in the region. -/
theorem Inside.of_has (h : d.Inside order) (ho : c.order ≤ d.order) (hd : d.Has c.offset) :
    c.Inside order := by
  obtain ⟨hle, htop⟩ := inside_iff.mp h
  exact inside_iff.mpr ⟨Nat.le_trans ho hle, Has.mono hle d.has_offset htop hd⟩

/-! ## Tilings -/

/-- Every byte of a region of `2 ^ order` bytes lies in exactly one of the chunks. -/
structure Tiles (order : Nat) (cs : List Chunk) : Prop where
  inside : ∀ c ∈ cs, c.Inside order
  apart : cs.Pairwise fun c d => c.extent.Apart d.extent
  covers : ∀ x < 2 ^ order, ∃ c ∈ cs, c.Has x

namespace Tiles

variable {cs ds : List Chunk}

theorem perm (h : Tiles order cs) (hp : cs.Perm ds) : Tiles order ds where
  inside c hc := h.inside c (hp.mem_iff.mpr hc)
  apart := (hp.pairwise_iff Extent.Apart.symm).mp h.apart
  covers x hx := by
    obtain ⟨c, hc, hcx⟩ := h.covers x hx
    exact ⟨c, hp.mem_iff.mp hc, hcx⟩

/-- The region in one piece. -/
theorem top (order : Nat) : Tiles order [⟨order, 0⟩] where
  inside c hc := by
    rw [List.mem_singleton.mp hc]
    simp [Inside, offset, size_eq]
  apart := List.pairwise_singleton ..
  covers x hx := ⟨_, List.mem_singleton_self _, by simpa [Has, offset, size_eq] using hx⟩

/-- The first chunk may be replaced by two that have its bytes between them. -/
theorem replace {c₁ c₂ : Chunk} (hin : c.Inside order → c₁.Inside order ∧ c₂.Inside order)
    (hhas : ∀ x, c.Has x ↔ c₁.Has x ∨ c₂.Has x) (hne : c₁.extent.Apart c₂.extent)
    (h : Tiles order (c :: cs)) : Tiles order (c₁ :: c₂ :: cs) := by
  obtain ⟨hcs, hpair⟩ := List.pairwise_cons.mp h.apart
  refine ⟨?_, ?_, fun x hx => ?_⟩
  · obtain ⟨h₁, h₂⟩ := hin (h.inside c List.mem_cons_self)
    simp only [List.forall_mem_cons]
    exact ⟨h₁, h₂, fun d hd => h.inside d (List.mem_cons_of_mem _ hd)⟩
  · simp only [List.pairwise_cons, List.forall_mem_cons]
    refine ⟨⟨hne, fun d hd => ?_⟩, fun d hd => ?_, hpair⟩ <;>
      refine apart_iff.mpr fun x hx => apart_iff.mp (hcs d hd) x ((hhas x).mpr ?_)
    · exact .inl hx
    · exact .inr hx
  · obtain ⟨d, hd, hdx⟩ := h.covers x hx
    rcases List.mem_cons.mp hd with rfl | hd
    · rcases (hhas x).mp hdx with hx | hx
      · exact ⟨c₁, by simp, hx⟩
      · exact ⟨c₂, by simp, hx⟩
    · exact ⟨d, by simp [hd], hdx⟩

/-- A chunk is halved. -/
theorem halve (h : Tiles order (c :: cs)) (ho : 0 < c.order) :
    Tiles order (c.lower :: c.upper :: cs) := by
  have hhas := fun x => has_halves (x := x) ho
  refine h.replace (fun hc => ⟨?_, ?_⟩) hhas (apart_iff.mpr fun x hx => ?_)
  · exact hc.of_has (Nat.sub_le _ _) ((hhas _).mpr (.inl c.lower.has_offset))
  · exact hc.of_has (Nat.sub_le _ _) ((hhas _).mpr (.inr c.upper.has_offset))
  · rw [← buddy_lower]
    exact not_has_buddy hx

/-- Two buddies are joined. -/
theorem join (h : Tiles order (c :: c.buddy :: cs)) (ho : c.order < order) :
    Tiles order (c.parent :: cs) := by
  obtain ⟨hc, hpair⟩ := List.pairwise_cons.mp h.apart
  obtain ⟨hb, hpair⟩ := List.pairwise_cons.mp hpair
  refine ⟨?_, ?_, fun x hx => ?_⟩
  · refine List.forall_mem_cons.mpr ⟨(h.inside c (by simp)).parent ho, fun d hd => ?_⟩
    exact h.inside d (by simp [hd])
  · refine List.pairwise_cons.mpr ⟨fun d hd => apart_iff.mpr fun x hx => ?_, hpair⟩
    rcases has_parent.mp hx with hx | hx
    · exact apart_iff.mp (hc d (List.mem_cons_of_mem _ hd)) x hx
    · exact apart_iff.mp (hb d hd) x hx
  · obtain ⟨d, hd, hdx⟩ := h.covers x hx
    simp only [List.mem_cons] at hd
    rcases hd with rfl | rfl | hd
    · exact ⟨_, List.mem_cons_self, has_parent.mpr (.inl hdx)⟩
    · exact ⟨_, List.mem_cons_self, has_parent.mpr (.inr hdx)⟩
    · exact ⟨d, List.mem_cons_of_mem _ hd, hdx⟩

/-- Two chunks that share a byte are one. -/
theorem eq_of_has (h : Tiles order cs) (hc : c ∈ cs) (hd : d ∈ cs) (hcx : c.Has x) (hdx : d.Has x) :
    c = d := by
  by_contra hne
  have : Std.Symm fun c d : Chunk => c.extent.Apart d.extent := ⟨fun _ _ => Extent.Apart.symm⟩
  exact not_apart_of_has hcx hdx (h.apart.forall hc hd hne)

end Tiles

end Chunk

end TrackedHeap
