import Mathlib.Data.List.Nodup
import TrackedHeap.Heap.Extent
import TrackedHeap.Memory

/-!
# Ranges that share no byte

When ranges are apart, when one lies inside another, and when two memories agree on one. A list of
outstanding ranges in which every start occurs once (`Extent.Ledger`) stays one whatever is granted and
taken back.
-/

namespace TrackedHeap

namespace Extent

/-- The ranges share no byte. -/
def Apart (d e : Extent) : Prop :=
  d.start + d.size ≤ e.start ∨ e.start + e.size ≤ d.start

/-- The `length` bytes from `start` on lie inside the range. -/
def Covers (e : Extent) (start length : Nat) : Prop :=
  e.start ≤ start ∧ start + length ≤ e.start + e.size

/-- The range is not at address 0, ends inside the address space, and is apart from those granted. -/
structure Fresh (granted : Extent → Prop) (e : Extent) : Prop where
  start_pos : 0 < e.start
  fits : e.start + e.size ≤ Word.limit
  apart : ∀ d, granted d → d.Apart e

/-- Two memories have the same bytes in the range. -/
def SameBytes (e : Extent) (m m' : Memory) : Prop :=
  ∀ a, e.start ≤ a → a < e.start + e.size → m' a = m a

theorem Apart.symm {d e : Extent} (h : d.Apart e) : e.Apart d :=
  Or.symm h

/-- A range with a byte in it is not apart from itself. -/
theorem Apart.ne {d e : Extent} (h : d.Apart e) (hd : 0 < d.size) : d ≠ e := by
  rintro rfl
  unfold Apart at h
  omega

/-- Ranges that are apart and not empty start at different places. -/
theorem Apart.start_ne {d e : Extent} (h : d.Apart e) (hd : 0 < d.size) (he : 0 < e.size) :
    d.start ≠ e.start := by
  unfold Apart at h
  omega

theorem SameBytes.refl (e : Extent) (m : Memory) : e.SameBytes m m :=
  fun _ _ _ => rfl

theorem SameBytes.trans {e : Extent} {m₁ m₂ m₃ : Memory} (h : e.SameBytes m₁ m₂)
    (h' : e.SameBytes m₂ m₃) : e.SameBytes m₁ m₃ :=
  fun a ha ha' => (h' a ha ha').trans (h a ha ha')

/-- A range inside one that is apart from `e` is apart from `e`. -/
theorem Apart.of_covers {d e : Extent} (h : d.Apart e) {start length : Nat}
    (hc : d.Covers start length) : Apart ⟨start, length⟩ e := by
  unfold Apart Covers at *
  simp only
  omega

/-! ## Lists of outstanding ranges -/

/-- Every start occurs once, and no range is empty. -/
structure Ledger (extents : List Extent) : Prop where
  starts : (extents.map start).Nodup
  size_pos : ∀ e ∈ extents, 0 < e.size

theorem mem_insert {extents : List Extent} {start size : Nat} {e : Extent} :
    e ∈ insert extents start size ↔ e = ⟨start, size⟩ ∨ e ∈ extents ∧ e.start ≠ start := by
  rw [insert, List.mem_cons, mem_without]

namespace Ledger

variable {extents : List Extent} {d : Extent}

theorem nil : Ledger [] where
  starts := List.nodup_nil
  size_pos := by simp

theorem nodup (h : Ledger extents) : extents.Nodup :=
  List.Nodup.of_map start h.starts

theorem eq_of_start (h : Ledger extents) (hd : d ∈ extents) {e : Extent} (he : e ∈ extents)
    (hs : d.start = e.start) : d = e :=
  List.inj_on_of_nodup_map h.starts hd he hs

theorem without (h : Ledger extents) (start : Nat) : Ledger (without extents start) where
  starts := h.starts.sublist ((List.filter_sublist).map _)
  size_pos e he := h.size_pos e (mem_without.mp he).1

theorem insert (h : Ledger extents) {size : Nat} (start : Nat) (hsize : 0 < size) :
    Ledger (insert extents start size) where
  starts := by
    refine List.nodup_cons.mpr ⟨fun hs => ?_, (h.without start).starts⟩
    obtain ⟨e, he, hes⟩ := List.mem_map.mp hs
    exact (mem_without.mp he).2 hes
  size_pos e he := by
    rcases mem_insert.mp he with rfl | ⟨he, -⟩
    · exact hsize
    · exact h.size_pos e he

/-- One more range, apart from the others. -/
theorem cons (h : Ledger extents) {start size : Nat} (hsize : 0 < size)
    (ha : ∀ e ∈ extents, e.Apart ⟨start, size⟩) : Ledger (⟨start, size⟩ :: extents) where
  starts := by
    refine List.nodup_cons.mpr ⟨fun hs => ?_, h.starts⟩
    obtain ⟨e, he, heq⟩ := List.mem_map.mp hs
    exact (ha e he).start_ne (h.size_pos e he) hsize heq
  size_pos := List.forall_mem_cons.mpr ⟨hsize, h.size_pos⟩

/-- The range at a start is the one that goes. -/
theorem mem_without_iff (h : Ledger extents) (hd : d ∈ extents) (e : Extent) :
    e ∈ Extent.without extents d.start ↔ e ∈ extents ∧ e ≠ d := by
  rw [mem_without]
  exact and_congr_right fun he => not_congr ⟨h.eq_of_start he hd, congrArg start⟩

/-- A new range that is apart from the others replaces none. -/
theorem mem_insert_iff (h : Ledger extents) {start size : Nat} (hsize : 0 < size)
    (ha : ∀ e ∈ extents, e.Apart ⟨start, size⟩) (e : Extent) :
    e ∈ Extent.insert extents start size ↔ e = ⟨start, size⟩ ∨ e ∈ extents := by
  refine mem_insert.trans (or_congr_right ⟨And.left, fun he => ⟨he, ?_⟩⟩)
  exact (ha e he).start_ne (h.size_pos e he) hsize

theorem sizeAt?_eq (h : Ledger extents) {start size : Nat} (hd : ⟨start, size⟩ ∈ extents) :
    sizeAt? extents start = some size := by
  unfold sizeAt?
  cases hf : extents.find? fun e => e.start == start with
  | none => exact absurd (List.find?_eq_none.mp hf _ hd) (by simp)
  | some e =>
    have he : e.start = start := by simpa using List.find?_some hf
    rw [h.eq_of_start (List.mem_of_find?_eq_some hf) hd he, Option.map_some]

end Ledger

end Extent

end TrackedHeap
