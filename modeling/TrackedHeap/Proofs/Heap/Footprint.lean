import Mathlib.Algebra.GroupWithZero.Nat
import Mathlib.Data.Finset.Card
import Mathlib.Order.Interval.Finset.Nat
import TrackedHeap.Proofs.Heap.Extent

/-!
# How many bytes ranges have

The places of the bytes of some ranges are a finite set (`Extent.places`), and ranges that share no byte
have as many places as their sizes add up to (`Extent.card_places`). So the sizes add up to no more than
the size of a region that holds the ranges (`Extent.sum_size_le`), and to exactly that if they leave no
byte of it out (`Extent.sum_size_eq`).
-/

namespace TrackedHeap.Extent

/-- The places of the bytes of some ranges. -/
def places : List Extent → Finset Nat
  | [] => ∅
  | e :: es => Finset.Ico e.start (e.start + e.size) ∪ places es

theorem mem_places {es : List Extent} {x : Nat} :
    x ∈ places es ↔ ∃ e ∈ es, e.start ≤ x ∧ x < e.start + e.size := by
  induction es with
  | nil => simp [places]
  | cons e es ih =>
    rw [places, Finset.mem_union, Finset.mem_Ico, ih]
    simp only [List.mem_cons, exists_eq_or_imp]

/-- A range that is apart from others has no place with them. -/
theorem disjoint_places {e : Extent} {es : List Extent} (h : ∀ d ∈ es, e.Apart d) :
    Disjoint (Finset.Ico e.start (e.start + e.size)) (places es) := by
  refine Finset.disjoint_left.mpr fun x hx hxs => ?_
  obtain ⟨d, hd, hlo, hhi⟩ := mem_places.mp hxs
  have hapart := h d hd
  rw [Finset.mem_Ico] at hx
  unfold Apart at hapart
  omega

theorem card_places {es : List Extent} (h : es.Pairwise Apart) :
    (places es).card = (es.map size).sum := by
  induction es with
  | nil => rfl
  | cons e es ih =>
    obtain ⟨he, hes⟩ := List.pairwise_cons.mp h
    rw [places, Finset.card_union_of_disjoint (disjoint_places he), Nat.card_Ico, ih hes, List.map_cons,
      List.sum_cons, Nat.add_sub_cancel_left]

variable {es : List Extent} {lo hi : Nat}

/-- Ranges that share no byte have no more bytes than the region around them. -/
theorem sum_size_le (h : es.Pairwise Apart) (hin : ∀ e ∈ es, lo ≤ e.start ∧ e.start + e.size ≤ hi) :
    (es.map size).sum ≤ hi - lo := by
  have hsub : places es ⊆ Finset.Ico lo hi := by
    intro x hx
    obtain ⟨e, he, hlo, hhi⟩ := mem_places.mp hx
    have := hin e he
    rw [Finset.mem_Ico]
    omega
  have hcard := Finset.card_le_card hsub
  rwa [card_places h, Nat.card_Ico] at hcard

/-- Ranges that fill a region have as many bytes as the region. -/
theorem sum_size_eq (h : es.Pairwise Apart) (hin : ∀ e ∈ es, lo ≤ e.start ∧ e.start + e.size ≤ hi)
    (hfill : ∀ x, lo ≤ x → x < hi → ∃ e ∈ es, e.start ≤ x ∧ x < e.start + e.size) :
    (es.map size).sum = hi - lo := by
  have hsub : Finset.Ico lo hi ⊆ places es := by
    intro x hx
    rw [Finset.mem_Ico] at hx
    exact mem_places.mpr (hfill x hx.1 hx.2)
  have hcard := Finset.card_le_card hsub
  rw [card_places h, Nat.card_Ico] at hcard
  exact Nat.le_antisymm (sum_size_le h hin) hcard

end TrackedHeap.Extent
