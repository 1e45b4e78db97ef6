import TrackedHeap.Proofs.Tracker.Copy

/-!
# What a comparison says

The difference of two lists of bytes is that of the first two bytes that differ, and none if there are none. Its sign
is their place in the order of words of a dictionary, with bytes as numbers from 0 to 255 for letters
(`Bytes.Compared`, `Bytes.compared`). A comparison of two blocks is the difference of what is read of them
(`Tracker.compare_of_reads`), so after a copy that leaves its source as it was, both sides compare as equal
(`Tracker.Copied.compare`).
-/

namespace TrackedHeap

namespace Bytes

variable {xs ys : List UInt8}

/-- The number says how two lists of bytes compare. -/
structure Compared (xs ys : List UInt8) (d : Int) : Prop where
  neg_iff : d < 0 ↔ xs < ys
  zero_iff : d = 0 ↔ xs = ys
  pos_iff : 0 < d ↔ ys < xs
  /-- The first bytes that differ settle it. -/
  first : ∀ (before : List UInt8) (x y : UInt8) (rest rest' : List UInt8), xs = before ++ x :: rest →
    ys = before ++ y :: rest' → x ≠ y → d = (x.toNat : Int) - (y.toNat : Int)

theorem difference_self (xs : List UInt8) : difference xs xs = 0 := by
  induction xs with
  | nil => rfl
  | cons x xs ih => rw [difference, if_pos rfl, ih]

theorem difference_comm (xs ys : List UInt8) : difference ys xs = -difference xs ys := by
  induction xs generalizing ys with
  | nil => cases ys <;> rfl
  | cons x xs ih =>
    cases ys with
    | nil => rfl
    | cons y ys =>
      by_cases hxy : x = y
      · rw [difference, difference, if_pos hxy, if_pos hxy.symm, ih]
      · rw [difference, difference, if_neg hxy, if_neg (Ne.symm hxy)]
        omega

/-- Of two lists of one length, the one that is less is the one that comes first. -/
theorem difference_neg_iff (h : xs.length = ys.length) : difference xs ys < 0 ↔ xs < ys := by
  induction xs generalizing ys with
  | nil =>
    cases List.length_eq_zero_iff.mp h.symm
    simp [difference]
  | cons x xs ih =>
    obtain ⟨y, ys, rfl⟩ := List.exists_cons_of_length_eq_add_one h.symm
    have hrest := ih (Nat.succ.inj h)
    rw [List.cons_lt_cons_iff, difference, UInt8.lt_iff_toNat_lt]
    by_cases hxy : x = y
    · simp [hxy, hrest]
    · rw [if_neg hxy]
      simp only [hxy, false_and, or_false]
      omega

theorem difference_eq_zero_iff (h : xs.length = ys.length) : difference xs ys = 0 ↔ xs = ys := by
  refine ⟨fun hzero => ?_, fun heq => heq ▸ difference_self xs⟩
  have hback := difference_comm xs ys
  apply List.le_antisymm
  · show ¬ ys < xs
    rw [← difference_neg_iff h.symm]
    omega
  · show ¬ xs < ys
    rw [← difference_neg_iff h]
    omega

theorem difference_append (before : List UInt8) {x y : UInt8} (hxy : x ≠ y) (rest rest' : List UInt8) :
    difference (before ++ x :: rest) (before ++ y :: rest') = (x.toNat : Int) - (y.toNat : Int) := by
  induction before with
  | nil => exact if_neg hxy
  | cons b before ih => exact (if_pos rfl).trans ih

theorem compared (h : xs.length = ys.length) : Compared xs ys (difference xs ys) where
  neg_iff := difference_neg_iff h
  zero_iff := difference_eq_zero_iff h
  pos_iff := by
    rw [← difference_neg_iff h.symm, difference_comm]
    omega
  first before x y rest rest' hx hy hxy := by
    rw [hx, hy]
    exact difference_append before hxy rest rest'

end Bytes

namespace Tracker

variable {H : Type} [Heap H] {t t' : Tracker H} {left right source target : Block} {offset offset' length : Nat}

theorem compare_of_reads {x y : List UInt8} (hx : t.read left offset length = .ok x)
    (hy : t.read right offset' length = .ok y) :
    t.compare left offset right offset' length = .ok (Bytes.difference x y) := by
  revert hx hy
  rw [read_eq, read_eq, compare_eq]
  cases t.locate left offset length with
  | error e => exact fun hx => by cases hx
  | ok start =>
    cases t.locate right offset' length with
    | error e => exact fun _ hy => by cases hy
    | ok start' =>
      intro hx hy
      cases hx
      cases hy
      rfl

/-- Bytes within a live block can be read. -/
theorem Guarded.exists_read (h : t.Guarded) (hr : t.Reaches left offset length) :
    ∃ bytes, t.read left offset length = .ok bytes ∧ bytes.length = length := by
  have hgranted := h.read left offset length
  rw [(h.granted left offset length).mpr hr] at hgranted
  rw [read_eq] at hgranted ⊢
  cases hl : t.locate left offset length with
  | error e =>
    rw [hl] at hgranted
    cases hgranted
  | ok start => exact ⟨_, rfl, Memory.length_read _ _ _⟩

/-- The two sides of a copy compare as equal, if the copy did not write over its source. -/
theorem Copied.compare (h : t.Copied t' source offset target offset' length .plain)
    (hd : source.id ≠ target.id ∨ offset + length ≤ offset' ∨ offset' + length ≤ offset) :
    t'.compare source offset target offset' length = .ok 0 := by
  obtain ⟨bytes, hsource, htarget⟩ := h.arrived
  have hkept := (h.kept source offset length hd).trans hsource
  rw [compare_of_reads hkept htarget]
  exact congrArg Except.ok (Bytes.difference_self bytes)

end Tracker

end TrackedHeap
