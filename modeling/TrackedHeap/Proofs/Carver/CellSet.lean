import Mathlib.Data.List.Induction
import Mathlib.Data.Nat.Count
import Mathlib.Order.Bounds.Basic
import TrackedHeap.Proofs.Carver.Occupancy

/-!
# The bits of cells as a finite set

From the start on, when all bits are clear, the bits of the cells are the set of the cells that were set and not
cleared since (`Occupancy.cells`, `Occupancy.mem_cells_iff`), whatever the number of cells. What can be asked of the
bits is what the set answers: membership, the least cell that is missing, and the number of elements
(`Occupancy.Represents`, `Occupancy.run_represents`).

The count goes word by word. That it is the number of elements rests on bits past the last cell being clear
(`Occupancy.Within`), since the last word may be only partly in use.
-/

namespace TrackedHeap.Occupancy

/-- A change of one bit. -/
inductive Act where
  | set (index : Nat)
  | clear (index : Nat)
deriving DecidableEq

/-- The cell whose bit is changed. -/
def Act.index : Act → Nat
  | set index => index
  | clear index => index

/-- The bits after a change. -/
def act (o : Occupancy) : Act → Occupancy
  | .set index => o.set index
  | .clear index => o.clear index

/-- The bits after a list of changes. -/
def run (o : Occupancy) (acts : List Act) : Occupancy :=
  acts.foldl act o

/-- A set of cells after a change. -/
def Act.apply (s : Finset Nat) : Act → Finset Nat
  | set index => insert index s
  | clear index => s.erase index

/-- The cells that are set in the end, if none is at first. -/
def cells (acts : List Act) : Finset Nat :=
  acts.foldl Act.apply ∅

variable {o : Occupancy} {acts : List Act} {i : Nat}

theorem cells_concat (acts : List Act) (a : Act) : cells (acts ++ [a]) = a.apply (cells acts) :=
  List.foldl_concat ..

/-- A cell is set in the end if it was set at some time and not cleared since. -/
theorem mem_cells_iff :
    i ∈ cells acts ↔ ∃ past later, acts = past ++ .set i :: later ∧ .clear i ∉ later := by
  induction acts using List.reverseRecOn with
  | nil => simp [cells]
  | append_singleton acts a ih =>
    -- the last change is that of the cell itself, or the cell was set before it
    have hsplit : (∃ past later, acts ++ [a] = past ++ .set i :: later ∧ .clear i ∉ later) ↔
        a = .set i ∨ a ≠ .clear i ∧ i ∈ cells acts := by
      rw [ih]
      constructor
      · rintro ⟨past, later, he, hnot⟩
        rcases List.eq_nil_or_concat' later with rfl | ⟨later, b, rfl⟩
        · exact .inl (List.append_inj_right' he rfl |> List.singleton_inj.mp)
        · rw [← List.cons_append, ← List.append_assoc] at he
          obtain ⟨rfl, hb⟩ := List.append_inj' he rfl
          obtain rfl := List.singleton_inj.mp hb
          rw [List.mem_append, not_or, List.mem_singleton] at hnot
          exact .inr ⟨Ne.symm hnot.2, past, later, rfl, hnot.1⟩
      · rintro (rfl | ⟨hne, past, later, rfl, hnot⟩)
        · exact ⟨acts, [], rfl, List.not_mem_nil⟩
        · refine ⟨past, later ++ [a], by simp, ?_⟩
          rw [List.mem_append, not_or, List.mem_singleton]
          exact ⟨hnot, Ne.symm hne⟩
    rw [hsplit, cells_concat]
    cases a with
    | set j => simp [Act.apply, eq_comm]
    | clear j => simp [Act.apply, eq_comm]

/-! ## Counting the bits -/

theorem ones_eq_count (w : BitVec 64) : ones w = Nat.count (fun i => w.getLsbD i = true) 64 := by
  rw [Nat.count_eq_card_filter_range, ones]
  exact congrArg List.length (List.filter_congr fun _ _ => Bool.decide_eq_true.symm)

/-- The sum over words is the number of set bits in all of them. -/
theorem foldl_ones (ws : List (BitVec 64)) :
    ws.foldl (fun sum w => sum + ones w) 0 =
      Nat.count (fun i => (ws[i / 64]?.getD 0).getLsbD (i % 64) = true) (ws.length * 64) := by
  induction ws using List.reverseRecOn with
  | nil => simp
  | append_singleton ws w ih =>
    rw [List.foldl_concat, ih, ones_eq_count, List.length_append, List.length_singleton, Nat.succ_mul,
      Nat.count_add]
    simp only [Nat.count_eq_card_filter_range]
    refine congrArg₂ (· + ·) (congrArg Finset.card (Finset.filter_congr fun i hi => ?_))
      (congrArg Finset.card (Finset.filter_congr fun i hi => ?_))
    · have hlt : i / 64 < ws.length := by
        have := Finset.mem_range.mp hi
        omega
      rw [List.getElem?_append_left hlt]
    · have hbit : i < 64 := Finset.mem_range.mp hi
      have hword : (ws.length * 64 + i) / 64 = ws.length := by omega
      have hplace : (ws.length * 64 + i) % 64 = i := by omega
      rw [hword, hplace, List.getElem?_concat_length, Option.getD_some]

/-- Only bits of cells are set. -/
def Within (o : Occupancy) : Prop :=
  ∀ i, o.isSet i = true → i < o.len

theorem within_empty (len : Nat) : (empty len).Within := by
  intro i hset
  rw [isSet_empty] at hset
  cases hset

theorem Within.set (h : o.Within) (hf : o.Fits) (hi : i < o.len) : (o.set i).Within := by
  intro j hset
  rw [isSet_set hf hi, Bool.or_eq_true, decide_eq_true_eq] at hset
  rcases hset with rfl | hset
  · exact hi
  · exact h j hset

theorem Within.clear (h : o.Within) (hf : o.Fits) (hi : i < o.len) : (o.clear i).Within := by
  intro j hset
  rw [isSet_clear hf hi, Bool.and_eq_true] at hset
  exact h j hset.2

/-- The number of set bits is that of the taken cells. -/
theorem Within.count_eq (h : o.Within) (hf : o.Fits) : o.count = o.taken.card := by
  rw [count, ← Array.foldl_toList, foldl_ones, Nat.count_eq_card_filter_range, taken, Array.length_toList]
  refine congrArg Finset.card (Finset.ext fun i => ?_)
  have hword : (o.words.toList[i / 64]?.getD 0).getLsbD (i % 64) = o.isSet i := by
    rw [isSet, word, Array.getElem?_toList]
  rw [Finset.mem_filter, Finset.mem_filter, Finset.mem_range, Finset.mem_range, hword]
  refine and_congr_left fun hset => iff_of_true ?_ (h i hset)
  have hlt := hf.lt_size (h i hset)
  omega

/-- A bit of a word that is set is that of a cell. -/
theorem Within.lt_len (h : o.Within) {w : Nat} (hw : w < o.words.size) {k : Nat}
    (hset : o.words[w].getLsbD k = true) : w * 64 + k < o.len := by
  have hk : k < 64 := BitVec.lt_of_getLsbD hset
  refine h _ ?_
  have hword : (w * 64 + k) / 64 = w := by omega
  have hplace : (w * 64 + k) % 64 = k := by omega
  rw [isSet, word, hword, hplace, Array.getElem?_eq_getElem hw, Option.getD_some]
  exact hset

/-! ## The set of cells -/

/-- The bits are a set of cells. -/
structure Represents (o : Occupancy) (s : Finset Nat) : Prop where
  /-- Every cell has a word. -/
  size_eq : o.words.size = (o.len + 63) / 64
  isSet_iff : ∀ i < o.len, o.isSet i = true ↔ i ∈ s
  /-- What is found is the least cell that is missing. -/
  found_iff : ∀ i, o.firstClear = some i ↔ IsLeast {j | j < o.len ∧ j ∉ s} i
  none_iff : o.firstClear = none ↔ s = Finset.range o.len
  count_eq : o.count = s.card
  /-- Bits past the last cell are clear. -/
  lt_len : ∀ w (hw : w < o.words.size) k, o.words[w].getLsbD k = true → w * 64 + k < o.len

/-- Bits that fit their cells are the set of those that are taken. -/
theorem Within.represents (h : o.Within) (hf : o.Fits) : o.Represents o.taken where
  size_eq := hf
  isSet_iff i hi := by rw [mem_taken, and_iff_right hi]
  found_iff i := by
    have hmiss (j : Nat) : j < o.len ∧ j ∉ o.taken ↔ j < o.len ∧ o.isSet j = false := by
      rw [mem_taken, Bool.eq_false_iff]
      exact and_congr_right fun hj => not_congr (and_iff_right hj)
    rw [firstClear_eq_some_iff hf]
    constructor
    · rintro ⟨hlt, hclear, hset⟩
      refine ⟨(hmiss i).mpr ⟨hlt, hclear⟩, fun j hj => ?_⟩
      by_contra hji
      have hclear' := ((hmiss j).mp hj).2
      rw [hset j (Nat.lt_of_not_le hji)] at hclear'
      cases hclear'
    · rintro ⟨hmem, hleast⟩
      obtain ⟨hlt, hclear⟩ := (hmiss i).mp hmem
      refine ⟨hlt, hclear, fun j hj => ?_⟩
      by_contra hnot
      have hj' := (hmiss j).mpr ⟨Nat.lt_trans hj hlt, Bool.eq_false_iff.mpr hnot⟩
      exact Nat.not_le_of_lt hj (hleast hj')
  none_iff := by
    rw [firstClear_eq_none_iff hf, taken, Finset.filter_eq_self]
    exact forall_congr' fun i => by rw [Finset.mem_range]
  count_eq := h.count_eq hf
  lt_len _ hw _ := h.lt_len hw

/-- One change keeps what a run rests on, and does to the set of taken cells what it does to any. -/
theorem Within.act (h : o.Within) (hf : o.Fits) {a : Act} (ha : a.index < o.len) :
    (o.act a).len = o.len ∧ (o.act a).Fits ∧ (o.act a).Within ∧ (o.act a).taken = a.apply o.taken := by
  cases a with
  | set i => exact ⟨rfl, hf.set i, h.set hf ha, taken_set hf ha⟩
  | clear i => exact ⟨rfl, hf.clear i, h.clear hf ha, taken_clear hf ha⟩

theorem Within.run (h : o.Within) (hf : o.Fits) (ha : ∀ a ∈ acts, a.index < o.len) :
    (o.run acts).len = o.len ∧ (o.run acts).Fits ∧ (o.run acts).Within ∧
      (o.run acts).taken = acts.foldl Act.apply o.taken := by
  induction acts generalizing o with
  | nil => exact ⟨rfl, hf, h, rfl⟩
  | cons a acts ih =>
    obtain ⟨hlen, hf', h', htaken⟩ := h.act hf (ha a List.mem_cons_self)
    obtain ⟨hlen', hrest⟩ := ih h' hf' fun b hb => hlen.symm ▸ ha b (List.mem_cons_of_mem _ hb)
    rw [htaken] at hrest
    exact ⟨hlen'.trans hlen, hrest⟩

/-- After any changes of the bits of cells, of whatever number of cells, the bits are the set of the cells that were
set and not cleared since. -/
theorem run_represents (len : Nat) {acts : List Act} (ha : ∀ a ∈ acts, a.index < len) :
    let o := (empty len).run acts
    o.len = len ∧ o.Represents (cells acts) ∧
      ∀ i, i ∈ cells acts ↔ ∃ past later, acts = past ++ .set i :: later ∧ .clear i ∉ later := by
  intro o
  obtain ⟨hlen, hf, h, htaken⟩ := (within_empty len).run (fits_empty len) ha
  rw [taken_empty] at htaken
  have hrep : o.Represents o.taken := h.represents hf
  rw [show o.taken = cells acts from htaken] at hrep
  exact ⟨hlen, hrep, fun i => mem_cells_iff⟩

/-- Seventy cells, of which the first 65 are set and one of these is cleared: it is found, and the second word counts
for one. -/
theorem run_represents_two_words :
    let acts : List Act := (List.range 65).map .set ++ [.clear 3]
    let o := (empty 70).run acts
    o.Represents (cells acts) ∧ o.firstClear = some 3 ∧ o.count = 64 := by
  intro acts o
  have ha : ∀ a ∈ acts, a.index < 70 := by decide
  obtain ⟨-, hrep, -⟩ := run_represents 70 ha
  exact ⟨hrep, by decide +kernel, by decide +kernel⟩

end TrackedHeap.Occupancy
