import Mathlib.Data.Nat.ModEq
import Mathlib.Data.Set.Card
import Mathlib.Order.Bounds.Basic
import TrackedHeap.Proofs.Heap.Footprint
import TrackedHeap.Proofs.Tracker.NonNull
import TrackedHeap.Proofs.Tracker.Turnover

/-!
# The totals of a tracker

The totals are kept beside the table of live blocks and changed by what each operation adds or takes away,
with arithmetic that goes round at the width of a word. They agree with the table (`Usage.Tallies`) because
the bytes that are held never reach that width: ranges that share no byte and are not at address 0 have less
than an address space of bytes (`Layout.sum_paddedSize_lt`). Each change of the table keeps the agreement,
so every step does (`Step.tallies`), and every run (`Tracker.tallies_run`).

The peak follows from that: an operation leaves it or raises it to what is held then (`Tracker.peak_act`),
so it is the most that was held after any of the operations so far (`Tracker.isGreatest_peak`).
-/

namespace TrackedHeap

theorem Word.subWrap_of_modEq {a b c : Nat} (h : a ≡ b + c [MOD limit]) (hc : c < limit) :
    subWrap a b = c := by
  unfold subWrap Nat.ModEq limit at *
  omega

namespace Usage

/-- The totals of a tracker that holds as many bytes. -/
structure Tallies (u : Usage) (held : Nat) : Prop where
  current : u.current = held
  net : u.allocated ≡ u.freed + held [MOD Word.limit]
  le_peak : held ≤ u.peak

namespace Tallies

variable {u : Usage} {held : Nat}

theorem add (h : u.Tallies held) {size : Nat} (hlt : held + size < Word.limit) :
    (u.add size).Tallies (held + size) := by
  have hcurrent : (u.add size).current = held + size := by
    show Word.addWrap u.current size = held + size
    rw [h.current]
    exact Word.addWrap_eq hlt
  refine ⟨hcurrent, ?_, ?_⟩
  · show Word.addWrap u.allocated size ≡ u.freed + (held + size) [MOD Word.limit]
    calc Word.addWrap u.allocated size
      _ ≡ u.allocated + size [MOD Word.limit] := Nat.mod_modEq _ _
      _ ≡ u.freed + held + size [MOD Word.limit] := h.net.add_right size
      _ = u.freed + (held + size) := Nat.add_assoc ..
  · show held + size ≤ max u.peak (u.add size).current
    rw [hcurrent]
    exact Nat.le_max_right _ _

theorem remove (h : u.Tallies held) {size : Nat} (hle : size ≤ held) (hlt : held < Word.limit) :
    (u.remove size).Tallies (held - size) := by
  refine ⟨?_, ?_, Nat.le_trans (Nat.sub_le _ _) h.le_peak⟩
  · show Word.subWrap u.current size = held - size
    rw [h.current]
    exact Word.subWrap_eq hle hlt
  · show u.allocated ≡ Word.addWrap u.freed size + (held - size) [MOD Word.limit]
    have hfreed : Word.addWrap u.freed size ≡ u.freed + size [MOD Word.limit] := Nat.mod_modEq _ _
    calc u.allocated
      _ ≡ u.freed + held [MOD Word.limit] := h.net
      _ = u.freed + size + (held - size) := by omega
      _ ≡ Word.addWrap u.freed size + (held - size) [MOD Word.limit] :=
        (hfreed.add_right _).symm

/-- A range of `old` bytes among those held has become one of `new` bytes. -/
theorem resize (h : u.Tallies held) {old new : Nat} (hle : old ≤ held) (hlt : held < Word.limit)
    (hlt' : held - old + new < Word.limit) : (u.resize old new).Tallies (held - old + new) := by
  unfold Usage.resize
  split
  · next hgrow =>
    have hsum : held - old + new = held + (new - old) := by omega
    rw [hsum] at hlt' ⊢
    exact h.add hlt'
  · next hshrink =>
    have hsum : held - old + new = held - (old - new) := by omega
    rw [hsum]
    exact h.remove (by omega) hlt

end Tallies

/-- Growth raises the peak to what is held then, and shrinkage leaves it. -/
theorem peak_resize (u : Usage) (old new : Nat) :
    (u.resize old new).peak = u.peak ∨
      (u.resize old new).peak = max u.peak (u.resize old new).current := by
  unfold Usage.resize
  split
  · exact .inr rfl
  · exact .inl rfl

end Usage

namespace Layout

variable {blocks : List Block} {nextId : Nat}

/-- Live blocks hold less than an address space. -/
theorem sum_paddedSize_lt (h : Layout blocks nextId) :
    (blocks.map Block.paddedSize).sum < Word.limit := by
  have hle : ((blocks.map Block.extent).map Extent.size).sum ≤ Word.limit - 1 := by
    refine Extent.sum_size_le (List.pairwise_map.mpr h.apart) fun e he => ?_
    obtain ⟨b, hb, rfl⟩ := List.mem_map.mp he
    exact ⟨(h.placed b hb).raw_pos, (h.placed b hb).fits⟩
  rw [List.map_map] at hle
  have hpos : 0 < Word.limit := by decide
  exact Nat.lt_of_le_of_lt hle (Nat.sub_lt hpos Nat.one_pos)

/-- A live block and the others are all live blocks. -/
theorem perm_cons_filter (h : Layout blocks nextId) {b : Block} (hb : b ∈ blocks) :
    blocks.Perm (b :: blocks.filter fun c => c.id != b.id) := by
  have hnodup : blocks.Nodup := List.Nodup.of_map _ h.nodup_ids
  have hfilter : (blocks.filter fun c => c.id != b.id) = blocks.erase b := by
    rw [hnodup.erase_eq_filter]
    refine List.filter_congr fun c hc => ?_
    rw [Bool.eq_iff_iff, bne_iff_ne, bne_iff_ne]
    exact not_congr ⟨h.eq_of_id hc hb, congrArg Block.id⟩
  rw [hfilter]
  exact List.perm_cons_erase hb

end Layout

namespace Tracker

variable {H : Type}

/-- The bytes of the heap that live blocks take. -/
def held (t : Tracker H) : Nat :=
  (t.blocks.map Block.paddedSize).sum

theorem held_concat {t : Tracker H} {rest : List Block} {block : Block}
    (h : t.blocks = rest ++ [block]) :
    t.held = (rest.map Block.paddedSize).sum + block.paddedSize := by
  unfold held
  rw [h, List.map_append, List.sum_append, List.map_singleton, List.sum_singleton]

variable [Heap H]

namespace WellFormed

variable [LawfulHeap H] {t t' : Tracker H}

theorem held_lt (h : t.WellFormed) : t.held < Word.limit :=
  h.layout.sum_paddedSize_lt

/-- A live block holds its share. -/
theorem held_eq (h : t.WellFormed) {b : Block} (hb : b ∈ t.blocks) :
    t.held = b.paddedSize + ((t.others b.id).map Block.paddedSize).sum := by
  have hperm := (h.layout.perm_cons_filter hb).map Block.paddedSize
  exact hperm.sum_eq

/-- As many ids are live as there are live blocks. -/
theorem ncard_live (h : t.WellFormed) : {id | (t.lookup id).isSome}.ncard = t.active := by
  have hset : {id | (t.lookup id).isSome} = ↑(t.blocks.map Block.id).toFinset := by
    ext id
    rw [Set.mem_ofPred_eq, isSome_lookup_iff, Finset.mem_coe, List.mem_toFinset]
  rw [hset, Set.ncard_coe_finset, List.toFinset_card_of_nodup h.layout.nodup_ids, List.length_map]
  rfl

/-- The totals follow the table. -/
theorem tallies_of_change (h : t.WellFormed) (h' : t'.WellFormed) (hc : Change t t')
    (hu : t.usage.Tallies t.held) : t'.usage.Tallies t'.held := by
  have hlt := h.held_lt
  have hlt' := h'.held_lt
  cases hc with
  | same hblocks hnext husage =>
    unfold held
    rw [hblocks, husage]
    exact hu
  | taken block hid hblocks hnext husage =>
    have hheld : t'.held = t.held + block.paddedSize := held_concat hblocks
    rw [husage, hheld]
    exact hu.add (hheld ▸ hlt')
  | returned block hlive hblocks hnext husage =>
    have hheld : t.held = block.paddedSize + t'.held := by
      rw [h.held_eq hlive, held, hblocks]
    have hrest : t'.held = t.held - block.paddedSize := by omega
    rw [husage, hrest]
    exact hu.remove (by omega) hlt
  | resized old block hlive hid hblocks hnext husage =>
    have hold := h.held_eq hlive
    have hheld := held_concat hblocks
    have hrest : t'.held = t.held - old.paddedSize + block.paddedSize := by omega
    rw [husage, hrest]
    exact hu.resize (by omega) hlt (by omega)

end WellFormed

theorem Step.tallies [LawfulHeap H] {t t' : Tracker H} (s : Step t t') (h : t.WellFormed)
    (hu : t.usage.Tallies t.held) : t'.usage.Tallies t'.held :=
  h.tallies_of_change (s.wellFormed h) s.change hu

theorem Steps.tallies [LawfulHeap H] {t t' : Tracker H} (s : Steps t t') (h : t.WellFormed)
    (hu : t.usage.Tallies t.held) : t'.usage.Tallies t'.held := by
  induction s with
  | refl => exact hu
  | tail before last ih => exact last.tallies (Steps.wellFormed before h) ih

open LawfulHeap (Sound Granted) in
/-- The totals after a run agree with the table of live blocks, also over a heap that may answer with the
address 0. -/
theorem tallies_run [LawfulHeap (NonNull H)] {heap : H} (hs : Sound (NonNull.mk heap))
    (hg : ∀ e, ¬ Granted (NonNull.mk heap) e) (budget : Option Nat) (acts : List Act) :
    let t := (ofHeap heap budget).run acts
    t.usage.Tallies t.held := by
  intro t
  have hstart : (ofHeap (NonNull.mk heap) budget).WellFormed := wellFormed_ofHeap hs hg
  have hzero : ({} : Usage).Tallies 0 := ⟨rfl, rfl, Nat.le_refl 0⟩
  have hview := (steps_run _ acts).tallies hstart hzero
  have heq : t.nonNull = (ofHeap (NonNull.mk heap) budget).run acts := run_nonNull _ acts
  rw [← heq] at hview
  exact hview

/-! ## The peak -/

theorem peak_returnAll (t : Tracker H) (blocks : List Block) :
    (t.returnAll blocks).usage.peak = t.usage.peak := by
  induction blocks generalizing t with
  | nil => rfl
  | cons block blocks ih =>
    refine (ih (t.free block).2).trans ?_
    fun_cases Tracker.free t block <;> rfl

omit [Heap H] in
/-- One step leaves the peak or raises it to what is held then. -/
theorem Change.peak {t t' : Tracker H} (h : Change t t') :
    t'.usage.peak = t.usage.peak ∨ t'.usage.peak = max t.usage.peak t'.usage.current := by
  cases h with
  | same hblocks hnext husage => exact .inl (by rw [husage])
  | taken block hid hblocks hnext husage =>
    rw [husage]
    exact .inr rfl
  | returned block hlive hblocks hnext husage =>
    rw [husage]
    exact .inl rfl
  | resized old block hlive hid hblocks hnext husage =>
    rw [husage]
    exact t.usage.peak_resize _ _

/-- So does an operation: one that returns everything never holds more on the way. -/
theorem peak_act (t : Tracker H) (a : Act) :
    (t.act a).2.usage.peak = t.usage.peak ∨
      (t.act a).2.usage.peak = max t.usage.peak (t.act a).2.usage.current := by
  by_cases hall : a = .freeAll
  · subst hall
    refine .inl ?_
    show t.freeAll.2.usage.peak = t.usage.peak
    rw [freeAll_eq_returnAll]
    exact t.peak_returnAll t.blocks
  · exact (t.step_act hall).change.peak

/-- The peak of a run is the most that was held after any of its operations, or before the first. -/
theorem isGreatest_peak {t : Tracker H} (hstart : t.usage.peak = t.usage.current)
    (hle : ∀ acts, (t.run acts).usage.current ≤ (t.run acts).usage.peak) (acts : List Act) :
    IsGreatest {n | ∃ past, past <+: acts ∧ (t.run past).usage.current = n}
      (t.run acts).usage.peak := by
  induction acts using List.reverseRecOn with
  | nil =>
    refine ⟨⟨[], List.prefix_refl _, hstart.symm⟩, ?_⟩
    rintro n ⟨past, hpast, rfl⟩
    rw [List.prefix_nil.mp hpast]
    exact hle []
  | append_singleton acts a ih =>
    obtain ⟨⟨most, hmost, hpeak⟩, hbound⟩ := ih
    have hraise := (t.run acts).peak_act a
    rw [← run_concat] at hraise
    have hgrows : (t.run acts).usage.peak ≤ (t.run (acts ++ [a])).usage.peak := by omega
    refine ⟨?_, ?_⟩
    · by_cases hkept : (t.run (acts ++ [a])).usage.peak = (t.run acts).usage.peak
      · exact ⟨most, hmost.trans (List.prefix_append _ _), by rw [hpeak, hkept]⟩
      · exact ⟨acts ++ [a], List.prefix_refl _, by omega⟩
    · rintro n ⟨past, hpast, rfl⟩
      rcases List.prefix_concat_iff.mp hpast with rfl | hpast
      · exact hle _
      · exact Nat.le_trans (hbound ⟨past, hpast, rfl⟩) hgrows

/-- What is reported does not depend on the heap. -/
theorem report_refused {t : Tracker H} {a : Act} {e : MemoryError} (h : (t.act a).1 = .error e) :
    (t.act a).2.report = t.report := by
  rw [act_refused h]
  rfl

end Tracker

end TrackedHeap
