import TrackedHeap.Carver.Buddy
import TrackedHeap.Heap.Bump
import TrackedHeap.Proofs.Carver.Coalesced

/-!
# The free chunks of a region of buddies

Whatever is asked of a region, in whatever order and with whatever handles, its free chunks are joined as
far as they can be (`Buddy.coalesced_run`). So the live chunks alone settle the free ones, and no history
shows in them (`Buddy.free_settled`).
-/

namespace TrackedHeap

namespace Chunk

theorem size_mk (order index : Nat) : (mk order index).size = 2 ^ order :=
  size_eq _

theorem offset_mk (order index : Nat) : (mk order index).offset = index * 2 ^ order := by
  rw [offset, size_mk]

/-- The larger range around a chunk, by its first byte. -/
theorem extent_parent (c : Chunk) :
    c.parent.extent = ⟨c.offset / 2 ^ (c.order + 1) * 2 ^ (c.order + 1), 2 ^ (c.order + 1)⟩ := by
  have hpos := Nat.two_pow_pos c.order
  have hdiv : c.offset / 2 ^ (c.order + 1) = c.index / 2 := by
    rw [Nat.pow_succ, ← Nat.div_div_eq_div_mul, offset, size_eq, Nat.mul_div_cancel _ hpos]
  simp only [extent, parent, offset_mk, size_mk, hdiv]

end Chunk

namespace Buddy

/-- What can be asked of a region. -/
inductive Act where
  | allocate (size : Nat)
  | release (handle : CarveOut)
  | reset

/-- The region after something was asked of it. -/
def act (b : Buddy) : Act → Buddy
  | .allocate size => (b.allocate size).2
  | .release handle => (b.release handle).2
  | .reset => b.reset

/-- The region after a run. -/
def run (b : Buddy) (acts : List Act) : Buddy :=
  acts.foldl act b

/-- The region after the chunks of handles came back, in their order. -/
def releaseAll (b : Buddy) (handles : List CarveOut) : Buddy :=
  handles.foldl (fun b handle => (b.release handle).2) b

/-- The free chunks are joined as far as they can be. -/
def Coalesced (b : Buddy) : Prop :=
  Chunk.Coalesced b.maxOrder b.free b.live

variable {b : Buddy}

theorem coalesced_ofBase (base : Block) (order : Nat) : (ofBase base order).Coalesced :=
  Chunk.Coalesced.top order

/-! ## One step -/

theorem Coalesced.carve (h : b.Coalesced) (size : Nat) : (b.carve size).2.Coalesced := by
  fun_cases Buddy.carve b size
  case case1 => exact h
  case case2 => exact h
  case case3 hsize order c hfind chunk free hsplit =>
    have hc : c ∈ b.free := List.mem_of_find?_eq_some hfind
    have hs := (Chunk.Coalesced.take h hc).split (Nat.sub_le c.order order)
    rwa [hsplit] at hs

theorem Coalesced.allocate (h : b.Coalesced) (size : Nat) : (b.allocate size).2.Coalesced :=
  h.carve size

theorem Coalesced.release (h : b.Coalesced) (handle : CarveOut) : (b.release handle).2.Coalesced := by
  fun_cases Buddy.release b handle
  case case1 => exact h
  case case2 => exact h
  case case3 howned c hfind =>
    have hc : c ∈ b.live := List.mem_of_find?_eq_some hfind
    exact (Chunk.Coalesced.perm_live h (List.perm_cons_erase hc)).merge rfl

/-- Chunks come back one after the other, in whatever order. -/
theorem coalesced_giveBack {cs live : List Chunk} (h : Chunk.Coalesced b.maxOrder b.free (cs ++ live)) :
    Chunk.Coalesced b.maxOrder (cs.foldl giveBack b).free live := by
  induction cs generalizing b with
  | nil => exact h
  | cons c cs ih => exact ih (b := b.giveBack c) (h.merge rfl)

theorem maxOrder_giveBack (cs : List Chunk) : (cs.foldl giveBack b).maxOrder = b.maxOrder := by
  induction cs generalizing b with
  | nil => rfl
  | cons c cs ih => exact ih

theorem Coalesced.reset (h : b.Coalesced) : b.reset.Coalesced := by
  have hall : Chunk.Coalesced b.maxOrder b.free (b.live ++ []) := by rwa [List.append_nil]
  unfold Coalesced
  rw [show b.reset.maxOrder = b.maxOrder from maxOrder_giveBack b.live]
  exact coalesced_giveBack hall

theorem Coalesced.act (h : b.Coalesced) (a : Act) : (b.act a).Coalesced := by
  cases a with
  | allocate size => exact h.allocate size
  | release handle => exact h.release handle
  | reset => exact h.reset

/-! ## Runs -/

theorem Coalesced.run (h : b.Coalesced) (acts : List Act) : (b.run acts).Coalesced := by
  induction acts generalizing b with
  | nil => exact h
  | cons a acts ih => exact ih (h.act a)

theorem Coalesced.releaseAll (h : b.Coalesced) (handles : List CarveOut) :
    (b.releaseAll handles).Coalesced := by
  induction handles generalizing b with
  | nil => exact h
  | cons handle handles ih => exact ih (h.release handle)

theorem maxOrder_allocate (b : Buddy) (size : Nat) : (b.allocate size).2.maxOrder = b.maxOrder := by
  show (b.carve size).2.maxOrder = b.maxOrder
  fun_cases Buddy.carve b size <;> rfl

theorem release_fixed (b : Buddy) (handle : CarveOut) :
    (b.release handle).2.maxOrder = b.maxOrder ∧ (b.release handle).2.base = b.base := by
  fun_cases Buddy.release b handle <;> exact ⟨rfl, rfl⟩

theorem maxOrder_act (b : Buddy) (a : Act) : (b.act a).maxOrder = b.maxOrder := by
  cases a with
  | allocate size => exact b.maxOrder_allocate size
  | release handle => exact (b.release_fixed handle).1
  | reset => exact maxOrder_giveBack b.live

theorem maxOrder_run (b : Buddy) (acts : List Act) : (b.run acts).maxOrder = b.maxOrder := by
  induction acts generalizing b with
  | nil => rfl
  | cons a acts ih => exact (ih _).trans (b.maxOrder_act a)

theorem maxOrder_releaseAll (b : Buddy) (handles : List CarveOut) :
    (b.releaseAll handles).maxOrder = b.maxOrder := by
  induction handles generalizing b with
  | nil => rfl
  | cons handle handles ih => exact (ih _).trans (b.release_fixed handle).1

/-! ## What is live -/

/-- The handle names the chunk. -/
def Names (b : Buddy) (handle : CarveOut) (c : Chunk) : Prop :=
  handle.block.id = b.base.id ∧ handle.offset = c.offset

/-- A chunk stays live unless the handle names it. -/
theorem mem_live_release (h : b.Coalesced) (handle : CarveOut) (c : Chunk) :
    c ∈ (b.release handle).2.live ↔ c ∈ b.live ∧ ¬ b.Names handle c := by
  fun_cases Buddy.release b handle
  case case1 e howned =>
    refine iff_self_and.mpr fun hc hn => ?_
    rw [CarveOut.requireOwned_eq_ok.mpr hn.1] at howned
    cases howned
  case case2 howned hfind =>
    refine iff_self_and.mpr fun hc hn => ?_
    simpa [hn.2] using List.find?_eq_none.mp hfind c hc
  case case3 howned d hfind =>
    have hd : d ∈ b.live := List.mem_of_find?_eq_some hfind
    have hdo : d.offset = handle.offset := by simpa using List.find?_some hfind
    have hnodup : b.live.Nodup := (Chunk.Coalesced.apart_live h).imp Chunk.ne_of_apart
    show c ∈ b.live.erase d ↔ _
    rw [hnodup.mem_erase_iff, and_comm]
    refine and_congr_right fun hc => not_congr ⟨?_, fun hn => ?_⟩
    · rintro rfl
      exact ⟨CarveOut.requireOwned_eq_ok.mp howned, hdo.symm⟩
    · exact Chunk.Coalesced.eq_of_offset h hc hd (hn.2.symm.trans hdo.symm)

/-- A chunk stays live unless one of the handles names it. -/
theorem mem_live_releaseAll (h : b.Coalesced) (handles : List CarveOut) (c : Chunk) :
    c ∈ (b.releaseAll handles).live ↔ c ∈ b.live ∧ ∀ handle ∈ handles, ¬ b.Names handle c := by
  induction handles generalizing b with
  | nil => simp [releaseAll]
  | cons handle handles ih =>
    have hbase := (b.release_fixed handle).2
    refine (ih (h.release handle)).trans ?_
    simp only [mem_live_release h, List.forall_mem_cons, Names, hbase]
    exact and_assoc

/-! ## The live chunks settle the free ones -/

theorem total_eq (b : Buddy) : b.total = 2 ^ b.maxOrder :=
  Nat.one_shiftLeft _

theorem isFreeAt_iff {k o : Nat} :
    b.isFreeAt k o = true ↔ 2 ^ k ∣ o ∧ Chunk.mk k (o / 2 ^ k) ∈ b.free := by
  have hpos := Nat.two_pow_pos k
  simp only [isFreeAt, List.any_eq_true, Bool.and_eq_true, beq_iff_eq]
  constructor
  · rintro ⟨⟨_, i⟩, hc, rfl, rfl⟩
    simp only [Chunk.offset_mk, Nat.mul_div_cancel i hpos]
    exact ⟨Nat.dvd_mul_left _ _, hc⟩
  · rintro ⟨hdvd, hc⟩
    exact ⟨_, hc, rfl, by rw [Chunk.offset_mk, Nat.div_mul_cancel hdvd]⟩

theorem Coalesced.isFreeAt_iff (h : b.Coalesced) (k o : Nat) :
    b.isFreeAt k o = true ↔
      2 ^ k ∣ o ∧ o + 2 ^ k ≤ b.total ∧ (∀ l ∈ b.live, Extent.Apart ⟨o, 2 ^ k⟩ l.extent) ∧
        (k = b.maxOrder ∨ ∃ l ∈ b.live,
          ¬ Extent.Apart ⟨o / 2 ^ (k + 1) * 2 ^ (k + 1), 2 ^ (k + 1)⟩ l.extent) := by
  rw [Buddy.isFreeAt_iff, total_eq]
  refine and_congr_right fun hdvd => ?_
  have hoff : (Chunk.mk k (o / 2 ^ k)).offset = o := by
    rw [Chunk.offset_mk, Nat.div_mul_cancel hdvd]
  rw [Chunk.Coalesced.mem_free_iff h, Chunk.extent_parent, Chunk.Inside, Chunk.extent, hoff,
    Chunk.size_mk]

/-- A new region is one block of the tracker, all of it free. -/
theorem make_ok {H : Type} [Heap H] {t t' : Tracker H} {total : Nat} {alignment : Alignment}
    (hm : make t total alignment = (.ok b, t')) :
    b = ofBase b.base (Chunk.orderFor total) ∧
      t.allocate (1 <<< Chunk.orderFor total) alignment = (.ok b.base, t') := by
  revert hm
  fun_cases Buddy.make t total alignment
  case case4 order base t₁ ha =>
    intro hm
    cases hm
    exact ⟨rfl, ha⟩
  all_goals exact fun hm => by cases hm

/-- A run from a new region. -/
theorem coalesced_run {H : Type} [Heap H] {t t' : Tracker H} {total : Nat} {alignment : Alignment}
    (hm : make t total alignment = (.ok b, t')) (acts : List Act) : (b.run acts).Coalesced := by
  rw [(make_ok hm).1]
  exact (coalesced_ofBase _ _).run acts

/-- A chunk is free exactly when no live chunk meets it and either it is the whole region or a live chunk
meets the range twice as large around it. So runs with the same live chunks in the end have the same free
chunks, the order of releases does not matter, neither in a reset, and without live chunks the region is
one free chunk. -/
theorem free_settled {H₁ H₂ : Type} [Heap H₁] [Heap H₂] {t₁ t₁' : Tracker H₁} {t₂ t₂' : Tracker H₂}
    {total : Nat} {alignment₁ alignment₂ : Alignment} {b₁ b₂ : Buddy}
    (h₁ : make t₁ total alignment₁ = (.ok b₁, t₁')) (h₂ : make t₂ total alignment₂ = (.ok b₂, t₂'))
    (acts₁ acts₂ : List Act) :
    let b := b₁.run acts₁
    let c := b₂.run acts₂
    (∀ k o, b.isFreeAt k o = true ↔
      2 ^ k ∣ o ∧ o + 2 ^ k ≤ b.total ∧ (∀ l ∈ b.live, Extent.Apart ⟨o, 2 ^ k⟩ l.extent) ∧
        (k = b.maxOrder ∨ ∃ l ∈ b.live,
          ¬ Extent.Apart ⟨o / 2 ^ (k + 1) * 2 ^ (k + 1), 2 ^ (k + 1)⟩ l.extent)) ∧
      ((∀ l, l ∈ b.live ↔ l ∈ c.live) → b.free = c.free) ∧
      (∀ handles handles' : List CarveOut, handles.Perm handles' →
        (b.releaseAll handles).free = (b.releaseAll handles').free) ∧
      (∀ order : List Chunk, order.Perm b.live → (order.foldl giveBack b).free = b.reset.free) ∧
      (b.live = [] → b.free = [⟨b.maxOrder, 0⟩]) := by
  intro b c
  have hb : b.Coalesced := coalesced_run h₁ acts₁
  have hc : c.Coalesced := coalesced_run h₂ acts₂
  have horder : c.maxOrder = b.maxOrder := by
    rw [b₂.maxOrder_run, b₁.maxOrder_run, (make_ok h₁).1, (make_ok h₂).1]
    rfl
  refine ⟨hb.isFreeAt_iff, fun hm => ?_, fun handles handles' hp => ?_, fun order hp => ?_, fun hnil => ?_⟩
  · unfold Coalesced at hb hc
    rw [horder] at hc
    exact hb.free_eq hc hm
  · have hl := hb.releaseAll handles
    have hr := hb.releaseAll handles'
    unfold Coalesced at hl hr
    rw [maxOrder_releaseAll] at hl hr
    refine hl.free_eq hr fun l => ?_
    rw [mem_live_releaseAll hb, mem_live_releaseAll hb]
    simp only [hp.mem_iff]
  · have hall : Chunk.Coalesced b.maxOrder b.free (b.live ++ []) := by rwa [List.append_nil]
    exact (coalesced_giveBack (hall.perm_live (hp.symm.append_right []))).free_eq
      (coalesced_giveBack hall) fun _ => Iff.rfl
  · unfold Coalesced at hb
    rw [hnil] at hb
    exact hb.free_eq (Chunk.Coalesced.top b.maxOrder) fun _ => Iff.rfl

/-- Two histories of 64 bytes that end with 16 bytes live at 16: a chunk of 8 bytes taken and given back
before or after, and a reset on the way. -/
theorem free_settled_histories :
    let base := Block.place 1 65536 64 64 .byte 0
    let early := (ofBase base 6).run
      [.allocate 5, .allocate 16, .release ⟨base, 0, 8, 5⟩, .release ⟨base, 3, 8, 5⟩]
    let late := (ofBase base 6).run
      [.allocate 40, .reset, .allocate 10, .allocate 9, .release ⟨base, 0, 16, 10⟩]
    early.live = [⟨4, 1⟩] ∧ early.free = [⟨4, 0⟩, ⟨5, 1⟩] ∧ early.free = late.free := by
  intro base early late
  have hm : make (.ofHeap (BumpHeap.ofPlan { }) none) 64 .byte =
      (.ok (ofBase base 6), (Tracker.allocate (.ofHeap (BumpHeap.ofPlan { }) none) 64 .byte).2) := rfl
  obtain ⟨-, hsame, -⟩ := free_settled hm hm
    [.allocate 5, .allocate 16, .release ⟨base, 0, 8, 5⟩, .release ⟨base, 3, 8, 5⟩]
    [.allocate 40, .reset, .allocate 10, .allocate 9, .release ⟨base, 0, 16, 10⟩]
  have hlive : early.live = late.live := by decide +kernel
  refine ⟨by decide +kernel, by decide +kernel, hsame fun l => ?_⟩
  show l ∈ early.live ↔ l ∈ late.live
  rw [hlive]

end Buddy

end TrackedHeap
