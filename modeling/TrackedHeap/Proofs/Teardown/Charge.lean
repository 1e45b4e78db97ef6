import TrackedHeap.Proofs.Carver.Construction
import TrackedHeap.Proofs.Teardown.Tidy
import TrackedHeap.Proofs.Workspace.Waiting

/-!
# Carvers that leave no block behind

A carver is tidy with the blocks that go back to the tracker when it is done with (`Carver.charge_stock`), and
with those of them that clients never have as a whole (`Carver.charge_base`). An object pool has none of the
latter: its blocks are its clients' from when they are handed to them until they are given back.
-/

namespace TrackedHeap

open Tracker (Tidy)

variable {H : Type} [Heap H] {t t' : Tracker H} {total : Nat} {alignment : Alignment}

/-! ## Slabs -/

namespace SlabCarver

omit [Heap H]

/-- Slabs keep their blocks when their bits change. -/
theorem backing_update (s : SlabCarver) (size : Nat) {f : Slab → Slab}
    (hf : ∀ slab, (f slab).base = slab.base) : (s.update size f).map (fun slab => slab.base.id) = s.backing := by
  rw [update, List.map_map]
  refine List.map_congr_left fun slab _ => ?_
  simp only [Function.comp]
  split
  · rw [hf]
  · rfl

theorem backing_carveFrom (s : SlabCarver) (slab : Slab) : (s.carveFrom slab).2.backing = s.backing := by
  fun_cases SlabCarver.carveFrom s slab
  case case1 => rfl
  case case2 => exact s.backing_update _ fun _ => rfl

theorem backing_release (s : SlabCarver) (handle : CarveOut) : (s.release handle).2.backing = s.backing := by
  fun_cases SlabCarver.release s handle
  case case4 => exact s.backing_update _ fun _ => rfl
  all_goals rfl

variable [Heap H]

theorem draws_newSlab (s : SlabCarver) (t : Tracker H) (size : Nat) :
    t.Draws (s.newSlab t size).2.2 s.backing (s.newSlab t size).2.1.backing := by
  fun_cases SlabCarver.newSlab s t size
  case case1 => exact .refl _ _
  case case2 => exact .refl _ _
  case case3 ha => exact Tracker.draws_allocate_error ha _
  case case4 base t₁ ha slab =>
    have hbacking : (s.slabs ++ [slab]).map (fun slab => slab.base.id) = s.backing ++ [base.id] :=
      List.map_append
    refine (Tracker.draws_allocate_ok ha s.backing).perm (.refl _) ?_
    show ((s.slabs ++ [slab]).map fun slab => slab.base.id).Perm (base.id :: s.backing)
    rw [hbacking]
    exact List.perm_append_singleton _ _

theorem draws_allocate (s : SlabCarver) (t : Tracker H) (size : Nat) :
    t.Draws (s.allocate t size).2.2 s.backing (s.allocate t size).2.1.backing := by
  show t.Draws (s.carve t size).2.2 s.backing (s.carve t size).2.1.backing
  have hnew := s.draws_newSlab t size
  fun_cases SlabCarver.carve s t size
  case case1 => exact .refl _ _
  case case2 slab hslab result s' hcarve =>
    have hfrom := s.backing_carveFrom slab
    rw [hcarve] at hfrom
    exact hfrom ▸ .refl _ _
  case case3 h =>
    rw [h] at hnew
    exact hnew
  case case4 slab s' t' h result s'' hcarve =>
    have hfrom := s'.backing_carveFrom slab
    rw [hcarve] at hfrom
    rw [h] at hnew
    exact hfrom ▸ hnew

theorem draws_dispose (s : SlabCarver) (t : Tracker H) : t.Draws (s.dispose t) s.backing [] := by
  rw [dispose_eq]
  refine t.draws_returnAll (fun id hid => .inr ?_) fun _ hid => absurd hid List.not_mem_nil
  rwa [List.map_map]

end SlabCarver

/-! ## Arenas -/

namespace Arena

omit [Heap H] in
theorem backing_release (a : Arena) (handle : CarveOut) : (a.release handle).2.backing = a.backing := by
  fun_cases Arena.release a handle <;> rfl

theorem draws_allocate (a : Arena) (t : Tracker H) (size : Nat) :
    t.Draws (a.allocate t size).2.2 a.backing (a.allocate t size).2.1.backing := by
  show t.Draws (a.carve t size).2.2 a.backing (a.carve t size).2.1.backing
  fun_cases Arena.carve a t size
  case case1 => exact .refl _ _
  case case2 => exact .refl _ _
  case case3 ha => exact Tracker.draws_allocate_error ha _
  case case4 ha _ _ hgrant =>
    obtain ⟨-, rfl⟩ := Prod.mk.inj hgrant
    exact Tracker.draws_allocate_ok ha _
  case case5 hgrant =>
    obtain ⟨-, rfl⟩ := Prod.mk.inj hgrant
    exact .refl _ _

/-- The first block stays. -/
theorem draws_reset (a : Arena) (t : Tracker H) :
    t.Draws (a.reset t).2.2 a.backing (a.reset t).2.1.backing := by
  show t.Draws (freeBlocks t a.later.reverse).2 a.backing [a.first.id]
  rw [freeBlocks_eq, backing, blocks, List.map_append]
  refine t.draws_returnAll (fun id hid => (List.mem_append.mp hid).symm.imp_right fun hid => ?_) fun id hid => ?_
  · rwa [List.map_reverse, List.mem_reverse]
  · exact List.mem_append_right _ hid

theorem draws_dispose (a : Arena) (t : Tracker H) : t.Draws (a.dispose t) a.backing [] := by
  rw [dispose, freeBlocks_eq]
  refine t.draws_returnAll (fun id hid => .inr ?_) fun _ hid => absurd hid List.not_mem_nil
  rwa [List.map_reverse, List.mem_reverse]

end Arena

/-! ## Hybrids -/

namespace Hybrid

omit [Heap H] in
theorem backing_release (h : Hybrid) (handle : CarveOut) : (h.release handle).2.backing = h.backing := by
  cases ht : Tier.ofSize handle.requestedSize with
  | small => simp only [release_small ht, backing, SlabCarver.backing_release]
  | medium => simp only [release_medium ht, backing, Buddy.backing_release]
  | large => rw [release_large ht]

theorem draws_allocate (h : Hybrid) (t : Tracker H) (size : Nat) :
    t.Draws (h.allocate t size).2.2 h.backing (h.allocate t size).2.1.backing := by
  by_cases hsize : size = 0
  · rw [Hybrid.allocate, if_pos hsize]
    exact .refl _ _
  cases htier : Tier.ofSize size with
  | small =>
    rw [allocate_small hsize htier]
    exact (h.small.draws_allocate t size).append_right _
  | medium =>
    rw [allocate_medium hsize htier]
    simp only [backing, Buddy.backing_allocate]
    exact .refl _ _
  | large =>
    rw [allocate_large hsize htier]
    exact ((h.large.draws_allocate t size).append_left _).append_left _

theorem draws_reset (h : Hybrid) (t : Tracker H) :
    t.Draws (h.reset t).2.2 h.backing (h.reset t).2.1.backing := by
  have hsmall : t.Draws (h.small.dispose t) h.backing (h.medium.backing ++ h.large.backing) :=
    (h.small.draws_dispose t).append_right _
  have hlarge := (h.large.draws_reset (h.small.dispose t)).append_left h.medium.backing
  rw [← Buddy.backing_reset h.medium] at hlarge hsmall
  exact hsmall.trans hlarge

theorem draws_dispose (h : Hybrid) (t : Tracker H) : t.Draws (h.dispose t) h.backing [] := by
  have hsmall : t.Draws (h.small.dispose t) h.backing (h.medium.backing ++ h.large.backing) :=
    (h.small.draws_dispose t).append_right _
  have hmedium : (h.small.dispose t).Draws (((h.small.dispose t).free h.medium.base).2)
      (h.medium.backing ++ h.large.backing) h.large.backing := Tracker.draws_free rfl _
  exact (hsmall.trans hmedium).trans (h.large.draws_dispose _)

theorem draws_make {h : Hybrid} (hm : Hybrid.make t total alignment = (.ok h, t')) :
    t.Draws t' [] h.backing := by
  obtain ⟨hsmall, t₁, hmedium, hlarge⟩ := make_ok hm
  obtain ⟨ha, hlarge⟩ := Arena.make_ok hlarge
  have hfirst := Tracker.draws_allocate_ok (Buddy.make_ok hmedium).2 []
  have hsecond := Tracker.draws_allocate_ok hlarge [h.medium.base.id]
  rw [backing, SlabCarver.make_ok hsmall, ha]
  exact (hfirst.trans hsecond).perm (.refl _) (.swap ..)

end Hybrid

/-! ## Object pools -/

namespace ObjectPool

/-- The blocks of what a request is answered with. -/
def granted : Except MemoryError CarveOut → List Nat
  | .ok c => [c.block.id]
  | .error _ => []

/-- A block that waited, or a new one, is handed out. -/
theorem tidy_allocate (p : ObjectPool) (t : Tracker H) (size : Nat) :
    t.Tidy (p.allocate t size).2.2 p.waiting
      (granted (p.allocate t size).1 ++ (p.allocate t size).2.1.waiting) := by
  show t.Tidy (p.carve t size).2.2 p.waiting (granted (p.carve t size).1 ++ (p.carve t size).2.1.waiting)
  fun_cases ObjectPool.carve p t size
  case case1 => exact .refl _ _
  case case2 c hfind =>
    have hperm := (List.perm_cons_erase (List.mem_of_find?_eq_some hfind)).map fun c => c.block.id
    exact (Tidy.refl t p.waiting).mono (fun _ hid => hid) fun id hid => hperm.mem_iff.mp hid
  case case3 => exact .refl _ _
  case case4 ha => exact Tracker.tidy_allocate_error ha _
  case case5 ha => exact Tracker.tidy_allocate_ok ha _

omit [Heap H] in
theorem waiting_release (p : ObjectPool) (t : Tracker H) (handle : CarveOut) :
    ∀ id ∈ p.waiting, id ∈ (p.release t handle).2.waiting := by
  intro id hid
  fun_cases ObjectPool.release p t handle
  case case5 =>
    show id ∈ (p.queued ++ [handle]).map fun c => c.block.id
    rw [List.map_append]
    exact List.mem_append_left _ hid
  all_goals exact hid

omit [Heap H] in
/-- A block that a client gives back waits. -/
theorem mem_waiting_release {p : ObjectPool} {t : Tracker H} {handle : CarveOut}
    (h : (p.release t handle).1 = .ok ()) : handle.block.id ∈ (p.release t handle).2.waiting := by
  revert h
  fun_cases ObjectPool.release p t handle
  case case5 =>
    intro _
    exact List.mem_map_of_mem (List.mem_append_right _ (List.mem_singleton_self handle))
  all_goals exact fun h => by cases h

theorem draws_reset (p : ObjectPool) (t : Tracker H) : t.Draws (p.reset t).2.2 p.waiting [] := by
  show t.Draws (p.drain t p.queued).2.2 p.waiting []
  rw [drain_tracker]
  refine t.draws_returnAll (fun id hid => .inr ?_) fun _ hid => absurd hid List.not_mem_nil
  rwa [List.map_map]

/-- A reset leaves the blocks that clients have alone. -/
theorem tidy_reset (p : ObjectPool) (t : Tracker H) : t.Tidy (p.reset t).2.2 [] [] :=
  (p.draws_reset t).tidy.mono (fun _ hid => absurd hid List.not_mem_nil) fun _ => id

end ObjectPool

/-! ## Carvers -/

namespace Carver

/-- The blocks of a carver that clients never have as a whole. -/
def base : Carver → List Nat
  | objectPool _ => []
  | c => c.backing

theorem base_of_objectPool {c : Carver} (hc : c.strategy = .objectPool) : c.base = [] := by
  cases c with
  | objectPool p => rfl
  | _ => cases hc

theorem base_eq_backing {c : Carver} (hc : c.strategy ≠ .objectPool) : c.base = c.backing := by
  cases c with
  | objectPool p => exact absurd rfl hc
  | _ => rfl

/-- The blocks that go back to the tracker when a carver is done with. -/
def stock : Carver → List Nat
  | objectPool p => p.waiting
  | c => c.backing

theorem base_eq_stock {c : Carver} (hc : c.strategy ≠ .objectPool) : c.base = c.stock := by
  cases c with
  | objectPool p => exact absurd rfl hc
  | _ => rfl

theorem waiting_subset_stock {id : Nat} : ∀ c : Carver, id ∈ c.waiting → id ∈ c.stock
  | objectPool _, h => h
  | buddy _, h | slab _, h | arena _, h | ringBuffer _, h | hybrid _, h => absurd h List.not_mem_nil

/-- The blocks that a carver hands to a client as a whole when it answers a request. -/
def handed (c : Carver) (answer : Except MemoryError CarveOut) : List Nat :=
  if c.strategy = .objectPool then ObjectPool.granted answer else []

/-- The blocks that a carver takes from a client as a whole when it answers a request. -/
def accepted (c : Carver) (answer : Except MemoryError Unit) (handle : CarveOut) : List Nat :=
  match c, answer with
  | objectPool _, .ok _ => [handle.block.id]
  | _, _ => []

omit [Heap H] in
theorem stock_release {c : Carver} (hc : c.strategy ≠ .objectPool) (t : Tracker H) (handle : CarveOut) :
    (c.release t handle).2.1.stock = c.stock := by
  cases c with
  | buddy b => exact b.backing_release handle
  | slab s => exact s.backing_release handle
  | arena a => exact a.backing_release handle
  | ringBuffer r => rfl
  | objectPool p => exact absurd rfl hc
  | hybrid h => exact h.backing_release handle

omit [Heap H] in
theorem base_release (c : Carver) (t : Tracker H) (handle : CarveOut) :
    (c.release t handle).2.1.base = c.base := by
  by_cases hc : c.strategy = .objectPool
  · rw [base_of_objectPool hc, base_of_objectPool (c.strategy_release t handle ▸ hc)]
  · rw [base_eq_stock hc, base_eq_stock (c.strategy_release t handle ▸ hc), stock_release hc]

omit [Heap H] in
/-- What a carver takes from a client it has from then on. -/
theorem mem_stock_release (c : Carver) (t : Tracker H) (handle : CarveOut) :
    ∀ id ∈ c.accepted (c.release t handle).1 handle ++ c.stock, id ∈ (c.release t handle).2.1.stock := by
  intro id hid
  rcases List.mem_append.mp hid with hid | hid
  · cases c with
    | objectPool p =>
      cases ha : (p.release t handle).1 with
      | error e =>
        rw [show ((objectPool p).release t handle).1 = .error e from ha] at hid
        exact absurd hid List.not_mem_nil
      | ok =>
        rw [show ((objectPool p).release t handle).1 = .ok () from ha] at hid
        exact List.mem_singleton.mp hid ▸ ObjectPool.mem_waiting_release ha
    | _ => exact absurd hid List.not_mem_nil
  · by_cases hc : c.strategy = .objectPool
    · cases c with
      | objectPool p => exact p.waiting_release t handle id hid
      | _ => cases hc
    · rwa [stock_release hc]

/-- Unless it is an object pool, a carver takes blocks for itself. -/
theorem draws_allocate {c : Carver} (hc : c.strategy ≠ .objectPool) (t : Tracker H) (size : Nat) :
    t.Draws (c.allocate t size).2.2 c.base (c.allocate t size).2.1.base := by
  cases c with
  | buddy b =>
    show t.Draws t b.backing (b.allocate size).2.backing
    rw [Buddy.backing_allocate]
    exact .refl _ _
  | slab s => exact s.draws_allocate t size
  | arena a => exact a.draws_allocate t size
  | ringBuffer r =>
    show t.Draws t r.backing (r.allocate size).2.backing
    rw [RingBuffer.backing_allocate]
    exact .refl _ _
  | objectPool p => exact absurd rfl hc
  | hybrid h => exact h.draws_allocate t size

theorem tidy_allocate (c : Carver) (t : Tracker H) (size : Nat) :
    t.Tidy (c.allocate t size).2.2 c.stock
      (c.handed (c.allocate t size).1 ++ (c.allocate t size).2.1.stock) := by
  by_cases hc : c.strategy = .objectPool
  · cases c with
    | objectPool p => exact p.tidy_allocate t size
    | _ => cases hc
  · rw [handed, if_neg hc, ← base_eq_stock hc, ← base_eq_stock (c.strategy_allocate t size ▸ hc)]
    exact (draws_allocate hc t size).tidy

/-- A carver comes with certain blocks, returns some of them when it is reset, and all when it is done with. -/
structure Charge (H : Type) [Heap H] (f : Carver → List Nat) : Prop where
  build {t t' : Tracker H} {strategy : Strategy} {total : Nat} {alignment : Alignment} {c : Carver} :
    build t strategy total alignment = (.ok c, t') → t.Draws t' [] (f c)
  reset (c : Carver) (t : Tracker H) : t.Draws (c.reset t).2.2 (f c) (f (c.reset t).2.1)
  dispose (c : Carver) (t : Tracker H) : t.Draws (c.dispose t) (f c) []

theorem charge_stock : Charge H stock where
  build {t t' strategy total alignment c} hb := by
    cases strategy with
    | buddy =>
      obtain ⟨b, hm, rfl⟩ := built_ok hb
      exact Tracker.draws_allocate_ok (Buddy.make_ok hm).2 []
    | slab =>
      obtain ⟨s, hm, rfl⟩ := built_ok hb
      obtain ⟨hs, rfl⟩ := Prod.mk.inj hm
      rw [SlabCarver.make_ok hs]
      exact .refl _ _
    | arena =>
      obtain ⟨a, hm, rfl⟩ := built_ok hb
      obtain ⟨heq, ha⟩ := Arena.make_ok hm
      rw [heq]
      exact Tracker.draws_allocate_ok ha []
    | ringBuffer =>
      obtain ⟨r, hm, rfl⟩ := built_ok hb
      exact Tracker.draws_allocate_ok (RingBuffer.make_ok hm).2 []
    | objectPool =>
      obtain ⟨p, hm, rfl⟩ := built_ok hb
      obtain ⟨-, rfl⟩ := Prod.mk.inj hm
      rw [show (objectPool p).stock = [] from waiting_of_build hb]
      exact .refl _ _
    | hybrid =>
      obtain ⟨h, hm, rfl⟩ := built_ok hb
      exact Hybrid.draws_make hm
  reset c t := by
    cases c with
    | buddy b =>
      show t.Draws t b.backing b.reset.backing
      rw [Buddy.backing_reset]
      exact .refl _ _
    | slab s => exact s.draws_dispose t
    | arena a => exact a.draws_reset t
    | ringBuffer r => exact .refl _ _
    | objectPool p => exact p.draws_reset t
    | hybrid h => exact h.draws_reset t
  dispose c t := by
    cases c with
    | buddy b => exact Tracker.draws_free rfl []
    | slab s => exact s.draws_dispose t
    | arena a => exact a.draws_dispose t
    | ringBuffer r => exact Tracker.draws_free rfl []
    | objectPool p => exact p.draws_reset t
    | hybrid h => exact h.draws_dispose t

/-- The blocks of an object pool are its clients' from when they are handed to them. -/
theorem charge_base : Charge H base where
  build {t t' strategy total alignment c} hb := by
    by_cases hc : c.strategy = .objectPool
    · cases c with
      | objectPool p =>
        have hstock : t.Draws t' [] p.waiting := charge_stock.build hb
        rwa [show p.waiting = [] from waiting_of_build hb] at hstock
      | _ => cases hc
    · rw [base_eq_stock hc]
      exact charge_stock.build hb
  reset c t := by
    by_cases hc : c.strategy = .objectPool
    · cases c with
      | objectPool p => exact (p.steps_reset t).draws (p.tidy_reset t) fun _ => id
      | _ => cases hc
    · rw [base_eq_stock hc, base_eq_stock (c.strategy_reset t ▸ hc)]
      exact charge_stock.reset c t
  dispose c t := by
    by_cases hc : c.strategy = .objectPool
    · cases c with
      | objectPool p => exact (p.steps_reset t).draws (p.tidy_reset t) fun _ => id
      | _ => cases hc
    · rw [base_eq_stock hc]
      exact charge_stock.dispose c t

end Carver

end TrackedHeap
