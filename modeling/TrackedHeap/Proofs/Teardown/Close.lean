import Mathlib.Data.List.Induction
import TrackedHeap.Proofs.Heap.Bump
import TrackedHeap.Proofs.Heap.Journaled
import TrackedHeap.Proofs.Teardown.Drops
import TrackedHeap.Proofs.Teardown.Supply
import TrackedHeap.Proofs.Tracker.Accounting

/-!
# Closing a workspace

A workspace is closed by letting go of all that clients hold, shutting its registry down and ending its pools.
In which order things were let go of before, and which names were freed, is up to the run that comes first.
Whatever that was, the blocks that are live afterwards are with clients: none of them was a carver's, and none
waited in a pool when that was dropped. So when everything is returned then, every range that the heap granted
has come back once (`Workspace.run_closed`).
-/

namespace TrackedHeap

open Tracker (Tidy Steps)

namespace Tracker

variable {H : Type} [Heap H] {t : Tracker H}

/-- Blocks that are returned one after the other are counted as such. -/
theorem Returnable.count {blocks : List Block} (h : t.Returnable blocks)
    {f : Nat × Tracker H → Block → Nat × Tracker H}
    (hf : ∀ n t block b t', t.free block = (.ok b, t') → f (n, t) block = (n + 1, t')) (n : Nat) :
    (blocks.foldl f (n, t)).1 = n + blocks.length := by
  induction blocks generalizing t n with
  | nil => rfl
  | cons block blocks ih =>
    obtain ⟨b, hfree⟩ := free_of_live (h.live block List.mem_cons_self)
    rw [List.foldl_cons, hf n t block b _ hfree, ih h.tail, List.length_cons]
    omega

theorem freeAll_count (h : (t.blocks.map Block.id).Nodup) : t.freeAll.1 = t.active := by
  have hblocks : t.Returnable t.blocks := ⟨fun b hb => ⟨b, hb, rfl⟩, h⟩
  refine (hblocks.count (fun n t block b t' hfree => ?_) 0).trans (Nat.zero_add _)
  simp only [hfree]

theorem freeAll_blocks (t : Tracker H) : t.freeAll.2.blocks = [] :=
  List.eq_nil_iff_forall_not_mem.mpr fun b hb =>
    ((t.tidy_freeAll [] []) b hb).elim List.not_mem_nil fun ⟨hmem, hnot⟩ =>
      hnot (List.mem_append_left _ (List.mem_map_of_mem hmem))

/-- When everything is returned, as many blocks are as were live, none is left, and every range that the heap
granted has come back once. -/
structure Emptied (t : Tracker (Journaled H)) : Prop where
  count : t.freeAll.1 = {id | (t.lookup id).isSome}.ncard
  blocks : t.freeAll.2.blocks = []
  current : t.freeAll.2.report.current = 0
  returned : t.freeAll.2.heap.returned.Perm ((List.range t.freeAll.2.heap.grants).map some)

theorem WellFormed.emptied [LawfulHeap H] {t : Tracker (Journaled H)} (h : t.WellFormed)
    (hu : t.usage.Tallies t.held) : t.Emptied where
  count := by
    rw [h.ncard_live]
    exact freeAll_count h.layout.nodup_ids
  blocks := freeAll_blocks t
  current := by
    have htallies := Steps.tallies (Steps.freeAll t) h hu
    rw [held, freeAll_blocks] at htallies
    exact htallies.current
  returned := Journaled.returned_perm (Steps.wellFormed (Steps.freeAll t) h) (freeAll_blocks t)

end Tracker

variable {H : Type} [Heap H]

theorem Pool.tidy_disposeAll (pools : List (String × Pool)) (t : Tracker H) :
    t.Tidy ((pools.map Prod.snd).foldl (fun t pool => pool.dispose t) t) (pools.flatMap fun p => p.2.kept)
      [] := by
  induction pools generalizing t with
  | nil => exact .refl t []
  | cons p pools ih => exact ((p.2.tidy_clear t).append_right _).trans (ih (p.2.dispose t))

namespace Workspace

variable {w : Workspace H} {requests : List Request} {request : Request} {id : Nat}

/-! ## What is left of a workspace -/

/-- Clients let go of everything, the registry is shut down and the pools are done with. -/
def close (w : Workspace H) : Workspace H :=
  w.letGoAll.shutdown.2.dropPools

theorem letGoAll_eq (w : Workspace H) : w.letGoAll = settle
    { w with
      holdings := []
      tracker := (ownCarvers w.holdings).foldl (fun t c => c.dispose t) w.tracker } := by
  rw [letGoAll, foldl_endHolding]

theorem steps_letGoAll (w : Workspace H) : Steps w.tracker w.letGoAll.tracker := by
  have hown : Steps w.tracker ((ownCarvers w.holdings).foldl (fun t c => c.dispose t) w.tracker) :=
    Steps.foldl (fun t => t) (fun t (c : Carver) => c.steps_dispose t) _ w.tracker
  let w' : Workspace H := { w with
    holdings := []
    tracker := (ownCarvers w.holdings).foldl (fun t c => c.dispose t) w.tracker }
  rw [letGoAll_eq]
  exact hown.trans w'.steps_settle

theorem steps_close (w : Workspace H) : Steps w.tracker w.close.tracker := by
  have hpools : Steps w.letGoAll.shutdown.2.tracker w.close.tracker :=
    Steps.foldl (fun t => t) (fun t (p : Pool) => p.steps_clear t) _ _
  exact (w.steps_letGoAll.trans w.letGoAll.steps_shutdown).trans hpools

theorem Distinct.letGoAll (h : w.Distinct) : w.letGoAll.Distinct := by
  let w' : Workspace H := { w with
    holdings := []
    tracker := (ownCarvers w.holdings).foldl (fun t c => c.dispose t) w.tracker }
  have hw' : w'.Distinct := ⟨List.nodup_nil, h.registry⟩
  rw [letGoAll_eq]
  exact hw'.settle

/-- Allocators without a name are done with when clients hold nothing. -/
theorem carvers_settle (hw : w.holdings = []) (hr : ∀ a ∈ w.registry.allocators, a.registered = false) :
    w.settle.carvers = [] := by
  have hkept : (w.registry.allocators.filter fun a => a.registered || w.held.contains a.serial) = [] :=
    List.filter_eq_nil_iff.mpr fun a ha => by simp [hr a ha, held, hw]
  unfold settle Registry.sweep
  rw [List.partition_eq_filter_filter]
  simp only [carvers, hw, hkept]
  rfl

/-- A registry that is shut down has nothing left then. -/
theorem carvers_shutdown (hw : w.holdings = []) : w.shutdown.2.carvers = [] := by
  let w' : Workspace H := { w with
    registry := (w.registry.shutdown w.tracker).2.1
    tracker := (w.registry.shutdown w.tracker).2.2 }
  refine carvers_settle (w := w') hw fun a ha => ?_
  obtain ⟨b, -, rfl⟩ := List.mem_map.mp ha
  rfl

theorem carvers_close (w : Workspace H) : w.close.carvers = [] :=
  carvers_shutdown (w := w.letGoAll) (by rw [letGoAll_eq]; rfl)

/-- The blocks of carvers go back to the tracker. -/
theorem draws_shutdown (h : w.InOrder) {f : Carver → List Nat} (hf : Carver.Charge H f) :
    w.tracker.Draws w.letGoAll.shutdown.2.tracker (w.carvers.flatMap f) [] := by
  have hup := hf.upkeep w.tracker (w.carvers.flatMap f)
  have hall := hup.letGoAll (s := ()) (.refl _ _)
  have hclosed := hup.shutdown (s := ()) (w.steps_letGoAll.numbered h.numbered) h.distinct.letGoAll hall
  rwa [show w.letGoAll.shutdown.2.carvers = [] from w.carvers_close] at hclosed

theorem tidy_close_bases (h : w.InOrder) : w.tracker.Tidy w.close.tracker w.bases [] :=
  (draws_shutdown h Carver.charge_base).tidy.trans
    ((Pool.tidy_disposeAll _ _).mono (fun _ hid => absurd hid List.not_mem_nil) fun _ => id)

/-- Closing returns the stores. -/
theorem tidy_close (h : w.InOrder) : w.tracker.Tidy w.close.tracker w.stores [] := by
  have hpools : w.letGoAll.shutdown.2.pools = w.pools := by
    rw [letGoAll_eq]
    rfl
  refine ((draws_shutdown h Carver.charge_stock).append_right w.pooled).tidy.trans ?_
  rw [pooled, ← hpools]
  exact Pool.tidy_disposeAll _ _

/-! ## What happened in a run -/

/-- Carvers were supplied with the block of the id for themselves. -/
def SuppliedIn (w : Workspace H) (requests : List Request) (id : Nat) : Prop :=
  ∃ past request, past ++ [request] <+: requests ∧ (w.run past).Supplies request ∧
    (w.run past).tracker.Gives (w.run (past ++ [request])).tracker id

/-- The block of the id waited in a pool when that was dropped. -/
def DroppedIn (w : Workspace H) (requests : List Request) (id : Nat) : Prop :=
  ∃ past request ids, past ++ [request] <+: requests ∧ (w.run past).Drops request ids ∧ id ∈ ids

/-- The blocks that clients have after a run. -/
def heldAfter (w : Workspace H) (held : List Nat) : List Request → List Nat
  | [] => held
  | request :: requests =>
    let reply := (w.perform request).1
    let kept := held.filter fun id => id ∉ w.takesBack reply request
    (w.perform request).2.heldAfter (w.handsOver reply request ++ kept) requests

theorem SuppliedIn.mono {past : List Request} (h : w.SuppliedIn past id) (hpast : past <+: requests) :
    w.SuppliedIn requests id := by
  obtain ⟨earlier, request, hprefix, h⟩ := h
  exact ⟨earlier, request, hprefix.trans hpast, h⟩

theorem SuppliedIn.issued (h : w.SuppliedIn requests id) : id < (w.run requests).tracker.nextId := by
  obtain ⟨past, request, ⟨rest, rfl⟩, -, hgives⟩ := h
  rw [run_append]
  exact Nat.lt_of_lt_of_le hgives.2 (steps_run _ rest).nextId_le

theorem suppliedIn_concat : w.SuppliedIn (requests ++ [request]) id ↔ w.SuppliedIn requests id ∨
    (w.run requests).Supplies request ∧
      (w.run requests).tracker.Gives ((w.run requests).perform request).2.tracker id := by
  constructor
  · rintro ⟨past, last, hprefix, hs, hgives⟩
    rcases List.prefix_concat_iff.mp hprefix with heq | hprefix
    · obtain ⟨rfl, hlast⟩ := List.append_inj' heq rfl
      obtain rfl := List.singleton_inj.mp hlast
      rw [run_concat] at hgives
      exact .inr ⟨hs, hgives⟩
    · exact .inl ⟨past, last, hprefix, hs, hgives⟩
  · rintro (h | ⟨hs, hgives⟩)
    · exact h.mono (List.prefix_append _ _)
    · exact ⟨requests, request, List.prefix_refl _, hs, by rwa [run_concat]⟩

/-- The blocks behind carvers were given out for them. -/
theorem InOrder.suppliedIn (h : w.InOrder) (hstart : w.bases = []) (hid : id ∈ (w.run requests).bases) :
    w.SuppliedIn requests id := by
  induction requests using List.reverseRecOn with
  | nil => exact absurd (hstart ▸ hid) List.not_mem_nil
  | append_singleton requests request ih =>
    rw [run_concat] at hid
    exact suppliedIn_concat.mpr ((mem_bases_perform (h.run requests) request hid).imp_left ih)

/-- A live block that carvers were supplied with is still behind one of them. -/
theorem InOrder.live_bases (h : w.InOrder) (hstart : w.tracker.blocks = []) (requests : List Request) :
    ∀ b ∈ (w.run requests).tracker.blocks,
      b.id ∈ (w.run requests).bases ∨ ¬ w.SuppliedIn requests b.id := by
  induction requests using List.reverseRecOn with
  | nil => exact fun b hb => absurd (hstart ▸ hb) List.not_mem_nil
  | append_singleton requests request ih =>
    have hrun := h.run requests
    rw [run_concat]
    intro b hb
    rw [suppliedIn_concat, not_or]
    by_cases hs : (w.run requests).Supplies request
    · refine ((draws_of_supplies hrun hs).tidy b hb).imp_right fun ⟨hold, hnot⟩ => ?_
      refine ⟨(ih b hold).resolve_left hnot, fun ⟨_, hgives⟩ => ?_⟩
      exact Nat.not_lt.mpr hgives.1 (hrun.numbered.issued b hold)
    · rw [(perm_bases hrun hs).mem_iff]
      rcases (steps_perform (w.run requests) request).origin hb with hold | hnew
      · exact (ih b hold).imp_right fun hnot => ⟨hnot, fun hnow => hs hnow.1⟩
      · exact .inr ⟨fun hsupplied => Nat.not_lt.mpr hnew hsupplied.issued, fun hnow => hs hnow.1⟩

/-- A live block is with clients or in the stores. -/
theorem InOrder.live_held (h : w.InOrder) {held : List Nat}
    (hheld : ∀ b ∈ w.tracker.blocks, b.id ∈ w.stores ∨ b.id ∈ held) (requests : List Request) :
    ∀ b ∈ (w.run requests).tracker.blocks,
      b.id ∈ (w.run requests).stores ∨ b.id ∈ w.heldAfter held requests := by
  induction requests generalizing w held with
  | nil => exact hheld
  | cons request requests ih =>
    refine ih (h.perform request) fun b hb => ?_
    rcases tidy_perform h request b hb with hid | ⟨hold, hnot⟩
    · exact (List.mem_append.mp hid).symm.imp_right (List.mem_append_left _)
    · rw [List.mem_append, not_or] at hnot
      refine .inr (List.mem_append_right _ (List.mem_filter.mpr ⟨?_, decide_eq_true hnot.1⟩))
      exact (hheld b hold).resolve_left hnot.2

theorem DroppedIn.gone (h : w.DroppedIn requests id) (hw : w.InOrder) :
    (w.run requests).tracker.Gone id := by
  obtain ⟨past, request, ids, ⟨rest, rfl⟩, hdrops, hid⟩ := h
  rw [run_append, run_concat]
  exact (steps_run _ rest).gone (hdrops.gone (hw.run past) hid)

/-! ## Nothing is leaked -/

/-- What is left when a workspace is closed after a run. -/
structure Closed (w : Workspace (Journaled H)) (requests : List Request) : Prop where
  /-- No carver is left, and no pool. -/
  bare : (w.run requests).close.carvers = [] ∧ (w.run requests).close.pools = []
  /-- No block that carvers were supplied with is live -/
  supplied : ∀ id, w.SuppliedIn requests id → (w.run requests).close.tracker.lookup id = none
  /-- and so none that was behind a carver at any time, object pools apart, -/
  backing : ∀ past, past <+: requests → ∀ c ∈ (w.run past).carvers, c.strategy ≠ .objectPool →
    ∀ id ∈ c.backing, (w.run requests).close.tracker.lookup id = none
  /-- and none that waited in a pool or an object pool when that was dropped, during the run -/
  dropped : ∀ id, w.DroppedIn requests id → (w.run requests).close.tracker.lookup id = none
  /-- or at its end. -/
  waiting : ∀ id ∈ (w.run requests).waiting, (w.run requests).close.tracker.lookup id = none
  /-- Those that are live are with clients. -/
  held : ∀ id, ((w.run requests).close.tracker.lookup id).isSome → id ∈ w.heldAfter [] requests
  emptied : (w.run requests).close.tracker.Emptied

theorem InOrder.lookup_of_suppliedIn (h : w.InOrder) (hblocks : w.tracker.blocks = [])
    (hid : w.SuppliedIn requests id) : (w.run requests).close.tracker.lookup id = none :=
  Tracker.lookup_eq_none_iff.mpr fun b hb he => by
    obtain ⟨hlive, hnot⟩ := (tidy_close_bases (h.run requests) b hb).resolve_left List.not_mem_nil
    exact (h.live_bases hblocks requests b hlive).elim hnot fun hfree => hfree (he ▸ hid)

theorem InOrder.closed [LawfulHeap H] {w : Workspace (Journaled H)} (h : w.InOrder)
    (hwf : w.tracker.WellFormed) (hblocks : w.tracker.blocks = []) (hcarvers : w.carvers = [])
    (hu : w.tracker.usage.Tallies w.tracker.held) (requests : List Request) : w.Closed requests where
  bare := ⟨carvers_close _, rfl⟩
  supplied id := h.lookup_of_suppliedIn hblocks
  backing past hpast c hc hstrategy id hid := by
    have hbases : id ∈ (w.run past).bases :=
      List.mem_flatMap.mpr ⟨c, hc, Carver.base_eq_backing hstrategy ▸ hid⟩
    have hstart : w.bases = [] := by rw [bases, hcarvers, List.flatMap_nil]
    exact h.lookup_of_suppliedIn hblocks ((h.suppliedIn hstart hbases).mono hpast)
  dropped id hid := ((w.run requests).steps_close.gone (hid.gone h)).unknown
  waiting id hid := Tracker.lookup_eq_none_iff.mpr fun b hb he => by
    obtain ⟨-, hnot⟩ := (tidy_close (h.run requests) b hb).resolve_left List.not_mem_nil
    exact hnot (he ▸ waiting_subset_stores hid)
  held id hid := by
    obtain ⟨b, hb, rfl⟩ := List.mem_map.mp (Tracker.isSome_lookup_iff.mp hid)
    obtain ⟨hlive, hnot⟩ := (tidy_close (h.run requests) b hb).resolve_left List.not_mem_nil
    have hstart : ∀ b ∈ w.tracker.blocks, b.id ∈ w.stores ∨ b.id ∈ ([] : List Nat) := by simp [hblocks]
    exact (h.live_held hstart requests b hlive).resolve_left hnot
  emptied := by
    have hsteps := (steps_run w requests).trans (w.run requests).steps_close
    exact (Steps.wellFormed hsteps hwf).emptied (Steps.tallies hsteps hwf hu)

open LawfulHeap (Sound Granted) in
/-- Whatever is asked of a workspace, nothing is leaked when it is closed. -/
theorem run_closed [LawfulHeap H] {heap : H} (hs : Sound heap) (hg : ∀ e, ¬ Granted heap e)
    (budget : Option Nat) (alignment : Alignment) (requests : List Request) :
    (opened (Journaled.mk heap 0 [] []) budget alignment).Closed requests := by
  have hl : Sound (Journaled.mk heap 0 [] []) := Journaled.lawful_of_inner hs hg
  have hnone : ∀ e, ¬ Granted (Journaled.mk heap 0 [] []) e := fun _ => List.not_mem_nil
  have hzero : ({} : Usage).Tallies 0 := ⟨rfl, rfl, Nat.le_refl 0⟩
  exact (InOrder.opened _ budget alignment).closed (Tracker.wellFormed_ofHeap hl hnone) rfl rfl hzero requests

/-- A request is refused, a block behind a carver is returned behind its back, an arena gives way to an
allocator whose name is free again, and a client keeps one block each of an object pool, a pool and the
tracker. -/
theorem run_closed_mixed :
    let w := opened (Journaled.mk (BumpHeap.ofPlan { failing := [3] }) 0 [] []) none .byte
    let requests : List Request :=
      [.build "buddy" .buddy 100 .word, .build "slab" .slab 256 .byte, .build "arena" .arena 64 .word,
        .build "ring" .ringBuffer 32 .byte, .get "hybrid" "shared" .hybrid 400000 none,
        .build "objects" .objectPool 100 .byte, .carve "slab" 16, .carve "arena" 24, .carve "arena" 48,
        .carve "objects" 12, .carve "objects" 20, .giveBack "objects" (.whole (.place 7 0 12 0 .byte 0)),
        .makePool "pool" 8 .byte 2, .acquire "pool", .acquire "pool",
        .release "pool" (.place 10 0 8 0 .byte 0), .allocate 40 .page,
        .reallocate (.place 11 0 0 0 .byte 0) 80, .free (.place 3 0 0 0 .byte 0),
        .remove "shared" (some "arena"), .letGo "objects", .reset "slab"]
    w.Closed requests ∧ w.SuppliedIn requests 4 ∧ w.DroppedIn requests 7 ∧
      (w.run requests).tracker.blocks.map Block.id = [1, 4, 8, 9, 10, 12] ∧
      (w.run requests).close.tracker.blocks.map Block.id = [8, 9, 12] ∧
      w.heldAfter [] requests = [12, 9, 8] := by
  intro w requests
  have hclosed : w.Closed requests := by
    refine run_closed ?_ ?_ none .byte requests
    · exact BumpHeap.orderly_ofPlan rfl (by decide)
    · exact fun _ => List.not_mem_nil
  have hsupplied : w.SuppliedIn requests 4 :=
    ⟨requests.take 4, _, ⟨requests.drop 5, rfl⟩, trivial, by decide +kernel⟩
  have hdropped : w.DroppedIn requests 7 := by
    have hwaits : (((w.run (requests.take 20)).holdings.lookup "objects").bind Holding.own?).map
        Carver.waiting = some [7] := by decide +kernel
    obtain ⟨c, hown, hids⟩ := Option.map_eq_some_iff.mp hwaits
    obtain ⟨holding, hl, hc⟩ := Option.bind_eq_some_iff.mp hown
    cases holding with
    | own =>
      cases hc
      exact ⟨requests.take 20, _, _, ⟨requests.drop 21, rfl⟩, .own hl .letGo, by simp [hids]⟩
    | shared => cases hc
  exact ⟨hclosed, hsupplied, hdropped, by decide +kernel, by decide +kernel, by decide +kernel⟩

end Workspace

end TrackedHeap
