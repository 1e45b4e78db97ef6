import TrackedHeap.Proofs.Teardown.Stores

/-!
# Blocks that wait when their pool is dropped

A pool is dropped when its label is, or is given to another one. An object pool of a client's own is dropped
when the client lets go of it or puts something else under the label, and one of an allocator when neither the
registry nor anybody else holds the allocator any longer. What waits in it then is dead afterwards, whatever
else waits or is held elsewhere under the same id (`Workspace.Drops.gone`).
-/

namespace TrackedHeap

open Tracker (Tidy Steps)

variable {H : Type} [Heap H] {id : Nat}

/-- What an owner had and has no longer is gone. -/
theorem Tracker.Tidy.gone {t t' : Tracker H} {before after : List Nat} (h : t.Tidy t' before after)
    (s : Steps t t') (hid : id ∈ before) (hnot : id ∉ after) (hlt : id < t.nextId) : t'.Gone id := by
  refine ⟨Nat.lt_of_lt_of_le hlt s.nextId_le, Tracker.lookup_eq_none_iff.mpr fun b hb he => ?_⟩
  rcases h b hb with hafter | ⟨-, hbefore⟩
  · exact hnot (he ▸ hafter)
  · exact hbefore (he ▸ hid)

theorem Pool.gone_dispose {p : Pool} {t : Tracker H} (hid : id ∈ p.kept) (hlt : id < t.nextId) :
    (p.dispose t).Gone id :=
  (p.tidy_clear t).gone (p.steps_clear t) hid List.not_mem_nil hlt

namespace Carver

theorem gone_dispose {c : Carver} {t : Tracker H} (hid : id ∈ c.waiting) (hlt : id < t.nextId) :
    (c.dispose t).Gone id :=
  (charge_stock.dispose c t).tidy.gone (c.steps_dispose t) (c.waiting_subset_stock hid) List.not_mem_nil hlt

theorem gone_disposeAll {c : Carver} {carvers : List Carver} {t : Tracker H} (hc : c ∈ carvers)
    (hid : id ∈ c.waiting) (hlt : id < t.nextId) : (carvers.foldl (fun t c => c.dispose t) t).Gone id := by
  obtain ⟨before, after, rfl⟩ := List.append_of_mem hc
  rw [List.foldl_append, List.foldl_cons]
  have hbefore : Steps t (before.foldl (fun t c => c.dispose t) t) :=
    Steps.foldl (fun t => t) (fun t c => c.steps_dispose t) before t
  have hgone := gone_dispose hid (Nat.lt_of_lt_of_le hlt hbefore.nextId_le)
  exact (Steps.foldl (fun t => t) (fun t c => c.steps_dispose t) after _).gone hgone

/-- A reset returns what waits. -/
theorem gone_reset {c : Carver} {t : Tracker H} (hid : id ∈ c.waiting) (hlt : id < t.nextId) :
    (c.reset t).2.2.Gone id := by
  cases c with
  | objectPool p => exact (p.draws_reset t).tidy.gone (p.steps_reset t) hid List.not_mem_nil hlt
  | _ => exact absurd hid List.not_mem_nil

end Carver

/-! ## Allocators -/

namespace Registry

variable {r : Registry} {a : Allocator} {t : Tracker H}

/-- The allocator is still there. -/
def Keeps (r : Registry) (serial : Nat) : Prop :=
  ∃ a ∈ r.allocators, a.serial = serial

theorem mem_get (r : Registry) (t : Tracker H) (name : String) (strategy : Strategy) (total : Nat)
    (alignment : Alignment) (ha : a ∈ r.allocators) :
    a ∈ (r.get t name strategy total alignment).2.1.allocators := by
  fun_cases Registry.get r t name strategy total alignment
  case case4 => exact List.mem_append_left _ ha
  all_goals exact ha

/-- When allocators are swept away, what waits in one is gone if it is. -/
theorem sweep_keeps_or_gone (ha : a ∈ r.allocators) (hid : id ∈ a.carver.waiting) (hlt : id < t.nextId)
    (held : List Nat) : (r.sweep t held).1.Keeps a.serial ∨ (r.sweep t held).2.Gone id := by
  rw [sweep, List.partition_eq_filter_filter]
  by_cases hkept : (a.registered || held.contains a.serial) = true
  · exact .inl ⟨a, List.mem_filter.mpr ⟨ha, hkept⟩, rfl⟩
  · refine .inr ?_
    have hended : a.carver ∈ (r.allocators.filter fun a => !(a.registered || held.contains a.serial)).map
        Allocator.carver := List.mem_map_of_mem (List.mem_filter.mpr ⟨ha, by simpa using hkept⟩)
    have hgone := Carver.gone_disposeAll hended hid hlt
    rwa [List.foldl_map] at hgone

/-- When allocators are reset, what waits in one waits on there or is gone. -/
theorem resetAll_waits_or_gone (hr : r.Numbered) (ha : a ∈ r.allocators) (hid : id ∈ a.carver.waiting)
    (hlt : id < t.nextId) (serials : List Nat) :
    (∃ a' ∈ (r.resetAll t serials).1.allocators, a'.serial = a.serial ∧ id ∈ a'.carver.waiting) ∨
      (r.resetAll t serials).2.Gone id := by
  induction serials generalizing r t a with
  | nil => exact .inl ⟨a, ha, rfl, hid⟩
  | cons serial serials ih =>
    cases hfind : r.find? serial with
    | none =>
      have hskip : r.resetAll t (serial :: serials) = r.resetAll t serials := by
        simp only [resetAll, List.foldl_cons, hfind]
      rw [hskip]
      exact ih hr ha hid hlt
    | some c =>
      have hstep : r.resetAll t (serial :: serials) =
          (r.setCarver serial (c.carver.reset t).2.1).resetAll (c.carver.reset t).2.2 serials := by
        simp only [resetAll, List.foldl_cons, hfind]
      obtain ⟨hc, rfl⟩ := find?_eq_some hfind
      have hsteps := c.carver.steps_reset t
      rw [hstep]
      by_cases hsame : a.serial = c.serial
      · obtain rfl := List.inj_on_of_nodup_map hr.serials ha hc hsame
        exact .inr ((steps_resetAll _ _ serials).gone (Carver.gone_reset hid hlt))
      · refine ih (hr.setCarver ..) ?_ hid (Nat.lt_of_lt_of_le hlt hsteps.nextId_le)
        exact List.mem_map.mpr ⟨a, ha, if_neg hsame⟩

end Registry

namespace Workspace

variable {w : Workspace H} {label : String} {request : Request} {ids : List Nat} {a : Allocator} {c : Carver}

theorem settle_keeps_or_gone (ha : a ∈ w.registry.allocators) (hid : id ∈ a.carver.waiting)
    (hlt : id < w.tracker.nextId) : w.settle.registry.Keeps a.serial ∨ w.settle.tracker.Gone id :=
  w.registry.sweep_keeps_or_gone ha hid hlt w.held

theorem endHolding_registry (w : Workspace H) (holding : Holding) :
    (w.endHolding holding).registry = w.registry := by
  cases holding <;> rfl

theorem letGo_keeps_or_gone (ha : a ∈ w.registry.allocators) (hid : id ∈ a.carver.waiting)
    (hlt : id < w.tracker.nextId) (label : String) :
    (w.letGo label).registry.Keeps a.serial ∨ (w.letGo label).tracker.Gone id := by
  unfold letGo
  split
  · exact .inl ⟨a, ha, rfl⟩
  · next holding _ =>
    let w' : Workspace H := { w with holdings := unlabel w.holdings label }
    have hsteps := w'.steps_endHolding holding
    have ha' : a ∈ (w'.endHolding holding).registry.allocators := by rwa [endHolding_registry]
    exact settle_keeps_or_gone ha' hid (Nat.lt_of_lt_of_le hlt hsteps.nextId_le)

theorem hold_keeps_or_gone (ha : a ∈ w.registry.allocators) (hid : id ∈ a.carver.waiting)
    (hlt : id < w.tracker.nextId) (label : String) (holding : Holding) :
    (w.hold label holding).registry.Keeps a.serial ∨ (w.hold label holding).tracker.Gone id := by
  unfold hold
  simp only
  split
  · exact .inl ⟨a, ha, rfl⟩
  · next old _ =>
    let w' : Workspace H := { w with holdings := relabel w.holdings label holding }
    have hsteps := w'.steps_endHolding old
    have ha' : a ∈ (w'.endHolding old).registry.allocators := by rwa [endHolding_registry]
    exact settle_keeps_or_gone ha' hid (Nat.lt_of_lt_of_le hlt hsteps.nextId_le)

theorem build_keeps_or_gone (ha : a ∈ w.registry.allocators) (hid : id ∈ a.carver.waiting)
    (hlt : id < w.tracker.nextId) (label : String) (strategy : Strategy) (total : Nat)
    (alignment : Alignment) :
    (w.build label strategy total alignment).2.registry.Keeps a.serial ∨
      (w.build label strategy total alignment).2.tracker.Gone id := by
  have hsteps := Carver.steps_build w.tracker strategy total alignment
  unfold build
  split
  · exact .inl ⟨a, ha, rfl⟩
  · next c t hb =>
    rw [hb] at hsteps
    exact hold_keeps_or_gone (w := { w with tracker := t }) ha hid (Nat.lt_of_lt_of_le hlt hsteps.nextId_le) ..

theorem get_keeps_or_gone (ha : a ∈ w.registry.allocators) (hid : id ∈ a.carver.waiting)
    (hlt : id < w.tracker.nextId) (label name : String) (strategy : Strategy) (total : Nat)
    (alignment : Option Alignment) :
    (w.get label name strategy total alignment).2.registry.Keeps a.serial ∨
      (w.get label name strategy total alignment).2.tracker.Gone id := by
  have hsteps := w.registry.steps_get w.tracker name strategy total (alignment.getD w.registry.alignment)
  have hmem := w.registry.mem_get w.tracker name strategy total (alignment.getD w.registry.alignment) ha
  unfold get
  split
  · next hr =>
    rw [hr] at hmem
    exact .inl ⟨a, hmem, rfl⟩
  · next b r t hr =>
    rw [hr] at hsteps hmem
    exact hold_keeps_or_gone (w := { w with registry := r, tracker := t }) hmem hid
      (Nat.lt_of_lt_of_le hlt hsteps.nextId_le) ..

theorem remove_keeps_or_gone (ha : a ∈ w.registry.allocators) (hid : id ∈ a.carver.waiting)
    (hlt : id < w.tracker.nextId) (name : String) (label : Option String) :
    (w.remove name label).2.registry.Keeps a.serial ∨ (w.remove name label).2.tracker.Gone id := by
  let a' : Allocator := if a.registered && a.name == name then { a with registered := false } else a
  have hsame : a'.serial = a.serial ∧ a'.carver = a.carver := by
    simp only [a']
    split <;> exact ⟨rfl, rfl⟩
  have ha' : a' ∈ (w.registry.remove name).allocators := List.mem_map_of_mem ha
  rw [← hsame.2] at hid
  rw [← hsame.1]
  unfold remove
  split
  · exact .inl ⟨a, ha, hsame.1.symm⟩
  · cases label with
    | none => exact settle_keeps_or_gone (w := { w with registry := w.registry.remove name }) ha' hid hlt
    | some label =>
      exact hold_keeps_or_gone (w := { w with registry := w.registry.remove name }) ha' hid hlt label _

/-- Allocators that have a name are reset before they may be done with. -/
theorem shutdown_keeps_or_gone (hr : w.registry.Numbered) (ha : a ∈ w.registry.allocators)
    (hid : id ∈ a.carver.waiting) (hlt : id < w.tracker.nextId) :
    w.shutdown.2.registry.Keeps a.serial ∨ w.shutdown.2.tracker.Gone id := by
  let serials := w.registry.registered.map Allocator.serial
  let w' : Workspace H := { w with
    registry := (w.registry.shutdown w.tracker).2.1
    tracker := (w.registry.shutdown w.tracker).2.2 }
  show w'.settle.registry.Keeps a.serial ∨ w'.settle.tracker.Gone id
  have hsteps := w.registry.steps_resetAll w.tracker serials
  rcases w.registry.resetAll_waits_or_gone hr ha hid hlt serials with ⟨a', ha', hserial, hid'⟩ | hgone
  · have hmem : { a' with registered := false } ∈ w'.registry.allocators := List.mem_map_of_mem ha'
    rw [← hserial]
    exact settle_keeps_or_gone (a := { a' with registered := false }) hmem hid'
      (Nat.lt_of_lt_of_le hlt hsteps.nextId_le)
  · exact .inr ((steps_settle w').gone hgone)

omit [Heap H] in
theorem onCarver_keeps {α : Type} (ha : a ∈ w.registry.allocators) (label : String) (reply : α → Reply)
    (act : Carver → Tracker H → Outcome α (Carver × Tracker H)) :
    (w.onCarver label reply act).2.registry.Keeps a.serial := by
  unfold onCarver
  split
  · exact ⟨a, ha, rfl⟩
  · simp only [setCarver]
    split
    · exact ⟨a, ha, rfl⟩
    · refine ⟨_, List.mem_map_of_mem ha, ?_⟩
      split <;> rfl
    · exact ⟨a, ha, rfl⟩

/-- Whatever is asked, what waits in an allocator is gone if that is. -/
theorem perform_keeps_or_gone (h : w.InOrder) (ha : a ∈ w.registry.allocators) (hid : id ∈ a.carver.waiting)
    (request : Request) :
    (w.perform request).2.registry.Keeps a.serial ∨ (w.perform request).2.tracker.Gone id := by
  have hwaits : id ∈ w.waiting :=
    mem_waiting.mpr (.inr ⟨a.carver, List.mem_append_right _ (List.mem_map_of_mem ha), hid⟩)
  have hlt := h.waiting id hwaits
  rcases w.concerns_or_same request with hr | ⟨-, hregistry⟩
  swap
  · exact .inl ⟨a, hregistry ▸ ha, rfl⟩
  cases request
  case build => exact build_keeps_or_gone ha hid hlt ..
  case get => exact get_keeps_or_gone ha hid hlt ..
  case letGo label => exact letGo_keeps_or_gone ha hid hlt label
  case remove => exact remove_keeps_or_gone ha hid hlt ..
  case shutdown => exact shutdown_keeps_or_gone h.distinct.registry ha hid hlt
  case carve => exact .inl (onCarver_keeps ha ..)
  case giveBack => exact .inl (onCarver_keeps ha ..)
  case reset => exact .inl (onCarver_keeps ha ..)
  case carverStats => exact .inl (onCarver_keeps ha ..)
  all_goals exact False.elim hr

/-! ## Drops -/

/-- The client's own carver under the label is let go of, or something else is put there. -/
inductive LetsGo (w : Workspace H) (label : String) : Request → Prop where
  | letGo : LetsGo w label (.letGo label)
  | build {strategy : Strategy} {total : Nat} {alignment : Alignment} {reply : Reply}
    (reply : (w.perform (.build label strategy total alignment)).1 = .ok reply) :
    LetsGo w label (.build label strategy total alignment)
  | get {name : String} {strategy : Strategy} {total : Nat} {alignment : Option Alignment} {reply : Reply}
    (reply : (w.perform (.get label name strategy total alignment)).1 = .ok reply) :
    LetsGo w label (.get label name strategy total alignment)
  | remove {name : String} (reply : (w.perform (.remove name (some label))).1 = .ok (.flag true)) :
    LetsGo w label (.remove name (some label))

/-- The request ends a pool or an object pool in which blocks of these ids wait. -/
inductive Drops (w : Workspace H) : Request → List Nat → Prop where
  | pool {label : String} {p : Pool} (holds : w.pools.lookup label = some p) :
    Drops w (.dropPool label) p.kept
  | replaced {label : String} {blockSize limit : Nat} {alignment : Alignment} {p : Pool} {reply : Reply}
    (holds : w.pools.lookup label = some p)
    (reply : (w.perform (.makePool label blockSize alignment limit)).1 = .ok reply) :
    Drops w (.makePool label blockSize alignment limit) p.kept
  | own {request : Request} {label : String} {c : Carver} (holds : w.holdings.lookup label = some (.own c))
    (lets : w.LetsGo label request) : Drops w request c.waiting
  | shared {request : Request} {a : Allocator} (holds : a ∈ w.registry.allocators)
    (ends : ¬ (w.perform request).2.registry.Keeps a.serial) : Drops w request a.carver.waiting

theorem gone_letGo (hl : w.holdings.lookup label = some (.own c)) (hid : id ∈ c.waiting)
    (hlt : id < w.tracker.nextId) : (w.letGo label).tracker.Gone id := by
  simp only [letGo, hl]
  exact (steps_settle _).gone (Carver.gone_dispose hid hlt)

theorem gone_hold (hl : w.holdings.lookup label = some (.own c)) (hid : id ∈ c.waiting)
    (hlt : id < w.tracker.nextId) (holding : Holding) : (w.hold label holding).tracker.Gone id := by
  simp only [hold, hl]
  exact (steps_settle _).gone (Carver.gone_dispose hid hlt)

theorem LetsGo.gone (h : w.LetsGo label request) (hl : w.holdings.lookup label = some (.own c))
    (hid : id ∈ c.waiting) (hlt : id < w.tracker.nextId) : (w.perform request).2.tracker.Gone id := by
  cases h with
  | letGo => exact gone_letGo hl hid hlt
  | @build strategy total alignment _ reply =>
    have hsteps := Carver.steps_build w.tracker strategy total alignment
    simp only [perform, Workspace.build] at reply ⊢
    split at reply
    · cases reply
    · next c' t hb =>
      rw [hb] at hsteps
      exact gone_hold (w := { w with tracker := t }) hl hid (Nat.lt_of_lt_of_le hlt hsteps.nextId_le) _
  | @get name strategy total alignment _ reply =>
    have hsteps := w.registry.steps_get w.tracker name strategy total (alignment.getD w.registry.alignment)
    simp only [perform, Workspace.get] at reply ⊢
    split at reply
    · cases reply
    · next a r t hr =>
      rw [hr] at hsteps
      exact gone_hold (w := { w with registry := r, tracker := t }) hl hid
        (Nat.lt_of_lt_of_le hlt hsteps.nextId_le) _
  | @remove name reply =>
    simp only [perform, Workspace.remove] at reply ⊢
    split at reply
    · cases reply
    · exact gone_hold (w := { w with registry := w.registry.remove name }) hl hid hlt _

/-- What waits in a pool when it is dropped is dead afterwards. -/
theorem Drops.gone (h : w.Drops request ids) (hw : w.InOrder) (hid : id ∈ ids) :
    (w.perform request).2.tracker.Gone id := by
  have hpool {label : String} {p : Pool} (hl : w.pools.lookup label = some p) (hid : id ∈ p.kept) :
      id < w.tracker.nextId := hw.waiting id (mem_waiting.mpr (.inl ⟨_, mem_of_lookup hl, hid⟩))
  cases h with
  | pool holds =>
    simp only [perform, dropPool, holds]
    exact Pool.gone_dispose hid (hpool holds hid)
  | replaced holds reply =>
    simp only [perform] at reply ⊢
    split at reply
    · cases reply
    · simp only [holdPool, holds]
      exact Pool.gone_dispose hid (hpool holds hid)
  | own holds lets =>
    have hc := mem_carvers.mpr ⟨_, w.throughout_seats.own _ (mem_of_lookup holds) _ rfl⟩
    exact lets.gone holds hid (hw.waiting id (mem_waiting.mpr (.inr ⟨_, hc, hid⟩)))
  | shared holds ends => exact (perform_keeps_or_gone hw holds hid request).resolve_left ends

end Workspace

end TrackedHeap
