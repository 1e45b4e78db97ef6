import Mathlib.Data.List.Induction
import TrackedHeap.Heap.Bump
import TrackedHeap.Proofs.ObjectPool.Run
import TrackedHeap.Proofs.Ownership.Carver
import TrackedHeap.Proofs.Pool.Run
import TrackedHeap.Proofs.Tracker.Stale
import TrackedHeap.Proofs.Workspace.Members
import TrackedHeap.Proofs.Workspace.Stale

/-!
# Blocks that wait to be handed out again

A block that waits in a pool or an object pool is registered with the tracker like any other, and a copy of
its handle, or a request that returns everything, can take it out of use there. Whether a block is live is
looked at when it is put into a queue and not when it leaves it. So what is handed out is live exactly if it
was not taken out of use while it waited (`Workspace.handed_out_live_iff`).
-/

namespace TrackedHeap

variable {H : Type}

/-- The blocks that wait in an object pool. -/
def Carver.waiting : Carver → List Nat
  | objectPool p => p.waiting
  | _ => []

/-- The block of the id is one of some, or live. -/
def Tracker.Known (t : Tracker H) (before : List Nat) (id : Nat) : Prop :=
  id ∈ before ∨ (t.lookup id).isSome

variable [Heap H]

/-- Only live blocks are put into the queue of a pool. -/
theorem Pool.invariant_kept (t : Tracker H) (before : List Nat) :
    Pool.Invariant t fun p => ∀ id ∈ p.kept, t.Known before id where
  make hm _ hid := absurd (kept_of_make hm ▸ hid) List.not_mem_nil
  acquire {p} h id hid := (kept_act (s := (p, t)) (a := .acquire) hid).elim (h id) .inr
  release {p} handle h id hid := (kept_act (s := (p, t)) (a := .release handle) hid).elim (h id) .inr
  clear {p} h id hid := (kept_act (s := (p, t)) (a := .clear) hid).elim (h id) .inr

namespace Carver

theorem waiting_of_build {t t' : Tracker H} {strategy : Strategy} {total : Nat} {alignment : Alignment}
    {c : Carver} (hb : Carver.build t strategy total alignment = (.ok c, t')) : c.waiting = [] := by
  cases strategy with
  | objectPool =>
    obtain ⟨p, hm, rfl⟩ := built_ok hb
    exact congrArg (List.map _) (ObjectPool.queued_of_make (Prod.mk.inj hm).1)
  | _ =>
    obtain ⟨c, -, rfl⟩ := built_ok hb
    rfl

/-- Only live blocks are put into the queues of an object pool. -/
theorem invariant_waiting (t : Tracker H) (before : List Nat) :
    Carver.Invariant t fun c => ∀ id ∈ c.waiting, t.Known before id where
  build hb _ hid := absurd (waiting_of_build hb ▸ hid) List.not_mem_nil
  allocate {c} size h id hid := by
    cases c with
    | objectPool p => exact (ObjectPool.waiting_act (s := (p, t)) (a := .allocate size) hid).elim (h id) .inr
    | _ => exact absurd hid List.not_mem_nil
  release {c} handle h id hid := by
    cases c with
    | objectPool p => exact (ObjectPool.waiting_act (s := (p, t)) (a := .release handle) hid).elim (h id) .inr
    | _ => exact absurd hid List.not_mem_nil
  reset {c} t' h id hid := by
    cases c with
    | objectPool p => exact absurd hid List.not_mem_nil
    | _ => exact absurd hid List.not_mem_nil

end Carver

namespace ObjectPool

/-- A block that is handed out waited, or is a new one of the tracker. -/
theorem allocate_ok {p : ObjectPool} {t : Tracker H} {size : Nat} {c : CarveOut}
    (h : (p.allocate t size).1 = .ok c) :
    (c.block.id ∈ p.waiting ∧ (p.allocate t size).2.2 = t) ∨
      (p.allocate t size).2.2.isLive c.block = true := by
  have hchange := change_allocate p t size
  have hact : (act (p, t) (.allocate size)).1 = .ok (.range c) := congrArg (Except.map Answer.range) h
  rw [show (p.allocate t size).2.2 = (act (p, t) (.allocate size)).2.2 from rfl]
  generalize act (p, t) (.allocate size) = o at hchange hact ⊢
  cases hchange with
  | refused => cases hact
  | reused size c p' hfirst hq ho =>
    cases hact
    exact .inl ⟨List.mem_map_of_mem (List.mem_of_find?_eq_some hfirst), rfl⟩
  | adopted size block p' t' hnone hq ho hid hreq hblocks hnext =>
    cases hact
    exact .inr (Tracker.isLive_of_concat hblocks)

end ObjectPool

namespace Workspace

variable {w : Workspace H} {request : Request} {id : Nat} {b : Block}

omit [Heap H] in
/-- The blocks that wait in pools and object pools. -/
def waiting (w : Workspace H) : List Nat :=
  w.pooled ++ w.carvers.flatMap Carver.waiting

omit [Heap H] in
theorem mem_waiting : id ∈ w.waiting ↔
    (∃ x ∈ w.pools, id ∈ x.2.kept) ∨ ∃ c ∈ w.carvers, id ∈ c.waiting := by
  rw [waiting, List.mem_append, pooled, List.mem_flatMap, List.mem_flatMap]

/-- A block that waits did so before the last request, or was live then. -/
theorem known_of_waiting (h : id ∈ (w.perform request).2.waiting) : w.tracker.Known w.waiting id := by
  rcases mem_waiting.mp h with ⟨x, hx, hid⟩ | ⟨c, hc, hid⟩
  · refine forall_pools_perform (Pool.invariant_kept w.tracker w.waiting) (fun x hx id hid => ?_) request
      x hx id hid
    exact .inl (mem_waiting.mpr (.inl ⟨x, hx, hid⟩))
  · refine forall_carvers_perform (Carver.invariant_waiting w.tracker w.waiting) (fun c hc id hid => ?_)
      request c hc id hid
    exact .inl (mem_waiting.mpr (.inr ⟨c, hc, hid⟩))

/-- The request takes a live block out of use, and leaves it waiting. -/
structure Disturbs (w : Workspace H) (request : Request) (id : Nat) : Prop where
  live : (w.tracker.lookup id).isSome
  dead : (w.perform request).2.tracker.lookup id = none
  waits : id ∈ (w.perform request).2.waiting

/-- The request is answered with a block by a pool, or with a range in the block by an object pool. -/
inductive HandsOut (w : Workspace H) : Request → Block → Prop where
  | pool {label : String} {b : Block} (reply : (w.perform (.acquire label)).1 = .ok (.block b)) :
    HandsOut w (.acquire label) b
  | objectPool {label : String} {size : Nat} {p : ObjectPool} {c : CarveOut}
    (holds : w.carver? label = some (.objectPool p))
    (reply : (w.perform (.carve label size)).1 = .ok (.carveOut c)) :
    HandsOut w (.carve label size) c.block

omit [Heap H] in
/-- A reply of a pool is the answer of the one under the label. -/
theorem onPool_ok {α : Type} {label : String} {reply : α → Reply} {r : Reply}
    {act : Pool → Tracker H → Outcome α (Pool × Tracker H)} (h : (w.onPool label reply act).1 = .ok r) :
    ∃ p a, w.pools.lookup label = some p ∧ (act p w.tracker).1 = .ok a ∧ reply a = r ∧
      (w.onPool label reply act).2.tracker = (act p w.tracker).2.2 := by
  unfold onPool at h ⊢
  split at h
  · cases h
  · next p hl =>
    rcases ha : act p w.tracker with ⟨e | a, p', t'⟩ <;> rw [ha] at h
    · cases h
    · exact ⟨p, a, hl, congrArg Prod.fst ha, Except.ok.inj h, (congrArg (·.2.2) ha).symm⟩

omit [Heap H] in
/-- A reply of a carver is the answer of the one under the label. -/
theorem onCarver_ok {α : Type} {label : String} {reply : α → Reply} {r : Reply}
    {act : Carver → Tracker H → Outcome α (Carver × Tracker H)}
    (h : (w.onCarver label reply act).1 = .ok r) :
    ∃ c a, w.carver? label = some c ∧ (act c w.tracker).1 = .ok a ∧ reply a = r ∧
      (w.onCarver label reply act).2.tracker = (act c w.tracker).2.2 := by
  unfold onCarver at h ⊢
  split at h
  · cases h
  · next c hl =>
    rcases ha : act c w.tracker with ⟨e | a, c', t'⟩ <;> rw [ha] at h
    · cases h
    · exact ⟨c, a, hl, congrArg Prod.fst ha, Except.ok.inj h,
        (setCarver_tracker ..).trans (congrArg (·.2.2) ha).symm⟩

/-- What is handed out waited, and the tracker was not asked, or is live. -/
theorem HandsOut.waited_or_live (h : w.HandsOut request b) :
    (b.id ∈ w.waiting ∧ (w.perform request).2.tracker = w.tracker) ∨
      (w.perform request).2.tracker.isLive b = true := by
  cases h with
  | pool reply =>
    obtain ⟨p, b', hl, hok, hb, htracker⟩ := onPool_ok reply
    cases hb
    simp only [perform, htracker]
    rcases Pool.acquire_ok hok with ⟨hmem, heq⟩ | ha
    · exact .inl ⟨mem_waiting.mpr (.inl ⟨_, mem_of_lookup hl, List.mem_map_of_mem hmem⟩), heq⟩
    · exact .inr (Tracker.isLive_of_concat (Tracker.allocate_ok ha).1)
  | objectPool holds reply =>
    obtain ⟨c, range, hc, hok, hrange, htracker⟩ := onCarver_ok reply
    cases holds.symm.trans hc
    cases hrange
    simp only [perform, htracker]
    obtain ⟨seat, -, hseat⟩ := w.throughout_seats.carver holds
    have hmem := mem_carvers.mpr ⟨seat, hseat⟩
    rcases ObjectPool.allocate_ok hok with ⟨hwaits, heq⟩ | hlive
    · exact .inl ⟨mem_waiting.mpr (.inr ⟨_, hmem, hwaits⟩), heq⟩
    · exact .inr hlive

/-! ## Runs -/

/-- The run takes the block out of use while it waits. -/
def DisturbedIn (w : Workspace H) (requests : List Request) (id : Nat) : Prop :=
  ∃ past request, past ++ [request] <+: requests ∧ (w.run past).Disturbs request id

theorem run_concat (w : Workspace H) (requests : List Request) (request : Request) :
    w.run (requests ++ [request]) = ((w.run requests).perform request).2 :=
  w.run_append requests [request]

/-- A block that waits is live, or was taken out of use while it waited. -/
theorem live_or_disturbed {requests : List Request} (hstart : w.waiting = [])
    (h : id ∈ (w.run requests).waiting) :
    ((w.run requests).tracker.lookup id).isSome ∨ w.DisturbedIn requests id := by
  induction requests using List.reverseRecOn with
  | nil => exact absurd (hstart ▸ h) List.not_mem_nil
  | append_singleton requests request ih =>
    rw [run_concat] at h ⊢
    by_cases hlive : (((w.run requests).perform request).2.tracker.lookup id).isSome
    · exact .inl hlive
    · refine .inr ?_
      by_cases hbefore : ((w.run requests).tracker.lookup id).isSome
      · exact ⟨requests, request, List.prefix_refl _, hbefore, Option.not_isSome_iff_eq_none.mp hlive, h⟩
      · have hwaited := (known_of_waiting h).resolve_right hbefore
        obtain ⟨past, earlier, hpast, hd⟩ := (ih hwaited).resolve_left hbefore
        exact ⟨past, earlier, hpast.trans (List.prefix_append _ _), hd⟩

/-- What was taken out of use stays so. -/
theorem DisturbedIn.dead {requests : List Request} (h : w.DisturbedIn requests id)
    (hw : w.tracker.Assigned) (later : List Request) :
    (w.run (requests ++ later)).tracker.lookup id = none := by
  obtain ⟨past, request, ⟨rest, rfl⟩, hd⟩ := h
  have hassigned := (steps_run w past).assigned hw
  have hgone := (steps_perform (w.run past) request).gone_of_lookup hassigned hd.live hd.dead
  rw [run_append, run_append, run_concat]
  exact ((steps_run _ later).gone ((steps_run _ rest).gone hgone)).unknown

/-- Whatever is asked of a workspace, what a pool or an object pool hands out is live exactly if it was not
taken out of use while it waited. -/
theorem handed_out_live_iff (heap : H) (budget : Option Nat) (alignment : Alignment)
    {requests : List Request} {request : Request} {b : Block}
    (h : ((opened heap budget alignment).run requests).HandsOut request b) :
    ((opened heap budget alignment).run (requests ++ [request])).tracker.isLive b = true ↔
      ¬ (opened heap budget alignment).DisturbedIn requests b.id := by
  have hassigned : (opened heap budget alignment).tracker.Assigned :=
    Tracker.assigned_ofHeap heap budget
  have hstart : (opened heap budget alignment).waiting = [] := rfl
  generalize opened heap budget alignment = w at *
  constructor
  · intro hlive hd
    rw [Tracker.isLive, hd.dead hassigned [request]] at hlive
    cases hlive
  · intro hd
    rw [run_concat]
    rcases h.waited_or_live with ⟨hwaits, heq⟩ | hlive
    · rw [heq]
      exact (live_or_disturbed hstart hwaits).resolve_right hd
    · exact hlive

/-- A block that a pool kept comes back live, other blocks having been returned meanwhile. -/
theorem handed_out_live_undisturbed :
    let w := opened (BumpHeap.ofPlan {}) none .byte
    let b : Block := .place 1 65536 8 8 .byte 0
    let requests : List Request :=
      [.makePool "p" 8 .byte 2, .acquire "p", .allocate 8 .byte, .release "p" b,
        .free (.place 2 0 0 0 .byte 0)]
    (w.run requests).HandsOut (.acquire "p") b ∧ ¬ w.DisturbedIn requests b.id := by
  intro w b requests
  have h : (w.run requests).HandsOut (.acquire "p") b := .pool rfl
  refine ⟨h, (handed_out_live_iff (BumpHeap.ofPlan {}) none .byte h).mp ?_⟩
  decide +kernel

/-- A block is returned to the tracker while it waits in a pool, and one while it waits in an object pool. Both
are handed out, and neither is live. -/
theorem handed_out_dead :
    let w := opened (BumpHeap.ofPlan {}) none .byte
    let b : Block := .place 1 65536 8 8 .byte 0
    let kept : List Request := [.makePool "p" 8 .byte 2, .acquire "p", .release "p" b, .free b]
    let queued : List Request :=
      [.build "o" .objectPool 100 .byte, .carve "o" 8, .giveBack "o" (.whole b), .free b]
    ((w.run kept).HandsOut (.acquire "p") b ∧
        (w.run (kept ++ [.acquire "p"])).tracker.isLive b = false) ∧
      (w.run queued).HandsOut (.carve "o" 8) b ∧
        (w.run (queued ++ [.carve "o" 8])).tracker.isLive b = false := by
  intro w b kept queued
  refine ⟨⟨.pool rfl, by decide +kernel⟩, ?_, by decide +kernel⟩
  exact .objectPool (c := .whole b) (p := _) rfl rfl

end Workspace

end TrackedHeap
