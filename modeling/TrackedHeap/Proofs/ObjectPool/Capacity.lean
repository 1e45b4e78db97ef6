import Mathlib.Algebra.BigOperators.Group.List.Basic
import TrackedHeap.Heap.Bump
import TrackedHeap.Proofs.ObjectPool.Account

/-!
# What the capacity of an object pool is charged with

A reset returns what waits and gives its capacity back, whatever became of those blocks meanwhile. What clients have
stays charged. If such a block is dead by then, because somebody freed or resized it, it is charged as well, and for
good: its range cannot come back, since the pool takes back live blocks only (`ObjectPool.run_charged`).
-/

namespace TrackedHeap.ObjectPool

variable {H : Type}

/-- The bytes of the live blocks that the pool took. -/
def liveBytes (s : ObjectPool × Tracker H) (n : Account) : Nat :=
  ((s.2.blocks.filter fun b => b.id ∈ n.issued.map fun c => c.block.id).map Block.requestedSize).sum

/-- The bytes of the ranges whose blocks are dead. -/
def deadBytes (t : Tracker H) (ranges : List CarveOut) : Nat :=
  ((ranges.filter fun c => ¬ t.isLive c.block).map CarveOut.requestedSize).sum

theorem deadBytes_eq_zero_iff {t : Tracker H} {ranges : List CarveOut} (hpos : ∀ c ∈ ranges, 0 < c.requestedSize) :
    deadBytes t ranges = 0 ↔ ∀ c ∈ ranges, t.isLive c.block = true := by
  unfold deadBytes
  rw [List.sum_eq_zero_iff_forall_eq_nat, List.forall_mem_map]
  constructor
  · intro hzero c hc
    by_contra hdead
    have hsize := hzero c (List.mem_filter.mpr ⟨hc, decide_eq_true hdead⟩)
    exact absurd hsize (Nat.ne_of_gt (hpos c hc))
  · intro hlive c hc
    obtain ⟨hc, hdead⟩ := List.mem_filter.mp hc
    exact absurd (hlive c hc) (of_decide_eq_true hdead)

/-- The pool is charged with the live blocks that it took and with those that died in its ranges. -/
theorem Traced.used_eq {p : ObjectPool} {t : Tracker H} {n : Account} (h : Traced p t n)
    (hr : t.blocks.Pairwise fun b c => b.id < c.id) :
    p.used = liveBytes (p, t) n + deadBytes t (p.queued ++ n.out) := by
  have hlive : (((p.queued ++ n.out).filter fun c => t.isLive c.block).map CarveOut.requestedSize).sum =
      liveBytes (p, t) n := by
    calc (((p.queued ++ n.out).filter fun c => t.isLive c.block).map CarveOut.requestedSize).sum
        = ((((p.queued ++ n.out).filter fun c => t.isLive c.block).map CarveOut.block).map
            Block.requestedSize).sum := by
          rw [List.map_map]
          refine congrArg List.sum (List.map_congr_left fun c hc => ?_)
          exact congrArg CarveOut.requestedSize (h.whole c (h.given c (List.mem_of_mem_filter hc)))
      _ = ((t.blocks.filter fun b => b.id ∈ p.owned).map Block.requestedSize).sum :=
          ((h.perm_live hr).map _).sum_nat.symm
      _ = liveBytes (p, t) n := by
          unfold liveBytes
          rw [List.filter_congr fun b hb => decide_eq_decide.mpr (h.mem_owned_iff hb)]
  calc p.used = ((p.queued ++ n.out).map CarveOut.requestedSize).sum := h.used
    _ = (((p.queued ++ n.out).filter fun c => t.isLive c.block).map CarveOut.requestedSize).sum +
        deadBytes t (p.queued ++ n.out) := by
        rw [← List.sum_map_filter_add_sum_map_filter_not fun c => t.isLive c.block = true]
        simp only [deadBytes, Bool.decide_eq_true]
    _ = liveBytes (p, t) n + deadBytes t (p.queued ++ n.out) := by rw [hlive]

variable [Heap H] {s : ObjectPool × Tracker H} {n : Account} {c : CarveOut}

/-! ## Ranges of dead blocks -/

/-- A client has the range, and its block is dead. -/
structure Lost (s : ObjectPool × Tracker H) (n : Account) (c : CarveOut) : Prop where
  out : c ∈ n.out
  gone : s.2.Gone c.block.id

/-- The range of a dead block stays where it is, since only live ones come back. -/
theorem Lost.act (h : Lost s n c) (a : Act) : Lost (act s a).2 (n.after s a) c where
  gone := (steps_act s a).gone h.gone
  out := by
    obtain ⟨p, t⟩ := s
    cases a with
    | tracker a => exact h.out
    | reset => exact h.out
    | allocate size =>
      show c ∈ CarveOut.taken (p.allocate t size).1 n.out
      cases (p.allocate t size).1 with
      | ok d => exact List.mem_cons_of_mem _ h.out
      | error e => exact h.out
    | release handle =>
      show c ∈ CarveOut.returned (p.release t handle).1 handle n.out
      fun_cases ObjectPool.release p t handle
      case case5 id howned hsize hlive hholds =>
        refine CarveOut.mem_returned_ok.mpr ⟨h.out, fun hid => absurd hlive ?_⟩
        rw [Tracker.isLive_eq_false_iff.mpr (hid ▸ h.gone.unknown)]
        exact not_not_intro rfl
      all_goals exact h.out

theorem Lost.run (h : Lost s n c) (acts : List Act) : Lost (run s acts) (accountFrom s n acts) c := by
  induction acts generalizing s n with
  | nil => exact h
  | cons a acts ih => exact ih (h.act a)

/-! ## Runs -/

/-- What the capacity of a pool is charged with in a run. -/
structure Charged (s : ObjectPool × Tracker H) (acts : List Act) : Prop where
  /-- After a reset these are the live blocks that it took, and the dead ones that clients had. -/
  after_reset : ∀ past, past ++ [.reset] <+: acts →
    (run s (past ++ [.reset])).1.used = liveBytes (run s (past ++ [.reset])) (account s (past ++ [.reset])) +
      deadBytes (run s (past ++ [.reset])).2 (account s (past ++ [.reset])).out
  /-- They are the live ones alone exactly if the blocks of all ranges that clients have are live. -/
  live_iff : ∀ past, past ++ [.reset] <+: acts →
    ((run s (past ++ [.reset])).1.used = liveBytes (run s (past ++ [.reset])) (account s (past ++ [.reset])) ↔
      ∀ c ∈ (account s (past ++ [.reset])).out, (run s (past ++ [.reset])).2.isLive c.block = true)
  /-- What died with a client stays charged. -/
  lasting : ∀ past later, past ++ later <+: acts → ∀ c ∈ (account s past).out, (run s past).2.isLive c.block = false →
    c ∈ (account s (past ++ later)).out ∧ (run s (past ++ later)).2.isLive c.block = false

/-- In every run, whatever others do to the blocks of a pool, it is charged after a reset with its live blocks, and
with those that died while clients had them. -/
theorem run_charged {p : ObjectPool} {total : Nat} {alignment : Alignment} (hm : make total alignment = .ok p)
    {heap : H} {budget : Option Nat} {t : Tracker H} (ht : Tracker.Steps (.ofHeap heap budget) t) {acts : List Act}
    (hg : Along Genuine (p, t) {} acts) : Charged (p, t) acts := by
  have hstart : Traced p t {} := traced_of_make hm (ht.numbered (Tracker.numbered_ofHeap heap budget))
  have htraced {past : List Act} (hp : past <+: acts) :
      Traced (run (p, t) past).1 (run (p, t) past).2 (account (p, t) past) := by
    obtain ⟨later, rfl⟩ := hp
    exact hstart.run hg.append.1
  have hused {past : List Act} (hp : past ++ [.reset] <+: acts) :
      (run (p, t) (past ++ [.reset])).1.used =
        liveBytes (run (p, t) (past ++ [.reset])) (account (p, t) (past ++ [.reset])) +
          deadBytes (run (p, t) (past ++ [.reset])).2 (account (p, t) (past ++ [.reset])).out := by
    have hsum := (htraced hp).used_eq (rising_run ht p _)
    rwa [queued_run_reset, List.nil_append] at hsum
  constructor
  case after_reset => exact fun past hp => hused hp
  case live_iff =>
    intro past hp
    have hend := htraced hp
    rw [hused hp, Nat.add_eq_left, deadBytes_eq_zero_iff]
    exact fun c hc => hend.size_pos c (hend.given c (List.mem_append_right _ hc))
  case lasting =>
    intro past later hp c hc hdead
    have hpast := htraced ((List.prefix_append past later).trans hp)
    have hlost : Lost (run (p, t) past) (account (p, t) past) c :=
      ⟨hc, hpast.assigned c (hpast.given c (List.mem_append_right _ hc)), Tracker.isLive_eq_false_iff.mp hdead⟩
    have hend := hlost.run later
    rw [account_append, run_append]
    exact ⟨hend.out, Tracker.isLive_eq_false_iff.mpr hend.gone.unknown⟩

/-- One block dies while it waits and costs nothing after the reset. Another one dies with its client and is charged
after the next reset, next to the one that is live. -/
theorem run_charged_dead :
    let p : ObjectPool := { alignment := .byte, total := 100 }
    let t : Tracker BumpHeap := .ofHeap (.ofPlan {}) none
    let first : CarveOut := .whole (.place 1 65536 64 64 .byte 0)
    let second : CarveOut := .whole (.place 2 65600 16 16 .byte 0)
    let before : List Act := [.allocate 64, .allocate 16, .release second, .tracker (.free second.block)]
    let between : List Act := [.allocate 32, .tracker (.reallocate first.block 80)]
    let acts := before ++ .reset :: between ++ [.reset]
    ((run (p, t) (before ++ [.reset])).1.used = 64 ∧
        ∀ c ∈ (account (p, t) (before ++ [.reset])).out, (run (p, t) (before ++ [.reset])).2.isLive c.block = true) ∧
      (run (p, t) acts).1.used = 96 ∧ liveBytes (run (p, t) acts) (account (p, t) acts) = 32 ∧
      deadBytes (run (p, t) acts).2 (account (p, t) acts).out = 64 := by
  intro p t first second before between acts
  have hcharged : Charged (p, t) acts :=
    run_charged (show make 100 .byte = .ok p from rfl) (.refl : Tracker.Steps (.ofHeap (.ofPlan {}) none) t)
      (by decide +kernel)
  have hfirst : before ++ [.reset] <+: acts :=
    ⟨between ++ [.reset], by simp only [acts, List.append_assoc, List.cons_append, List.nil_append]⟩
  have hused : (run (p, t) (before ++ [.reset])).1.used = 64 := by decide +kernel
  have hexact : (run (p, t) (before ++ [.reset])).1.used =
      liveBytes (run (p, t) (before ++ [.reset])) (account (p, t) (before ++ [.reset])) := by decide +kernel
  have hlive : liveBytes (run (p, t) acts) (account (p, t) acts) = 32 := by decide +kernel
  have hdead : deadBytes (run (p, t) acts).2 (account (p, t) acts).out = 64 := by decide +kernel
  have hsum := hcharged.after_reset (before ++ .reset :: between) (List.prefix_refl acts)
  rw [show before ++ .reset :: between ++ [.reset] = acts from rfl, hlive, hdead] at hsum
  exact ⟨⟨hused, (hcharged.live_iff before hfirst).mp hexact⟩, hsum, hlive, hdead⟩

/-- A client frees its block at the tracker. No block is live then, and no reset makes room again. -/
theorem run_charged_lost :
    let p : ObjectPool := { alignment := .byte, total := 100 }
    let t : Tracker BumpHeap := .ofHeap (.ofPlan {}) none
    let block : Block := .place 1 65536 64 64 .byte 0
    let acts : List Act := [.allocate 64, .tracker (.free block), .reset]
    let s := run (p, t) acts
    make 100 .byte = .ok p ∧ (act (p, t) (.allocate 64)).1 = .ok (.range (.whole block)) ∧
      Along Genuine (p, t) {} acts ∧ s.2.blocks = [] ∧ liveBytes s (account (p, t) acts) = 0 ∧ s.1.used = 64 ∧
      (act s (.allocate 64)).1 = .error (.outOfMemory 64 36) := by
  refine ⟨rfl, ?_⟩
  decide +kernel

end TrackedHeap.ObjectPool
