import Mathlib.Data.List.Induction
import Mathlib.Order.Bounds.Basic
import TrackedHeap.Heap.Bump
import TrackedHeap.Proofs.ObjectPool.Account

/-!
# How many blocks an object pool has, and in which order they come back

A pool takes a new block of a size only when none waits, so since it was last empty of waiting ranges it has as many
blocks of a size as clients had at once at the worst moment. The ranges of one size are handed out again in the
order in which they came back (`ObjectPool.run_peak`).

Handles that come back must be ones that were given out, and others must leave the blocks of the pool live.
-/

namespace TrackedHeap.ObjectPool

variable {H : Type}

/-- The number of ranges of a size that clients have. -/
def Account.demand (n : Account) (size : Nat) : Nat :=
  n.out.countP fun c => c.requestedSize == size

/-- The number of live blocks of a size that the pool has. -/
def supply (s : ObjectPool × Tracker H) (size : Nat) : Nat :=
  s.2.blocks.countP fun b => decide (b.id ∈ s.1.owned) && b.requestedSize == size

/-- The number of ranges of a size, waiting ones and those of clients. -/
def ranges (p : ObjectPool) (n : Account) (size : Nat) : Nat :=
  (p.queued ++ n.out).countP fun c => c.requestedSize == size

/-- The blocks of all ranges are live. -/
def Intact (p : ObjectPool) (t : Tracker H) (n : Account) : Prop :=
  ∀ c ∈ p.queued ++ n.out, c.block ∈ t.blocks

theorem demand_le_ranges (p : ObjectPool) (n : Account) (size : Nat) : n.demand size ≤ ranges p n size := by
  unfold ranges
  rw [List.countP_append]
  exact Nat.le_add_left _ _

/-- As many blocks as ranges. -/
theorem Traced.supply_eq {p : ObjectPool} {t : Tracker H} {n : Account} (h : Traced p t n) (hi : Intact p t n)
    (hr : t.blocks.Pairwise fun b c => b.id < c.id) (size : Nat) : supply (p, t) size = ranges p n size := by
  have hlive : (p.queued ++ n.out).filter (fun c => t.isLive c.block) = p.queued ++ n.out :=
    List.filter_eq_self.mpr fun c hc => Tracker.isSome_lookup_iff.mpr (List.mem_map_of_mem (hi c hc))
  have hperm := h.perm_live hr
  rw [hlive] at hperm
  calc supply (p, t) size
      = (t.blocks.filter fun b => b.id ∈ p.owned).countP fun b => b.requestedSize == size := by
        rw [List.countP_filter]
        exact List.countP_congr fun b _ => by rw [Bool.and_comm]
    _ = ((p.queued ++ n.out).map CarveOut.block).countP fun b => b.requestedSize == size := hperm.countP_eq _
    _ = ranges p n size := by
        rw [List.countP_map]
        refine List.countP_congr fun c hc => ?_
        rw [h.whole c (h.given c hc)]
        exact Iff.rfl

/-! ## One operation -/

variable [Heap H] {s : ObjectPool × Tracker H} {n : Account}

/-- Others leave the blocks of the pool live. -/
def Spared (s : ObjectPool × Tracker H) (_ : Account) : Act → Prop
  | .tracker a => s.2.Keeps (s.2.act a).2 s.1.owned
  | _ => True

instance (s : ObjectPool × Tracker H) (n : Account) : DecidablePred (Spared s n)
  | .tracker a => inferInstanceAs (Decidable (∀ b ∈ s.2.blocks, b.id ∈ s.1.owned → b ∈ (s.2.act a).2.blocks))
  | .allocate _ => .isTrue trivial
  | .release _ => .isTrue trivial
  | .reset => .isTrue trivial

theorem Intact.act (hi : Intact s.1 s.2 n) (h : Traced s.1 s.2 n) {a : Act} (hg : Genuine s n a) (hs : Spared s n a) :
    Intact (act s a).2.1 (ObjectPool.act s a).2.2 (n.after s a) := by
  obtain ⟨p, t⟩ := s
  cases a with
  | tracker a => exact fun c hc => hs c.block (hi c hc) ((h.owned _).mpr (List.mem_map_of_mem hc))
  | allocate size =>
    show Intact (p.carve t size).2.1 (p.carve t size).2.2 (n.taken (p.carve t size).1)
    fun_cases ObjectPool.carve p t size
    case case1 => exact hi
    case case2 hsize c hfind =>
      exact fun d hd => hi d ((perm_reuse n.out (List.mem_of_find?_eq_some hfind)).mem_iff.mp hd)
    case case3 => exact hi
    case case4 hsize hnone hroom e t' ha =>
      intro c hc
      show c.block ∈ t'.blocks
      rw [(Tracker.allocate_error ha).1]
      exact hi c hc
    case case5 hsize hnone hroom block t' ha =>
      intro d hd
      show d.block ∈ t'.blocks
      rw [(Tracker.allocate_ok ha).1]
      rcases List.mem_cons.mp (List.perm_middle.mem_iff.mp hd) with rfl | hd
      · exact List.mem_concat_self
      · exact List.mem_append_left _ (hi d hd)
  | release handle => exact fun c hc => hi c ((h.perm_release hg).mem_iff.mp hc)
  | reset =>
    intro c hc
    have hout : c ∈ n.out := hc
    have hdistinct := h.distinct
    rw [List.map_append, List.nodup_append] at hdistinct
    show c.block ∈ (p.reset t).2.2.blocks
    rw [show (p.reset t).2.2 = _ from p.drain_tracker t p.queued]
    refine Tracker.mem_returnAll.mpr ⟨hi c (List.mem_append_right _ hout), fun hq => ?_⟩
    rw [List.map_map] at hq
    exact hdistinct.2.2 _ hq _ (List.mem_map_of_mem (f := fun c : CarveOut => c.block.id) hout) rfl

theorem Intact.run (hi : Intact s.1 s.2 n) (h : Traced s.1 s.2 n) {acts : List Act} (hg : Along Genuine s n acts)
    (hs : Along Spared s n acts) : Intact (run s acts).1 (ObjectPool.run s acts).2 (accountFrom s n acts) := by
  induction acts generalizing s n with
  | nil => exact hi
  | cons a acts ih => exact ih (hi.act h hg.1 hs.1) (h.act hg.1) hg.2 hs.2

/-- There are no fewer ranges of the size than before, and no more unless clients have them all. -/
def Grows (p : ObjectPool) (n : Account) (p' : ObjectPool) (n' : Account) (size : Nat) : Prop :=
  ranges p n size ≤ ranges p' n' size ∧ (ranges p' n' size = ranges p n size ∨ n'.demand size = ranges p' n' size)

theorem Grows.of_perm {p p' : ObjectPool} {n n' : Account} (hp : (p'.queued ++ n'.out).Perm (p.queued ++ n.out))
    (size : Nat) : Grows p n p' n' size := by
  have heq : ranges p' n' size = ranges p n size := hp.countP_eq _
  exact ⟨Nat.le_of_eq heq.symm, .inl heq⟩

/-- A new block is taken when none of its size waits. -/
theorem grows_adopt {p : ObjectPool} {asked : Nat} (hnone : (p.queued.find? fun c => c.requestedSize == asked) = none)
    (n : Account) (block : Block) (size : Nat) :
    Grows p n (p.adopt block asked) (n.taken (.ok ⟨block, 0, asked, asked⟩)) size := by
  have hmore : ranges (p.adopt block asked) (n.taken (.ok ⟨block, 0, asked, asked⟩)) size =
      ranges p n size + if asked == size then 1 else 0 :=
    (List.perm_middle.countP_eq _).trans List.countP_cons
  unfold Grows
  rw [hmore]
  refine ⟨Nat.le_add_right _ _, ?_⟩
  by_cases he : asked = size
  · have hwaiting : p.queued.countP (fun c => c.requestedSize == size) = 0 :=
      List.countP_eq_zero.mpr (he ▸ List.find?_eq_none.mp hnone)
    refine .inr ?_
    show List.countP _ (_ :: n.out) = List.countP _ _ + _
    rw [List.countP_cons, List.countP_append, hwaiting, Nat.zero_add]
  · exact .inl (by simp [he])

theorem grows_act (h : Traced s.1 s.2 n) {a : Act} (hg : Genuine s n a) (ha : a ≠ .reset) (size : Nat) :
    Grows s.1 n (act s a).2.1 (n.after s a) size := by
  obtain ⟨p, t⟩ := s
  cases a with
  | tracker a => exact .of_perm (.refl _) size
  | reset => exact absurd rfl ha
  | release handle => exact .of_perm (h.perm_release hg) size
  | allocate asked =>
    show Grows p n (p.carve t asked).2.1 (n.taken (p.carve t asked).1) size
    fun_cases ObjectPool.carve p t asked
    case case2 hsize c hfind => exact .of_perm (perm_reuse n.out (List.mem_of_find?_eq_some hfind)) size
    case case5 hsize hnone hroom block t' ha => exact grows_adopt hnone n block size
    all_goals exact .of_perm (.refl _) size

/-! ## The order of what waits -/

/-- The range that an operation returns to the queue of a size. -/
def returnedBy (s : ObjectPool × Tracker H) (size : Nat) : Act → List CarveOut
  | .release handle =>
    if handle.requestedSize = size ∧ (act s (.release handle)).1 = .ok .done then [handle] else []
  | _ => []

/-- The range that a request for a size gets, if its block is not a new one. -/
def reusedBy (s : ObjectPool × Tracker H) (size : Nat) : Act → List CarveOut
  | .allocate asked =>
    match (act s (.allocate asked)).1 with
    | .ok (.range c) => if asked = size ∧ c.block.id < s.2.nextId then [c] else []
    | _ => []
  | _ => []

/-- The ranges of a size that come back in a run, in their order. -/
def returnedIn (s : ObjectPool × Tracker H) (size : Nat) : List Act → List CarveOut
  | [] => []
  | a :: acts => returnedBy s size a ++ returnedIn (act s a).2 size acts

/-- The ranges that requests for a size get in a run, new blocks apart, in their order. -/
def reusedIn (s : ObjectPool × Tracker H) (size : Nat) : List Act → List CarveOut
  | [] => []
  | a :: acts => reusedBy s size a ++ reusedIn (act s a).2 size acts

omit [Heap H] in
/-- The range that is handed out is the first of its size. -/
theorem queue_eq_of_find? {p p' : ObjectPool} {asked : Nat} {c : CarveOut}
    (hf : (p.queued.find? fun c => c.requestedSize == asked) = some c) (he : p'.queued = p.queued.erase c)
    (size : Nat) : p.queue size = (if asked = size then [c] else []) ++ p'.queue size := by
  obtain ⟨hc, before, later, hq, hbefore⟩ := List.find?_eq_some_iff_append.mp hf
  have hsize : c.requestedSize = asked := beq_iff_eq.mp hc
  have hnot : c ∉ before := fun hm => by simpa [hsize] using hbefore c hm
  have hrest : p'.queued = before ++ later := by
    rw [he, hq, List.erase_append_right _ hnot, List.erase_cons_head]
  unfold queue
  rw [hrest, hq, List.filter_append, List.filter_append, List.filter_cons, hsize]
  by_cases hs : asked = size
  · have hnone : before.filter (fun d => d.requestedSize == size) = [] :=
      List.filter_eq_nil_iff.mpr fun d hd => by simpa [hs] using hbefore d hd
    simp [hs, hnone]
  · simp [hs]

/-- What waits is handed out in the order in which it came back. -/
theorem queue_act (h : Traced s.1 s.2 n) {a : Act} (ha : a ≠ .reset) (size : Nat) :
    s.1.queue size ++ returnedBy s size a = reusedBy s size a ++ (act s a).2.1.queue size := by
  have hsame {p' : ObjectPool} (hq : p'.queued = s.1.queued) : p'.queue size = s.1.queue size :=
    congrArg (List.filter _) hq
  have hchange := change_act s a
  cases a with
  | tracker a => exact List.append_nil _
  | reset => exact absurd rfl ha
  | release handle =>
    simp only [returnedBy, reusedBy]
    generalize act s (.release handle) = o at hchange ⊢
    cases hchange with
    | refused e p' t' hq => simp [hsame hq]
    | kept handle p' hoffset hmine hsize hlive habsent hq ho =>
      simp only [queue, hq, List.filter_append, List.filter_cons, List.filter_nil, and_true, beq_iff_eq,
        List.nil_append]
  | allocate asked =>
    simp only [returnedBy, reusedBy]
    generalize act s (.allocate asked) = o at hchange ⊢
    cases hchange with
    | refused e p' t' hq => simp [hsame hq]
    | reused asked c p' hfirst hq ho =>
      have hold := h.assigned c (h.given c (List.mem_append_left _ (List.mem_of_find?_eq_some hfirst)))
      simp only [hold, and_true, List.append_nil]
      exact queue_eq_of_find? hfirst hq size
    | adopted asked block p' t' hnone hq ho hid =>
      simp [hsame hq, hid]

theorem queue_run (h : Traced s.1 s.2 n) {acts : List Act} (hg : Along Genuine s n acts) (ha : .reset ∉ acts)
    (size : Nat) : s.1.queue size ++ returnedIn s size acts = reusedIn s size acts ++ (run s acts).1.queue size := by
  induction acts generalizing s n with
  | nil => exact List.append_nil _
  | cons a acts ih =>
    have hstep := queue_act h (fun he => ha (he ▸ List.mem_cons_self)) size (a := a)
    have hrest := ih (h.act hg.1) hg.2 fun hm => ha (List.mem_cons_of_mem _ hm)
    calc s.1.queue size ++ (returnedBy s size a ++ returnedIn (act s a).2 size acts)
        = reusedBy s size a ++ ((act s a).2.1.queue size ++ returnedIn (act s a).2 size acts) := by
          rw [← List.append_assoc, hstep, List.append_assoc]
      _ = (reusedBy s size a ++ reusedIn (act s a).2 size acts) ++ (run (act s a).2 acts).1.queue size := by
          rw [hrest, List.append_assoc]

/-- A request gets the range of its size that came back first, and the tracker is not asked. -/
theorem act_allocate_of_queue (h : Traced s.1 s.2 n) {size : Nat} {c : CarveOut} {later : List CarveOut}
    (hq : s.1.queue size = c :: later) :
    (act s (.allocate size)).1 = .ok (.range c) ∧ (act s (.allocate size)).2.1.queue size = later ∧
      (act s (.allocate size)).2.2 = s.2 := by
  obtain ⟨p, t⟩ := s
  obtain ⟨hc, hmatch⟩ := List.mem_filter.mp (show c ∈ p.queue size from hq ▸ List.mem_cons_self)
  have hfind : (p.queued.find? fun c => c.requestedSize == size) = some c := by
    rw [← List.head?_filter]
    exact congrArg List.head? hq
  have hsize : size ≠ 0 := by
    have hpos := h.size_pos c (h.given c (List.mem_append_left _ hc))
    have heq := beq_iff_eq.mp hmatch
    omega
  have hcarve : p.carve t size = (.ok c, p.reuse c, t) := by simp only [carve, hsize, hfind, if_false]
  have hrest : p.queue size = (if size = size then [c] else []) ++ (p.reuse c).queue size :=
    queue_eq_of_find? hfind rfl size
  rw [if_pos rfl, hq, List.singleton_append] at hrest
  simp only [act, allocate, hcarve]
  exact ⟨rfl, (List.cons.inj hrest).2.symm, trivial⟩

/-! ## The peak of the demand -/

/-- As many ranges of a size as clients had at once at the worst moment. -/
theorem isGreatest_ranges (h : Traced s.1 s.2 n) (hq : s.1.queued = []) {acts : List Act}
    (hg : Along Genuine s n acts) (ha : .reset ∉ acts) (size : Nat) :
    IsGreatest {d | ∃ past, past <+: acts ∧ d = (accountFrom s n past).demand size}
      (ranges (run s acts).1 (accountFrom s n acts) size) := by
  induction acts using List.reverseRecOn with
  | nil =>
    have heq : ranges s.1 n size = n.demand size := by
      unfold ranges Account.demand
      rw [hq, List.nil_append]
    refine ⟨⟨[], List.prefix_refl _, heq⟩, ?_⟩
    rintro d ⟨past, hpast, rfl⟩
    obtain rfl := List.prefix_nil.mp hpast
    exact Nat.le_of_eq heq.symm
  | append_singleton acts a ih =>
    obtain ⟨hacts, hlast⟩ := hg.append
    obtain ⟨⟨past, hpast, hmax⟩, hle⟩ := ih hacts fun hm => ha (List.mem_append_left _ hm)
    obtain ⟨hmono, hgrows⟩ := grows_act (h.run hacts) hlast.1
      (fun he => ha (he ▸ List.mem_append_right _ List.mem_cons_self)) size
    have hn : accountFrom s n (acts ++ [a]) = (accountFrom s n acts).after (run s acts) a :=
      accountFrom_append s n acts [a]
    rw [run_concat, hn]
    constructor
    · rcases hgrows with hsame | hpeak
      · exact ⟨past, hpast.trans (List.prefix_append _ _), hsame.trans hmax⟩
      · exact ⟨acts ++ [a], List.prefix_refl _, hpeak.symm.trans (by rw [hn])⟩
    · rintro d ⟨past, hpast, rfl⟩
      rcases List.prefix_concat_iff.mp hpast with rfl | hpast
      · rw [hn]
        exact demand_le_ranges _ _ _
      · exact Nat.le_trans (hle ⟨past, hpast, rfl⟩) hmono

/-! ## Runs -/

/-- What a pool needs for a stretch of operations, from a state with the account. -/
structure Frugal (s : ObjectPool × Tracker H) (n : Account) (acts : List Act) : Prop where
  /-- It has as many blocks of a size as clients had ranges at the worst moment. -/
  peak : ∀ size, IsGreatest {d | ∃ past, past <+: acts ∧ d = (accountFrom s n past).demand size}
    (supply (run s acts) size)
  /-- The blocks that it owns are live. -/
  live : ∀ id ∈ (run s acts).1.owned, ∃ b ∈ (run s acts).2.blocks, b.id = id
  /-- As long as a range of the size waits, a request gets the first one and leaves the tracker as it is. -/
  reuses : ∀ past, past <+: acts → ∀ size c later, (run s past).1.queue size = c :: later →
    (act (run s past) (.allocate size)).1 = .ok (.range c) ∧
      (act (run s past) (.allocate size)).2.1.queue size = later ∧
      (act (run s past) (.allocate size)).2.2 = (run s past).2
  /-- The ranges of a size that came back were handed out again in that order, and the rest waits. -/
  in_order : ∀ size, returnedIn s size acts = reusedIn s size acts ++ (run s acts).1.queue size

/-- Nothing waits after a reset, or at the start. -/
theorem queued_run_of_getLast? (hq : s.1.queued = []) {acts : List Act} (hr : ∀ a ∈ acts.getLast?, a = .reset) :
    (run s acts).1.queued = [] := by
  rcases List.eq_nil_or_concat acts with rfl | ⟨earlier, a, rfl⟩
  · exact hq
  · obtain rfl := hr a (by simp)
    rw [List.concat_eq_append]
    exact queued_run_reset s earlier

/-- From the start or a reset to the next one, a pool has of every size as many blocks as clients had at once at
the worst moment, takes a new one only when none waits, and hands out first what came back first. -/
theorem run_peak {p : ObjectPool} {total : Nat} {alignment : Alignment} (hm : make total alignment = .ok p)
    {heap : H} {budget : Option Nat} {t : Tracker H} (ht : Tracker.Steps (.ofHeap heap budget) t)
    {before stretch : List Act} (hstart : ∀ a ∈ before.getLast?, a = .reset) (hstretch : .reset ∉ stretch)
    (hg : Along Genuine (p, t) {} (before ++ stretch)) (hs : Along Spared (p, t) {} (before ++ stretch)) :
    Frugal (run (p, t) before) (account (p, t) before) stretch := by
  have htraced : Traced p t {} := traced_of_make hm (ht.numbered (Tracker.numbered_ofHeap heap budget))
  have hintact : Intact p t {} := by
    intro c hc
    rw [queued_of_make hm] at hc
    exact absurd hc List.not_mem_nil
  have hempty := queued_run_of_getLast? (s := (p, t)) (queued_of_make hm) hstart
  obtain ⟨hgbefore, hgstretch⟩ := hg.append
  have hmid := htraced.run hgbefore
  have hend := htraced.run hg
  have hlive := hintact.run htraced hg hs
  have hrising := rising_run ht p (before ++ stretch)
  rw [run_append, accountFrom_append] at hend hlive
  rw [run_append] at hrising
  constructor
  case peak =>
    intro size
    rw [show supply _ size = _ from hend.supply_eq hlive hrising size]
    exact isGreatest_ranges hmid hempty hgstretch hstretch size
  case live =>
    intro id hid
    obtain ⟨c, hc, hcid⟩ := List.mem_map.mp ((hend.owned id).mp hid)
    exact ⟨c.block, hlive c hc, hcid⟩
  case reuses =>
    rintro past ⟨rest, rfl⟩ size c later hq
    exact act_allocate_of_queue (hmid.run hgstretch.append.1) hq
  case in_order =>
    intro size
    have hqueue := queue_run hmid hgstretch hstretch size
    have hnone : (run (p, t) before).1.queue size = [] := by
      unfold queue
      rw [hempty, List.filter_nil]
    rwa [hnone, List.nil_append] at hqueue

/-- Two ranges are out at once after a reset, though one of them was taken before it. The pool has these two blocks,
and hands out first the one that came back first, while somebody else uses the tracker. -/
theorem run_peak_two_held :
    let p : ObjectPool := { alignment := .byte, total := 64 }
    let t : Tracker BumpHeap := .ofHeap (.ofPlan {}) none
    let first : CarveOut := .whole (.place 1 65536 8 8 .byte 0)
    let second : CarveOut := .whole (.place 2 65552 8 8 .byte 0)
    let third : CarveOut := .whole (.place 3 65568 8 8 .byte 0)
    let before : List Act := [.allocate 8, .allocate 8, .release first, .reset]
    let stretch : List Act := [.allocate 8, .release second, .tracker (.allocate 8 .byte), .release third, .allocate 8]
    let s := run (p, t) before
    let n := account (p, t) before
    (supply (run s stretch) 8 = 2 ∧ (accountFrom s n stretch).demand 8 = 1) ∧
      IsGreatest {d | ∃ past, past <+: stretch ∧ d = (accountFrom s n past).demand 8} 2 ∧
      returnedIn s 8 stretch = [second, third] ∧ (run s stretch).1.queue 8 = [third] := by
  intro p t first second third before stretch s n
  have hfrugal : Frugal s n stretch :=
    run_peak (show make 64 .byte = .ok p from rfl) (.refl : Tracker.Steps (.ofHeap (.ofPlan {}) none) t)
      (by simp [before]) (by simp [stretch]) (by decide +kernel) (by decide +kernel)
  have hsupply : supply (run s stretch) 8 = 2 := by decide +kernel
  refine ⟨⟨hsupply, by decide +kernel⟩, hsupply ▸ hfrugal.peak 8, ?_, by decide +kernel⟩
  rw [hfrugal.in_order 8]
  decide +kernel

end TrackedHeap.ObjectPool
