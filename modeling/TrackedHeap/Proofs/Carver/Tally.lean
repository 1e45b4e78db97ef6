import TrackedHeap.Proofs.Carver.Run
import TrackedHeap.Proofs.Twin.Blank

/-!
# What is counted

A carver counts every request once, as granted or as refused, and so does the part of a hybrid that is asked
(`Carver.tally_allocate`). A hybrid refuses a request of no bytes before it asks a part, and does not count it. So in
a run the counts are those of what was answered (`Carver.run_tally`), but for these requests.
-/

namespace TrackedHeap

attribute [ext] Tally

namespace Tally

/-- The counts of two tallies together. -/
instance : Add Tally where
  add a b := ⟨a.allocations + b.allocations, a.deallocations + b.deallocations, a.failures + b.failures⟩

/-- The tally after a range was given back, which counts if it was taken back. -/
def settle {α : Type} (t : Tally) : Except MemoryError α → Tally
  | .ok _ => t.returned
  | .error _ => t

variable {α : Type} (a b : Tally) (result : Except MemoryError α)

theorem record_add : (a + b).record result = a.record result + b := by
  cases result
  · exact Tally.ext rfl rfl (Nat.add_right_comm ..)
  · exact Tally.ext (Nat.add_right_comm ..) rfl rfl

theorem add_record : (a + b).record result = a + b.record result := by
  cases result <;> rfl

theorem settle_add : (a + b).settle result = a.settle result + b := by
  cases result
  · rfl
  · exact Tally.ext rfl (Nat.add_right_comm ..) rfl

theorem add_settle : (a + b).settle result = a + b.settle result := by
  cases result <;> rfl

end Tally

/-! ## Each strategy -/

section Strategies

variable {H : Type} [Heap H]

theorem Buddy.tally_carve (b : Buddy) (size : Nat) : (b.carve size).2.tally = b.tally := by
  fun_cases Buddy.carve b size <;> rfl

theorem Buddy.tally_allocate (b : Buddy) (size : Nat) :
    (b.allocate size).2.tally = b.tally.record (b.allocate size).1 :=
  congrArg (Tally.record · (b.carve size).1) (b.tally_carve size)

theorem Buddy.tally_release (b : Buddy) (handle : CarveOut) :
    (b.release handle).2.tally = b.tally.settle (b.release handle).1 := by
  fun_cases Buddy.release b handle <;> rfl

theorem Buddy.tally_reset (b : Buddy) : b.reset.tally = b.tally := by
  unfold reset
  rw [foldl_giveBack]

theorem SlabCarver.tally_carve (s : SlabCarver) (t : Tracker H) (size : Nat) :
    (s.carve t size).2.1.tally = s.tally := by
  have hfrom (s : SlabCarver) (slab : Slab) : (s.carveFrom slab).2.tally = s.tally := by
    fun_cases SlabCarver.carveFrom s slab <;> rfl
  have hnew : (s.newSlab t size).2.1.tally = s.tally := by
    fun_cases SlabCarver.newSlab s t size <;> rfl
  fun_cases SlabCarver.carve s t size
  case case1 => rfl
  case case2 hsize slab hfind result s₁ hcarve => rw [← hfrom s slab, hcarve]
  case case3 heq => rw [← hnew, heq]
  case case4 hsize hnone slab s₁ t₁ heq result s₂ hcarve =>
    rw [heq] at hnew
    rw [← hnew, ← hfrom s₁ slab, hcarve]

theorem SlabCarver.tally_allocate (s : SlabCarver) (t : Tracker H) (size : Nat) :
    (s.allocate t size).2.1.tally = s.tally.record (s.allocate t size).1 :=
  congrArg (Tally.record · (s.carve t size).1) (s.tally_carve t size)

theorem SlabCarver.tally_release (s : SlabCarver) (handle : CarveOut) :
    (s.release handle).2.tally = s.tally.settle (s.release handle).1 := by
  fun_cases SlabCarver.release s handle <;> rfl

theorem Arena.tally_carve (a : Arena) (t : Tracker H) (size : Nat) : (a.carve t size).2.1.tally = a.tally := by
  fun_cases Arena.carve a t size
  case case4 hgrant => cases hgrant; rfl
  case case5 hgrant => cases hgrant; rfl
  all_goals rfl

theorem Arena.tally_allocate (a : Arena) (t : Tracker H) (size : Nat) :
    (a.allocate t size).2.1.tally = a.tally.record (a.allocate t size).1 :=
  congrArg (Tally.record · (a.carve t size).1) (a.tally_carve t size)

theorem Arena.tally_release (a : Arena) (handle : CarveOut) : (a.release handle).2.tally = a.tally := by
  fun_cases Arena.release a handle <;> rfl

theorem RingBuffer.tally_carve (r : RingBuffer) (size : Nat) : (r.carve size).2.tally = r.tally := by
  fun_cases RingBuffer.carve r size <;> rfl

theorem RingBuffer.tally_allocate (r : RingBuffer) (size : Nat) :
    (r.allocate size).2.tally = r.tally.record (r.allocate size).1 :=
  congrArg (Tally.record · (r.carve size).1) (r.tally_carve size)

theorem ObjectPool.tally_carve (p : ObjectPool) (t : Tracker H) (size : Nat) :
    (p.carve t size).2.1.tally = p.tally := by
  fun_cases ObjectPool.carve p t size <;> rfl

theorem ObjectPool.tally_allocate (p : ObjectPool) (t : Tracker H) (size : Nat) :
    (p.allocate t size).2.1.tally = p.tally.record (p.allocate t size).1 :=
  congrArg (Tally.record · (p.carve t size).1) (p.tally_carve t size)

omit [Heap H] in
theorem ObjectPool.tally_release (p : ObjectPool) (t : Tracker H) (handle : CarveOut) :
    (p.release t handle).2.tally = p.tally.settle (p.release t handle).1 := by
  fun_cases ObjectPool.release p t handle <;> rfl

theorem ObjectPool.tally_reset (p : ObjectPool) (t : Tracker H) : (p.reset t).2.1.tally = p.tally :=
  (p.drain_fixed t p.queued).2

end Strategies

/-! ## Any strategy -/

namespace Carver

/-- The counts that a carver reports. -/
def tally (c : Carver) : Tally where
  allocations := c.stats.allocations
  deallocations := c.stats.deallocations
  failures := c.stats.failures

/-- A hybrid counts what its parts count. -/
theorem tally_hybrid (h : Hybrid) : (hybrid h).tally = h.small.tally + (h.medium.tally + h.large.tally) :=
  rfl

variable {H : Type} [Heap H]

/-- A request is recorded with its result, unless it is one of no bytes to a hybrid. -/
theorem tally_allocate (c : Carver) (t : Tracker H) (size : Nat) :
    (c.allocate t size).2.1.tally =
      if c.strategy = .hybrid ∧ size = 0 then c.tally else c.tally.record (c.allocate t size).1 := by
  cases c with
  | buddy b => exact b.tally_allocate size
  | slab s => exact s.tally_allocate t size
  | arena a => exact a.tally_allocate t size
  | ringBuffer r => exact r.tally_allocate size
  | objectPool p => exact p.tally_allocate t size
  | hybrid h =>
    show (hybrid (h.allocate t size).2.1).tally = ite _ _ ((hybrid h).tally.record (h.allocate t size).1)
    by_cases hsize : size = 0
    · rw [if_pos ⟨rfl, hsize⟩, Hybrid.allocate, if_pos hsize]
    rw [if_neg fun hs => hsize hs.2, tally_hybrid]
    cases htier : Tier.ofSize size with
    | small =>
      rw [Hybrid.allocate_small hsize htier, tally_hybrid, SlabCarver.tally_allocate, Tally.record_add]
    | medium =>
      rw [Hybrid.allocate_medium hsize htier, tally_hybrid, Buddy.tally_allocate, Tally.add_record,
        Tally.record_add]
    | large =>
      rw [Hybrid.allocate_large hsize htier, tally_hybrid, Arena.tally_allocate, Tally.add_record,
        Tally.add_record]

omit [Heap H] in
/-- A range that is given back counts if it is taken back by itself. -/
theorem tally_release (c : Carver) (t : Tracker H) (handle : CarveOut) :
    (c.release t handle).2.1.tally =
      if c.takesBack handle then c.tally.settle (c.release t handle).1 else c.tally := by
  cases c with
  | buddy b => exact b.tally_release handle
  | slab s => exact s.tally_release handle
  | arena a => exact a.tally_release handle
  | ringBuffer r => rfl
  | objectPool p => exact p.tally_release t handle
  | hybrid h =>
    show (hybrid (h.release handle).2).tally = ite _ ((hybrid h).tally.settle (h.release handle).1) _
    cases htier : Tier.ofSize handle.requestedSize with
    | small =>
      have htakes : (hybrid h).takesBack handle = true := by simp [takesBack, htier]
      rw [if_pos htakes, Hybrid.release_small htier, tally_hybrid, tally_hybrid, SlabCarver.tally_release,
        Tally.settle_add]
    | medium =>
      have htakes : (hybrid h).takesBack handle = true := by simp [takesBack, htier]
      rw [if_pos htakes, Hybrid.release_medium htier, tally_hybrid, tally_hybrid, Buddy.tally_release,
        Tally.add_settle, Tally.settle_add]
    | large =>
      have htakes : ¬ (hybrid h).takesBack handle = true := by simp [takesBack, htier]
      rw [if_neg htakes, Hybrid.release_large htier]

theorem tally_reset (c : Carver) (t : Tracker H) : (c.reset t).2.1.tally = c.tally := by
  cases c with
  | buddy b => exact b.tally_reset
  | slab s => rfl
  | arena a => rfl
  | ringBuffer r => rfl
  | objectPool p => exact p.tally_reset t
  | hybrid h =>
    show h.small.tally + (h.medium.reset.tally + h.large.tally) = _
    rw [Buddy.tally_reset, tally_hybrid]

/-! ## Runs -/

/-- An operation with its answer. -/
abbrev Entry := Act × Except MemoryError Answer

/-- A request. -/
def Entry.asks : Entry → Bool
  | (.allocate _, _) => true
  | _ => false

/-- A request that was granted. -/
def Entry.grants : Entry → Bool
  | (.allocate _, .ok _) => true
  | _ => false

/-- A request that was refused. -/
def Entry.refuses : Entry → Bool
  | (.allocate _, .error _) => true
  | _ => false

/-- A range that was given back, and accepted. -/
def Entry.accepts : Entry → Bool
  | (.release _, .ok _) => true
  | _ => false

/-- A range that was given back, and taken back by itself. -/
def returns (c : Carver) : Entry → Bool
  | (.release handle, .ok _) => c.takesBack handle
  | _ => false

/-- A request that is refused before it is counted. -/
def ignores (strategy : Strategy) : Entry → Bool
  | (.allocate size, _) => strategy = .hybrid ∧ size = 0
  | _ => false

/-- A request of no bytes is refused. -/
theorem allocate_zero (c : Carver) (t : Tracker H) : (c.allocate t 0).1 = .error .zeroAllocation := by
  cases c <;> rfl

/-- What one operation adds to the counts. -/
theorem tally_act (s : Carver × Tracker H) (a : Act) :
    let after := (act s a).2.1.tally
    let e : Entry := (a, (act s a).1)
    after.allocations = s.1.tally.allocations + (if e.grants then 1 else 0) ∧
      after.deallocations = s.1.tally.deallocations + (if s.1.returns e then 1 else 0) ∧
      after.failures + (if ignores s.1.strategy e then 1 else 0) =
        s.1.tally.failures + (if e.refuses then 1 else 0) := by
  cases a with
  | tracker a => exact ⟨rfl, rfl, rfl⟩
  | allocate size =>
    have htally := s.1.tally_allocate s.2 size
    have hzero : size = 0 → (s.1.allocate s.2 size).1 = .error .zeroAllocation := by
      rintro rfl
      exact s.1.allocate_zero s.2
    rcases ho : s.1.allocate s.2 size with ⟨result, c, t⟩
    rw [ho] at htally hzero
    simp only [act, ho, htally]
    by_cases hn : s.1.strategy = .hybrid ∧ size = 0
    · obtain rfl := hzero hn.2
      simp [Except.map, Entry.grants, Entry.refuses, returns, ignores, hn]
    · cases result <;> simp [Except.map, Entry.grants, Entry.refuses, returns, ignores, hn, Tally.record]
  | release handle =>
    have htally := s.1.tally_release s.2 handle
    rcases ho : s.1.release s.2 handle with ⟨result, c, t⟩
    rw [ho] at htally
    simp only [act, ho, htally]
    cases result <;> cases ht : s.1.takesBack handle <;>
      simp [Except.map, Entry.grants, Entry.refuses, returns, ignores, ht, Tally.settle, Tally.returned]
  | reset =>
    have htally := s.1.tally_reset s.2
    rcases ho : s.1.reset s.2 with ⟨result, c, t⟩
    rw [ho] at htally
    simp only [act, ho, htally]
    exact ⟨rfl, rfl, rfl⟩

omit [Heap H] in
/-- Which ranges are taken back by themselves is a matter of the strategy. -/
theorem takesBack_congr {c c' : Carver} (h : c.strategy = c'.strategy) (handle : CarveOut) :
    c.takesBack handle = c'.takesBack handle := by
  cases c <;> cases c' <;> first | rfl | cases h

/-- What a list of operations adds to the counts. -/
theorem tally_run (s : Carver × Tracker H) (acts : List Act) :
    let after := (run s acts).1.tally
    let log := answers s acts
    after.allocations = s.1.tally.allocations + log.countP Entry.grants ∧
      after.deallocations = s.1.tally.deallocations + log.countP s.1.returns ∧
      after.failures + log.countP (ignores s.1.strategy) = s.1.tally.failures + log.countP Entry.refuses := by
  induction acts generalizing s with
  | nil => exact ⟨rfl, rfl, rfl⟩
  | cons a acts ih =>
    obtain ⟨hgrants, hreturns, hrefuses⟩ := tally_act s a
    obtain ⟨ihgrants, ihreturns, ihrefuses⟩ := ih (act s a).2
    have hstrategy := strategy_act s a
    have hsame : (act s a).2.1.returns = s.1.returns := by
      funext e
      unfold returns
      split
      · exact takesBack_congr hstrategy _
      · rfl
    rw [hsame] at ihreturns
    rw [hstrategy] at ihrefuses
    simp only [run_cons, answers, List.countP_cons]
    omega

omit [Heap H] in
/-- Every request is granted or refused. -/
theorem countP_asks (log : List Entry) :
    log.countP Entry.asks = log.countP Entry.grants + log.countP Entry.refuses := by
  induction log with
  | nil => rfl
  | cons e log ih =>
    rw [List.countP_cons, List.countP_cons, List.countP_cons, ih]
    rcases e with ⟨_ | _ | _ | _, _ | _⟩ <;> simp only [Entry.asks, Entry.grants, Entry.refuses] <;> simp <;> omega

/-- All requests are counted but those of no bytes to a hybrid. -/
theorem countP_ignores_eq_zero (s : Carver × Tracker H) (acts : List Act) (strategy : Strategy) :
    (answers s acts).countP (ignores strategy) = 0 ↔ (strategy = .hybrid → .allocate 0 ∉ acts) := by
  rw [List.countP_eq_zero]
  constructor
  · intro h hs hm
    rw [← fst_answers s acts] at hm
    obtain ⟨e, he, ha⟩ := List.mem_map.mp hm
    refine h e he ?_
    obtain ⟨a, answer⟩ := e
    obtain rfl : a = .allocate 0 := ha
    simp [ignores, hs]
  · rintro h ⟨a, answer⟩ he hi
    have hm := List.mem_map_of_mem (f := Prod.fst) he
    rw [fst_answers] at hm
    cases a with
    | allocate size =>
      obtain ⟨hs, rfl⟩ : strategy = .hybrid ∧ size = 0 := by simpa [ignores] using hi
      exact h hs hm
    | _ => cases hi

/-- Nothing is counted of a new carver. -/
theorem tally_of_build {t t' : Tracker H} {strategy : Strategy} {total : Nat} {alignment : Alignment} {new : Carver}
    (hb : Carver.build t strategy total alignment = (.ok new, t')) : new.tally = {} := by
  have hblank := blank_of_build hb
  cases strategy with
  | objectPool =>
    obtain ⟨p, hm, rfl⟩ := built_ok hb
    rw [ObjectPool.make_ok (Prod.mk.inj hm).1]
    rfl
  | _ =>
    obtain ⟨x, -, rfl⟩ := built_ok hb
    rw [← hblank]
    rfl

/-- What a new carver reports after a run, said by what was answered in the run. -/
structure Tallied (new : Carver) (acts : List Act) (log : List Entry) (stats : CarverStats) : Prop where
  granted : stats.allocations = log.countP Entry.grants
  /-- The requests of no bytes to a hybrid are missing. -/
  refused : stats.failures + log.countP (ignores new.strategy) = log.countP Entry.refuses
  asked : stats.allocations + stats.failures + log.countP (ignores new.strategy) = log.countP Entry.asks
  /-- None are missing exactly if there are no such requests. -/
  refused_iff : stats.failures = log.countP Entry.refuses ↔ (new.strategy = .hybrid → .allocate 0 ∉ acts)
  returned : stats.deallocations = log.countP new.returns
  /-- Where all ranges come back by themselves, all are counted that are accepted. -/
  returned_all : new.strategy = .buddy ∨ new.strategy = .slab ∨ new.strategy = .objectPool →
    stats.deallocations = log.countP Entry.accepts

/-- In every run of a carver of any strategy, over whatever tracker and with whatever handles, every request is counted
once and with its result, and every range that is taken back by itself, but for requests of no bytes to a hybrid. -/
theorem run_tally {t t' : Tracker H} {strategy : Strategy} {total : Nat} {alignment : Alignment} {new : Carver}
    (hb : Carver.build t strategy total alignment = (.ok new, t')) (acts : List Act) :
    new.strategy = strategy ∧
      Tallied new acts (answers (new, t') acts) (run (new, t') acts).1.stats := by
  obtain ⟨hgrants, hreturns, hrefuses⟩ := tally_run (new, t') acts
  have hstart : new.tally = {} := tally_of_build hb
  have hasks := countP_asks (answers (new, t') acts)
  have hzero := countP_ignores_eq_zero (new, t') acts new.strategy
  simp only [hstart, Nat.zero_add] at hgrants hreturns hrefuses
  refine ⟨strategy_of_build hb, hgrants, hrefuses, ?_, ?_, hreturns, fun hs => hreturns.trans ?_⟩
  · rw [hasks, ← hgrants, ← hrefuses]
    exact Nat.add_assoc ..
  · rw [← hzero, ← hrefuses]
    show (run (new, t') acts).1.tally.failures = _ ↔ _
    omega
  · refine List.countP_congr fun e _ => ?_
    have htakes (handle : CarveOut) : new.takesBack handle = true := by
      cases new <;> first | rfl | simp [Carver.strategy] at hs
    rcases e with ⟨_ | _ | _ | _, _ | _⟩ <;> simp [returns, Entry.accepts, htakes]

/-- Two cells and a request of no bytes, and one of the cells given back twice before a reset. -/
theorem run_tally_mixed :
    let cell : CarveOut :=
      { block := .place 1 65536 64 71 .word 0, offset := 12, grantedSize := 12, requestedSize := 12 }
    let acts : List Act := [.allocate 12, .allocate 0, .allocate 12, .release cell, .release cell, .reset]
    ∃ new t', Carver.build (.ofHeap (BumpHeap.ofPlan {}) none) .slab 640 .word = (.ok new, t') ∧
      let stats := (run (new, t') acts).1.stats
      new.strategy = .slab ∧ Tallied new acts (answers (new, t') acts) stats ∧
        stats.allocations = 2 ∧ stats.failures = 1 ∧ stats.deallocations = 1 := by
  intro cell acts
  have hb : Carver.build (.ofHeap (BumpHeap.ofPlan {}) none) .slab 640 .word = (.ok _, _) := rfl
  obtain ⟨hstrategy, htallied⟩ := run_tally hb acts
  refine ⟨_, _, hb, hstrategy, htallied, ?_⟩
  decide +kernel

/-- A hybrid refuses a request of no bytes, and counts no failure. -/
theorem run_uncounted :
    ∃ new t', Carver.build (.ofHeap (BumpHeap.ofPlan {}) none) .hybrid 4096 .byte = (.ok new, t') ∧
      (answers (new, t') [.allocate 0]).countP Entry.refuses = 1 ∧
      (run (new, t') [.allocate 0]).1.stats.failures = 0 := by
  refine ⟨_, _, rfl, ?_⟩
  decide +kernel

end Carver

end TrackedHeap
