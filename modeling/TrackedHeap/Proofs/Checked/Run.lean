import TrackedHeap.Proofs.Carver.Outstanding
import TrackedHeap.Proofs.Checked.Carver
import TrackedHeap.Proofs.Heap.Bump
import TrackedHeap.Proofs.Heap.NonNull
import TrackedHeap.Proofs.Ownership.Exact
import TrackedHeap.Proofs.Tracker.Stale

/-!
# Runs within words

One thing stops a carver: the reset of an object pool in which as many ranges wait as 32 bits with a sign cannot count.
Apart from it no operation stops, and so each gives what it gives with natural numbers (`Carver.run_counted`). That
holds for all strategies, capacities, alignments, requests and handles, over every heap that grants ranges of the
address space that share no byte, whatever it refuses, and for as many operations as a word can count. The blocks of
the carver are left alone by everybody else. An object pool is asked for no more than makes a word with its bytes, and
it takes back only what it granted (`Carver.Fair`).

The state of a run is tied to what clients have of it (`Carver.Steady`): their ranges share no byte of the address
space, so what a carver counts as allocated is a word (`Carver.Steady.allocated_lt`).
-/

namespace TrackedHeap.Carver

open Checked

variable {H : Type} {t t' : Tracker H} {s : Carver × Tracker H} {issued out : List CarveOut} {size : Nat}

/-! ## Fair operations -/

/-- The bytes of an object pool and of a request are a word together. -/
def Addable (c : Carver) (size : Nat) : Prop :=
  match c with
  | objectPool p => p.used + size < Word.limit
  | _ => True

/-- A reset can count the ranges that wait in an object pool. -/
def Countable (c : Carver) : Prop :=
  match c with
  | objectPool p => p.queued.length < countLimit
  | _ => True

/-- No more waits than came back. -/
theorem countable_of_bounded {c : Carver} (hb : c.Bounded) (hn : c.tally.events < countLimit) : c.Countable := by
  cases c with
  | objectPool p =>
    have hle : p.queued.length ≤ p.tally.deallocations := ObjectPool.Bounded.queued_le hb
    have hlt : p.tally.events < countLimit := hn
    unfold Tally.events at hlt
    show p.queued.length < countLimit
    omega
  | buddy | slab | arena | ringBuffer | hybrid => trivial

variable [Heap H]

/-- What is asked of an operation, if certain ranges were granted before: nobody else returns the blocks of the
carver, and an object pool takes back only what it granted. -/
def Fair (s : Carver × Tracker H) (issued : List CarveOut) : Act → Prop
  | .tracker a => s.2.Keeps (s.2.act a).2 s.1.backing
  | .allocate size => s.1.Addable size
  | .release handle => s.1.strategy = .objectPool → handle.block.id ∈ s.1.backing → handle ∈ issued
  | .reset => True

/-- The ranges that were ever granted, after an operation. -/
def issuedAfter (s : Carver × Tracker H) (issued : List CarveOut) : Act → List CarveOut
  | .allocate size => CarveOut.taken (s.1.allocate s.2 size).1 issued
  | _ => issued

/-- Every operation of a list is fair when its turn comes. -/
def FairRun (s : Carver × Tracker H) (issued : List CarveOut) : List Act → Prop
  | [] => True
  | a :: acts => Fair s issued a ∧ FairRun (act s a).2 (issuedAfter s issued a) acts

/-- No reset of a list of operations has more ranges to count than it can. -/
def CountedRun (s : Carver × Tracker H) : List Act → Prop
  | [] => True
  | a :: acts => (a = .reset → s.1.Countable) ∧ CountedRun (act s a).2 acts

instance (c : Carver) (size : Nat) : Decidable (c.Addable size) :=
  match c with
  | objectPool p => inferInstanceAs (Decidable (p.used + size < Word.limit))
  | buddy _ | slab _ | arena _ | ringBuffer _ | hybrid _ => .isTrue trivial

instance (s : Carver × Tracker H) (issued : List CarveOut) : DecidablePred (Fair s issued)
  | .tracker a =>
    inferInstanceAs (Decidable (∀ b ∈ s.2.blocks, b.id ∈ s.1.backing → b ∈ (s.2.act a).2.blocks))
  | .allocate size => inferInstanceAs (Decidable (s.1.Addable size))
  | .release handle =>
    inferInstanceAs (Decidable (s.1.strategy = .objectPool → handle.block.id ∈ s.1.backing → handle ∈ issued))
  | .reset => .isTrue trivial

instance decidableFairRun (s : Carver × Tracker H) (issued : List CarveOut) :
    DecidablePred (FairRun s issued)
  | [] => .isTrue trivial
  | a :: acts =>
    have := decidableFairRun (act s a).2 (issuedAfter s issued a) acts
    inferInstanceAs (Decidable (Fair s issued a ∧ FairRun (act s a).2 (issuedAfter s issued a) acts))

/-- The figures before and after each operation of a list. -/
def figures (s : Carver × Tracker H) : List Act → List CarverStats
  | [] => [s.1.stats]
  | a :: acts => s.1.stats :: figures (act s a).2 acts

/-- The carver and its blocks, while clients have certain ranges of it and were granted others before. -/
structure Steady (s : Carver × Tracker H) (issued out : List CarveOut) : Prop where
  regular : s.2.Regular
  sound : s.1.Sound s.2 out
  exact : s.1.Exact out
  bounded : s.1.Bounded
  known : ∀ c ∈ issued, s.1.Knows s.2 c ∧ c.block.id < s.2.nextId

namespace Steady

/-- What is allocated is with clients, who have less than an address space. -/
theorem allocated_lt (h : Steady s issued out) : s.1.stats.allocated < Word.limit := by
  rw [h.exact.allocated_eq]
  exact h.sound.owned.grantedBytes_lt h.regular.layout

/-- An old range is known as long as blocks only join and leave. -/
theorem known_turnover (h : Steady s issued out) {c : Carver}
    (hturn : Tracker.Turnover s.2 t s.1.backing c.backing) (hs : c.strategy = s.1.strategy) :
    ∀ o ∈ issued, c.Knows t o ∧ o.block.id < t.nextId := fun o ho =>
  ⟨(h.known o ho).1.turnover (h.known o ho).2 hturn hs, Nat.lt_of_lt_of_le (h.known o ho).2 hturn.issued⟩

theorem tracker (h : Steady s issued out) (a : Tracker.Act) (hkeeps : s.2.Keeps (s.2.act a).2 s.1.backing) :
    Steady (s.1, (s.2.act a).2) issued out := by
  have hsteps : Tracker.Steps s.2 (s.2.act a).2 := s.2.steps_act a
  refine ⟨h.regular.steps hsteps, h.sound.keeps hkeeps, h.exact, h.bounded, fun c hc => ?_⟩
  obtain ⟨hknows, hlt⟩ := h.known c hc
  exact ⟨hknows.keeps hkeeps, Nat.lt_of_lt_of_le hlt hsteps.nextId_le⟩

theorem allocate (h : Steady s issued out) (size : Nat) :
    Steady (s.1.allocate s.2 size).2 (CarveOut.taken (s.1.allocate s.2 size).1 issued)
      (CarveOut.taken (s.1.allocate s.2 size).1 out) := by
  obtain ⟨hsound, hturn⟩ := h.sound.allocate h.regular.numbered size
  have hregular := h.regular.steps (s.1.steps_allocate s.2 size)
  refine ⟨hregular, hsound, h.exact.allocate h.sound h.regular.numbered size,
    (lasting_bounded H).allocate s.2 size h.bounded, ?_⟩
  have hold := h.known_turnover hturn (s.1.strategy_allocate s.2 size)
  revert hsound hold
  cases (s.1.allocate s.2 size).1 with
  | error e => exact fun _ hold => hold
  | ok c =>
    intro hsound hold
    have hmem : c ∈ CarveOut.taken (.ok c) out := List.mem_cons_self
    exact List.forall_mem_cons.mpr
      ⟨⟨hsound.knows hmem, hsound.lt_nextId hregular.numbered (hsound.owned.backed c hmem)⟩, hold⟩

theorem release (h : Steady s issued out) {handle : CarveOut} (hk : s.1.Knows s.2 handle) :
    Steady (s.1.release s.2 handle).2 issued (s.1.afterRelease (s.1.release s.2 handle).1 handle out) := by
  obtain ⟨hsound, hturn⟩ := h.sound.release h.regular.numbered hk
  have hexact := h.exact.release h.sound h.regular.numbered hk
  have hbounded : (s.1.release s.2 handle).2.1.Bounded := (lasting_bounded H).release s.2 trivial h.bounded
  have hknown := h.known_turnover hturn (s.1.strategy_release s.2 handle)
  have ht := s.1.release_tracker s.2 handle
  rcases hr : s.1.release s.2 handle with ⟨result, c, t⟩
  rw [hr] at hsound hexact hbounded hknown ht
  obtain rfl : t = s.2 := ht
  exact ⟨h.regular, hsound, hexact, hbounded, hknown⟩

theorem reset (h : Steady s issued out) :
    Steady (s.1.reset s.2).2 issued (if s.1.strategy = .objectPool then out else []) := by
  obtain ⟨hsound, hturn⟩ := h.sound.reset h.regular.numbered
  exact ⟨h.regular.steps (s.1.steps_reset s.2), hsound, h.exact.reset h.sound,
    (lasting_bounded H).reset s.2 h.bounded, h.known_turnover hturn (s.1.strategy_reset s.2)⟩

/-- A handle that is fair describes a block of an object pool as it is. -/
theorem knows (h : Steady s issued out) {handle : CarveOut} (hf : Fair s issued (.release handle)) :
    s.1.Knows s.2 handle := fun hs hid =>
  (h.known handle (hf hs hid)).1 hs hid

/-- Every fair operation keeps the state steady. -/
theorem act (h : Steady s issued out) {a : Act} (hf : Fair s issued a) :
    Steady (act s a).2 (issuedAfter s issued a) (outAfter s out a) := by
  cases a with
  | tracker a => exact h.tracker a hf
  | allocate size => exact h.allocate size
  | release handle => exact h.release (h.knows hf)
  | reset => exact h.reset

/-! ## No operation stops -/

theorem statsChecked (h : Steady s issued out) (hr : s.1.tally.events < Word.limit) :
    s.1.row.statsChecked = .ok s.1.stats := by
  have hlt := h.allocated_lt
  have hb := h.bounded
  obtain ⟨c, t⟩ := s
  cases c with
  | hybrid h' => exact Hybrid.statsChecked_row (Hybrid.Bounded.total_lt hb) hlt hr
  | buddy | slab | arena | ringBuffer | objectPool => rfl

theorem allocateChecked (h : Steady s issued out) (hr : s.1.tally.HasRoom) (hadd : s.1.Addable size) :
    s.1.row.allocateChecked s.2 size = .ok (inRow (s.1.allocate s.2 size)) := by
  -- the bound on what an arena counts comes from the state afterwards
  have hlt := (h.allocate size).allocated_lt
  obtain ⟨hregular, hsound, hexact, hb, -⟩ := h
  obtain ⟨c, t⟩ := s
  cases c with
  | buddy b =>
    rw [row, CarverRow.allocateChecked, Buddy.Bounded.allocateChecked hb hr]
    rfl
  | slab s =>
    rw [row, CarverRow.allocateChecked, SlabCarver.Bounded.allocateChecked hb hregular hr]
    rfl
  | arena a =>
    rw [row, CarverRow.allocateChecked, Arena.Bounded.allocateChecked hb hregular hr hlt]
    rfl
  | ringBuffer r =>
    rw [row, CarverRow.allocateChecked, RingBuffer.Exact.allocateChecked hexact hb hr]
    rfl
  | objectPool p =>
    rw [row, CarverRow.allocateChecked,
      ObjectPool.Exact.allocateChecked hexact hsound hregular hr (ObjectPool.Bounded.total_lt hb) hadd]
    rfl
  | hybrid h =>
    rw [row, CarverRow.allocateChecked, Hybrid.Bounded.allocateChecked hb hregular hr hlt]
    rfl

theorem releaseChecked (h : Steady s issued out) (hr : s.1.tally.HasRoom) (handle : CarveOut) :
    s.1.row.releaseChecked s.2 handle = .ok (inRow (s.1.release s.2 handle)) := by
  have hb := h.bounded
  obtain ⟨c, t⟩ := s
  cases c with
  | buddy b =>
    rw [row, CarverRow.releaseChecked, Buddy.Bounded.releaseChecked hb hr]
    rfl
  | slab s =>
    rw [row, CarverRow.releaseChecked, SlabCarver.Bounded.releaseChecked hb hr]
    rfl
  | arena a =>
    rw [row, CarverRow.releaseChecked, Arena.release_row]
    rfl
  | ringBuffer r => rfl
  | objectPool p =>
    rw [row, CarverRow.releaseChecked, ObjectPool.releaseChecked_eq hr]
    rfl
  | hybrid h =>
    rw [row, CarverRow.releaseChecked, Hybrid.Bounded.releaseChecked hb hr]
    rfl

theorem resetChecked (h : Steady s issued out) (hc : s.1.Countable) :
    s.1.row.resetChecked s.2 = .ok (inRow (s.1.reset s.2)) := by
  have hb := h.bounded
  have hs := h.sound
  obtain ⟨c, t⟩ := s
  cases c with
  | buddy b =>
    rw [row, CarverRow.resetChecked, Buddy.Bounded.resetChecked hb]
    rfl
  | slab s =>
    rw [row, CarverRow.resetChecked, SlabCarver.Bounded.resetChecked hb]
    rfl
  | arena a => rfl
  | ringBuffer r => rfl
  | objectPool p =>
    have hwaits : p.queued.length < countLimit := hc
    rw [row, CarverRow.resetChecked, ObjectPool.Sound.resetChecked hs, if_pos hwaits]
    rfl
  | hybrid h =>
    rw [row, CarverRow.resetChecked, Hybrid.Bounded.resetChecked hb]
    rfl

theorem resetChecked_overflow (h : Steady s issued out) (hc : ¬ s.1.Countable) :
    s.1.row.resetChecked s.2 = .error .overflow := by
  have hs := h.sound
  obtain ⟨c, t⟩ := s
  cases c with
  | objectPool p =>
    have hwaits : ¬ p.queued.length < countLimit := hc
    rw [row, CarverRow.resetChecked, ObjectPool.Sound.resetChecked hs, if_neg hwaits]
    rfl
  | buddy | slab | arena | ringBuffer | hybrid => exact absurd trivial hc

theorem actChecked (h : Steady s issued out) (hr : s.1.tally.HasRoom) {a : Act} (hf : Fair s issued a)
    (hc : a = .reset → s.1.Countable) : CarverRow.actChecked (s.1.row, s.2) a = .ok (inRow (Carver.act s a)) := by
  cases a with
  | tracker a => rfl
  | allocate size =>
    rw [CarverRow.actChecked, h.allocateChecked hr hf]
    rfl
  | release handle =>
    rw [CarverRow.actChecked, h.releaseChecked hr]
    rfl
  | reset =>
    rw [CarverRow.actChecked, h.resetChecked (hc rfl)]
    rfl

theorem actChecked_overflow (h : Steady s issued out) (hc : ¬ s.1.Countable) :
    CarverRow.actChecked (s.1.row, s.2) .reset = .error .overflow := by
  rw [CarverRow.actChecked, h.resetChecked_overflow hc]
  rfl

end Steady

/-! ## Runs -/

omit [Heap H] in
theorem counts_le_one (c : Carver) (e : Entry) :
    (if e.grants then 1 else 0) + (if c.returns e then 1 else 0) + (if e.refuses then 1 else 0) ≤ 1 := by
  rcases e with ⟨_ | _ | handle | _, _ | _⟩
  case release.ok =>
    show 0 + (if c.takesBack handle then 1 else 0) + 0 ≤ 1
    cases c.takesBack handle <;> decide
  all_goals simp [Entry.grants, Entry.refuses, returns]

/-- An operation is counted at most once. -/
theorem events_act_le (s : Carver × Tracker H) (a : Act) :
    (act s a).2.1.tally.events ≤ s.1.tally.events + 1 := by
  have hone := s.1.counts_le_one (a, (act s a).1)
  obtain ⟨hgrants, hreturns, hrefuses⟩ := tally_act s a
  unfold Tally.events
  omega

namespace Steady

/-- A run whose first operation does not stop goes on from the state after it. -/
theorem runChecked_cons (h : Steady s issued out) {a : Act} {acts : List Act} (hf : Fair s issued a)
    (hn : s.1.tally.events + (acts.length + 1) < Word.limit) (hc : a = .reset → s.1.Countable) :
    CarverRow.runChecked (s.1.row, s.2) (a :: acts) = do
      let (later, answers, s') ← CarverRow.runChecked ((Carver.act s a).2.1.row, (Carver.act s a).2.2) acts
      return (s.1.stats :: later, (a, (Carver.act s a).1) :: answers, s') := by
  have hroom : s.1.tally.HasRoom := by
    show s.1.tally.events + 1 < Word.limit
    omega
  rw [CarverRow.runChecked, h.statsChecked (by omega), ok_bind, h.actChecked hroom hf hc, ok_bind]
  rfl

/-- No operation of a run stops, if a word can count as many more and each reset can count what waits. -/
theorem runChecked (h : Steady s issued out) {acts : List Act} (hf : FairRun s issued acts)
    (hn : s.1.tally.events + acts.length < Word.limit) (hc : CountedRun s acts) :
    CarverRow.runChecked (s.1.row, s.2) acts =
      .ok (figures s acts, answers s acts, (run s acts).1.row, (run s acts).2) := by
  induction acts generalizing s issued out with
  | nil =>
    rw [CarverRow.runChecked, h.statsChecked hn]
    rfl
  | cons a acts ih =>
    rw [List.length_cons] at hn
    -- the operation is counted at most once, so there is room for the later ones
    have hafter := events_act_le s a
    rw [h.runChecked_cons hf.1 hn hc.1, ih (h.act hf.1) hf.2 (by omega) hc.2]
    rfl

/-- A run stops at the first reset that cannot count what waits. -/
theorem runChecked_overflow (h : Steady s issued out) {acts : List Act} (hf : FairRun s issued acts)
    (hn : s.1.tally.events + acts.length < Word.limit) (hc : ¬ CountedRun s acts) :
    CarverRow.runChecked (s.1.row, s.2) acts = .error .overflow := by
  induction acts generalizing s issued out with
  | nil => exact absurd trivial hc
  | cons a acts ih =>
    rw [List.length_cons] at hn
    by_cases hgoes : a = .reset → s.1.Countable
    · have hafter := events_act_le s a
      rw [h.runChecked_cons hf.1 hn hgoes, ih (h.act hf.1) hf.2 (by omega) fun hlater => hc ⟨hgoes, hlater⟩]
      rfl
    · obtain ⟨rfl, hnot⟩ := Classical.not_imp.mp hgoes
      rw [CarverRow.runChecked, h.statsChecked (by omega), ok_bind, h.actChecked_overflow hnot]
      rfl

/-- What waits was counted when it came back, so after few operations not much waits. -/
theorem countedRun (h : Steady s issued out) {acts : List Act} (hf : FairRun s issued acts)
    (hn : s.1.tally.events + acts.length ≤ countLimit) : CountedRun s acts := by
  induction acts generalizing s issued out with
  | nil => trivial
  | cons a acts ih =>
    rw [List.length_cons] at hn
    have hafter := events_act_le s a
    refine ⟨fun _ => countable_of_bounded h.bounded (by omega), ih (h.act hf.1) hf.2 (by omega)⟩

end Steady

/-- The carvers of the other strategies have nothing to count. -/
theorem countedRun_of_strategy (hs : s.1.strategy ≠ .objectPool) (acts : List Act) : CountedRun s acts := by
  induction acts generalizing s with
  | nil => trivial
  | cons a acts ih =>
    refine ⟨fun _ => ?_, ih (by rwa [strategy_act])⟩
    obtain ⟨c, t⟩ := s
    cases c with
    | objectPool p => exact absurd rfl hs
    | buddy | slab | arena | ringBuffer | hybrid => trivial

/-- A new carver has nothing with clients. -/
theorem steady_of_build (h : t.Regular) {strategy : Strategy} {total : Nat} {alignment : Alignment} {new : Carver}
    (htotal : total < Word.limit) (hb : Carver.build t strategy total alignment = (.ok new, t')) :
    Steady (new, t') [] [] := by
  have hsteps := steps_build t strategy total alignment
  rw [hb] at hsteps
  exact ⟨h.steps hsteps, (sound_of_build h.numbered hb).1, exact_of_build hb, bounded_of_build htotal hb, nofun⟩

/-- Building a carver never stops, and using it stops at the first reset that meets more waiting ranges than it can
count, and nowhere else: every difference, sum, product, quotient, power and index on the way has a result, no branch is
reached that nothing should lead to, and all answers and figures are those of the carver on natural numbers. Such a
reset is one of an object pool, after more than `2 ^ 31` operations. -/
theorem run_counted [LawfulHeap (NonNull H)] {heap : H} {budget : Option Nat}
    (hs : LawfulHeap.Sound (NonNull.mk heap)) (hg : ∀ e, ¬ LawfulHeap.Granted (NonNull.mk heap) e)
    (ht : Tracker.Steps (.ofHeap heap budget) t) (strategy : Strategy) {total : Nat} (htotal : total < Word.limit)
    (alignment : Alignment) :
    CarverRow.buildChecked t strategy total alignment =
        .ok ((Carver.build t strategy total alignment).1.map row, (Carver.build t strategy total alignment).2) ∧
      ∀ new t', Carver.build t strategy total alignment = (.ok new, t') →
        ∀ acts : List Act, acts.length < Word.limit → FairRun (new, t') [] acts →
          (CountedRun (new, t') acts →
            CarverRow.runChecked (new.row, t') acts =
              .ok (figures (new, t') acts, answers (new, t') acts, (run (new, t') acts).1.row,
                (run (new, t') acts).2)) ∧
          (¬ CountedRun (new, t') acts → CarverRow.runChecked (new.row, t') acts = .error .overflow) ∧
          (strategy ≠ .objectPool ∨ acts.length ≤ countLimit → CountedRun (new, t') acts) := by
  have hregular : t.Regular := Tracker.regular_of_steps hs hg ht
  refine ⟨buildChecked_eq hregular strategy total alignment, fun new t' hb acts hacts hf => ?_⟩
  have hsteady := steady_of_build hregular htotal hb
  have hevents : new.tally.events = 0 := by
    rw [tally_of_build hb]
    rfl
  have hroom : new.tally.events + acts.length < Word.limit := by omega
  refine ⟨hsteady.runChecked hf hroom, hsteady.runChecked_overflow hf hroom, fun h => ?_⟩
  rcases h with hstrategy | hshort
  · exact countedRun_of_strategy (by rwa [strategy_of_build hb]) acts
  · exact hsteady.countedRun hf (show new.tally.events + acts.length ≤ countLimit by omega)

/-- An object pool over a heap that refuses its second request. A range comes back and is handed out again, a forged
handle names a block that is not the pool's, and a request is too large for the pool. -/
theorem run_counted_pool :
    let t : Tracker BumpHeap := .ofHeap (.ofPlan { failing := [2] }) none
    let s : Carver × Tracker BumpHeap := (.objectPool { alignment := .byte, total := 200 }, t)
    let range : CarveOut := .whole (.place 1 65536 64 64 .byte 0)
    let forged : CarveOut := .whole (.place 7 65536 64 64 .byte 0)
    let acts : List Act :=
      [.allocate 64, .release range, .allocate 64, .allocate 32, .release forged, .allocate 1000, .reset]
    Carver.build t .objectPool 200 .byte = (.ok s.1, s.2) ∧ FairRun s [] acts ∧
      CarverRow.runChecked (s.1.row, s.2) acts =
        .ok (figures s acts, answers s acts, (run s acts).1.row, (run s acts).2) ∧
      (run s acts).1.stats.allocations = 2 ∧ (run s acts).1.stats.deallocations = 1 ∧
      (run s acts).1.stats.failures = 2 := by
  intro t s range forged acts
  have hb : Carver.build t .objectPool 200 .byte = (.ok s.1, s.2) := rfl
  have hfair : FairRun s [] acts := by decide +kernel
  have hs : LawfulHeap.Sound (NonNull.mk (BumpHeap.ofPlan { failing := [2] })) :=
    BumpHeap.orderly_plain_ofPlan (by decide)
  have hrun := run_counted hs (fun _ => List.not_mem_nil) (.refl : Tracker.Steps t t) .objectPool
    (show 200 < Word.limit by decide) .byte
  obtain ⟨hgoes, -, hcounted⟩ := hrun.2 _ _ hb acts (by decide) hfair
  exact ⟨hb, hfair, hgoes (hcounted (.inr (by decide))), by decide +kernel⟩

end TrackedHeap.Carver
