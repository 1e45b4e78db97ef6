import Mathlib.Data.List.Induction
import TrackedHeap.Config
import TrackedHeap.Proofs.Tracker.Stale
import TrackedHeap.Tracker.Leaks

/-!
# Blocks that a search for leaks reports

Time passes where a run says so and nowhere else, and a block carries the time of the operation that made it
(`Tracker.timed_act`). So the time at which a live block of a run was made (`Tracker.Made`) can be read off the run,
and its age is what has passed since. `Tracker.searched_run` says which blocks a search at the end of the run
reports, in what order, and when these are the ones that are older than what was asked for.

Nothing is asked of the heap here.
-/

namespace TrackedHeap

/-! ## Spans of time -/

/-- The age in the settings has all its microseconds; it is cut to a word only where it is compared. -/
theorem Config.age_microseconds (c : Config) : c.age.microseconds = c.leakAge * 1000 := by
  simp only [age, Age.ofMilliseconds, Age.microseconds]
  omega

namespace Tracker

/-- The microseconds that pass with an operation. -/
def Act.elapsed : Act → Nat
  | .advance microseconds => microseconds
  | _ => 0

/-- The microseconds that pass with a list of operations. -/
def elapsed : List Act → Nat
  | [] => 0
  | a :: acts => a.elapsed + elapsed acts

@[simp] theorem elapsed_append (acts later : List Act) :
    elapsed (acts ++ later) = elapsed acts + elapsed later := by
  induction acts with
  | nil => exact (Nat.zero_add _).symm
  | cons a acts ih =>
    rw [List.cons_append, elapsed, elapsed, ih]
    exact (Nat.add_assoc ..).symm

@[simp] theorem elapsed_singleton (a : Act) : elapsed [a] = a.elapsed :=
  rfl

variable {H : Type}

/-! ## What an operation does in time -/

/-- Time has passed, and every block that is new carries the time from before. -/
structure Timed (t t' : Tracker H) (microseconds : Nat) : Prop where
  clock : t'.clock = t.clock + microseconds
  created : ∀ b ∈ t'.blocks, b ∈ t.blocks ∨ b.createdAt = t.now

theorem Timed.of_sublist {t t' : Tracker H} (hclock : t'.clock = t.clock) (hsub : ∀ b ∈ t'.blocks, b ∈ t.blocks) :
    Timed t t' 0 :=
  ⟨hclock, fun b hb => .inl (hsub b hb)⟩

variable [Heap H]

theorem timed_free (t : Tracker H) (handle : Block) : Timed t (t.free handle).2 0 := by
  fun_cases Tracker.free t handle
  case case1 => exact .of_sublist rfl fun _ => id
  case case2 live _ => exact .of_sublist rfl fun _ hb => (mem_others.mp hb).1

theorem timed_allocate (t : Tracker H) (size : Nat) (alignment : Alignment) :
    Timed t (t.allocate size alignment).2 0 := by
  fun_cases Tracker.allocate t size alignment
  case case5 hsize padded hp raw heap ha hraw block =>
    refine ⟨rfl, fun b hb => (List.mem_append.mp hb).imp_right fun hmade => ?_⟩
    rw [List.mem_singleton.mp hmade]
    rfl
  all_goals exact .of_sublist rfl fun _ => id

theorem timed_reallocate (t : Tracker H) (handle : Block) (size : Nat) :
    Timed t (t.reallocate handle size).2 0 := by
  fun_cases Tracker.reallocate t handle size
  case case5 hsize old hl padded hp raw heap ha resized =>
    refine ⟨rfl, fun b hb => (List.mem_append.mp hb).imp (fun hold => (mem_others.mp hold).1) fun hmade => ?_⟩
    rw [List.mem_singleton.mp hmade]
    rfl
  all_goals exact .of_sublist rfl fun _ => id

theorem clock_returnAll (t : Tracker H) (blocks : List Block) : (t.returnAll blocks).clock = t.clock := by
  induction blocks generalizing t with
  | nil => rfl
  | cons block blocks ih => exact (ih _).trans (t.timed_free block).clock

/-- Only waiting takes time, and what an operation makes carries the time of the operation. -/
theorem timed_act (t : Tracker H) (a : Act) : Timed t (t.act a).2 a.elapsed := by
  cases a with
  | advance n => exact ⟨rfl, fun _ => .inl⟩
  | allocate size alignment => exact t.timed_allocate size alignment
  | free handle => exact t.timed_free handle
  | reallocate handle size => exact t.timed_reallocate handle size
  | freeAll =>
    rw [act, freeAll_eq_returnAll]
    exact .of_sublist (t.clock_returnAll _) fun _ hb => (mem_returnAll.mp hb).1
  | fill handle offset length byte =>
    rw [act, answered_snd]
    fun_cases Tracker.fill t handle offset length byte <;> exact .of_sublist rfl fun _ => id
  | write handle offset bytes =>
    rw [act, answered_snd]
    fun_cases Tracker.write t handle offset bytes <;> exact .of_sublist rfl fun _ => id
  | copy source offset target offset' length mode =>
    rw [act, answered_snd]
    fun_cases Tracker.copy t source offset target offset' length mode <;> exact .of_sublist rfl fun _ => id

/-- The clock shows what has passed in the run. -/
theorem clock_run (t : Tracker H) (acts : List Act) : (t.run acts).clock = t.clock + elapsed acts := by
  induction acts using List.reverseRecOn with
  | nil => rfl
  | append_singleton acts a ih =>
    rw [run_concat, ((t.run acts).timed_act a).clock, ih, elapsed_append, elapsed_singleton, Nat.add_assoc]

theorem now_run (heap : H) (budget : Option Nat) (acts : List Act) :
    ((ofHeap heap budget).run acts).now = elapsed acts % Word.limit := by
  rw [now, clock_run, ofHeap, Nat.zero_add]

/-! ## When a block was made -/

/-- An operation of the run made the block, when `time` microseconds of the run had passed. -/
def Made (t : Tracker H) (acts : List Act) (b : Block) (time : Nat) : Prop :=
  ∃ past a later, acts = past ++ [a] ++ later ∧
    b ∉ (t.run past).blocks ∧ b ∈ (t.run (past ++ [a])).blocks ∧ elapsed past = time

theorem Made.append {t : Tracker H} {acts : List Act} {b : Block} {time : Nat} (h : t.Made acts b time)
    (rest : List Act) : t.Made (acts ++ rest) b time := by
  obtain ⟨past, a, later, rfl, hnew, hb, htime⟩ := h
  exact ⟨past, a, later ++ rest, by simp, hnew, hb, htime⟩

theorem Made.le_elapsed {t : Tracker H} {acts : List Act} {b : Block} {time : Nat} (h : t.Made acts b time) :
    time ≤ elapsed acts := by
  obtain ⟨past, a, later, rfl, -, -, rfl⟩ := h
  simp only [elapsed_append]
  omega

/-- Whatever is live at the end of a run of a new tracker was made in it. -/
theorem exists_made {heap : H} {budget : Option Nat} {acts : List Act} {b : Block}
    (hb : b ∈ ((ofHeap heap budget).run acts).blocks) : ∃ time, (ofHeap heap budget).Made acts b time := by
  induction acts using List.reverseRecOn with
  | nil => exact absurd hb List.not_mem_nil
  | append_singleton acts a ih =>
    by_cases hold : b ∈ ((ofHeap heap budget).run acts).blocks
    · obtain ⟨time, hmade⟩ := ih hold
      exact ⟨time, hmade.append [a]⟩
    · exact ⟨elapsed acts, acts, a, [], by simp, hold, hb, rfl⟩

/-- A block carries the time at which it was made, as a word. -/
theorem Made.createdAt_eq {heap : H} {budget : Option Nat} {acts : List Act} {b : Block} {time : Nat}
    (h : (ofHeap heap budget).Made acts b time) : b.createdAt = time % Word.limit := by
  obtain ⟨past, a, -, -, hnew, hb, rfl⟩ := h
  rw [run_concat] at hb
  rw [(((ofHeap heap budget).run past).timed_act a).created b hb |>.resolve_left hnew, now_run]

/-- Ids are not given out again, so a block that was live and is not any more is not made once more. -/
theorem not_mem_run_concat {heap : H} {budget : Option Nat} {past acts : List Act} (hpast : past <+: acts) {b : Block}
    (hb : b ∈ ((ofHeap heap budget).run past).blocks) (hgone : b ∉ ((ofHeap heap budget).run acts).blocks) (a : Act) :
    b ∉ ((ofHeap heap budget).run (acts ++ [a])).blocks := by
  intro hmade
  rw [run_concat] at hmade
  have hissued := id_lt_of_mem_run hpast hb
  have hfresh := ((steps_act _ a).origin hmade).resolve_left hgone
  omega

theorem Made.unique {heap : H} {budget : Option Nat} {acts : List Act} {b : Block} {time time' : Nat}
    (h : (ofHeap heap budget).Made acts b time) (h' : (ofHeap heap budget).Made acts b time') : time = time' := by
  obtain ⟨past, a, later, hacts, hnew, hb, rfl⟩ := h
  obtain ⟨past', a', later', hacts', hnew', hb', rfl⟩ := h'
  have hp : past ++ [a] <+: acts := ⟨later, hacts.symm⟩
  have hp' : past' ++ [a'] <+: acts := ⟨later', hacts'.symm⟩
  have hq : past <+: acts := (List.prefix_append ..).trans hp
  have hq' : past' <+: acts := (List.prefix_append ..).trans hp'
  rcases Nat.lt_trichotomy past.length past'.length with hlt | heq | hgt
  · have hbefore : past ++ [a] <+: past' := List.prefix_of_prefix_length_le hp hq' (by rw [List.length_append]; exact hlt)
    exact absurd hb' (not_mem_run_concat hbefore hb hnew' a')
  · rw [(List.prefix_of_prefix_length_le hq hq' (Nat.le_of_eq heq)).eq_of_length heq]
  · have hbefore : past' ++ [a'] <+: past := List.prefix_of_prefix_length_le hp' hq (by rw [List.length_append]; exact hgt)
    exact absurd hb (not_mem_run_concat hbefore hb' hnew a)

/-! ## The search -/

/-- What searches for leaks report at the end of a run that began with the tracker. -/
structure Searched (t : Tracker H) (acts : List Act) : Prop where
  /-- The clock shows what has passed since the beginning. -/
  clock : (t.run acts).clock = t.clock + elapsed acts
  /-- The blocks are reported by rising id. -/
  sorted : ∀ age, ((t.run acts).leaks age).Pairwise (·.id < ·.id)
  /-- Each live block was made at one time of the run. -/
  made : ∀ b ∈ (t.run acts).blocks, ∃! time, t.Made acts b time
  /-- The times and the age asked for are compared as words. -/
  mem_leaks : ∀ age b, b ∈ (t.run acts).leaks age ↔
    b ∈ (t.run acts).blocks ∧
      ∃ time, t.Made acts b time ∧ age.microseconds % Word.limit < elapsed acts % Word.limit - time % Word.limit
  /-- While the time is a word, the blocks that are older are reported exactly if the age asked for is a word, or if
  no block is older than what is left of it as one. -/
  exact_iff : elapsed acts < Word.limit → ∀ age,
    (∀ b, b ∈ (t.run acts).leaks age ↔
        b ∈ (t.run acts).blocks ∧ ∃ time, t.Made acts b time ∧ age.microseconds < elapsed acts - time) ↔
      age.microseconds < Word.limit ∨
        ∀ b ∈ (t.run acts).blocks, ∀ time, t.Made acts b time →
          elapsed acts - time ≤ age.microseconds % Word.limit
  /-- What is reported for an age that is a word is reported for every shorter one. -/
  mono : ∀ age older : Age, age.microseconds ≤ older.microseconds → older.microseconds < Word.limit →
    ((t.run acts).leaks older).Sublist ((t.run acts).leaks age)

omit [Heap H] in
theorem mem_leaks_iff {t : Tracker H} {age : Age} {b : Block} :
    b ∈ t.leaks age ↔ b ∈ t.blocks ∧ age.microseconds % Word.limit < t.now - b.createdAt := by
  simp [leaks]

omit [Heap H] in
/-- An age with more microseconds in its word has fewer blocks. -/
theorem leaks_sublist (t : Tracker H) {age older : Age}
    (h : age.microseconds % Word.limit ≤ older.microseconds % Word.limit) :
    (t.leaks older).Sublist (t.leaks age) :=
  List.monotone_filter_right _ fun _ hb => decide_eq_true (Nat.lt_of_le_of_lt h (of_decide_eq_true hb))

theorem mem_leaks_run {heap : H} {budget : Option Nat} {acts : List Act} {age : Age} {b : Block} :
    b ∈ ((ofHeap heap budget).run acts).leaks age ↔
      b ∈ ((ofHeap heap budget).run acts).blocks ∧
        ∃ time, (ofHeap heap budget).Made acts b time ∧
          age.microseconds % Word.limit < elapsed acts % Word.limit - time % Word.limit := by
  rw [mem_leaks_iff, now_run]
  refine and_congr_right fun hb => ⟨fun hold => ?_, fun ⟨time, hmade, hold⟩ => ?_⟩
  · obtain ⟨time, hmade⟩ := exists_made hb
    exact ⟨time, hmade, hmade.createdAt_eq ▸ hold⟩
  · exact hmade.createdAt_eq ▸ hold

/-- Before the clock has gone round, the ages that are compared are the ages of the blocks. -/
theorem mem_leaks_run_of_lt {heap : H} {budget : Option Nat} {acts : List Act} (hlt : elapsed acts < Word.limit)
    {age : Age} {b : Block} :
    b ∈ ((ofHeap heap budget).run acts).leaks age ↔
      b ∈ ((ofHeap heap budget).run acts).blocks ∧
        ∃ time, (ofHeap heap budget).Made acts b time ∧ age.microseconds % Word.limit < elapsed acts - time := by
  rw [mem_leaks_run, Nat.mod_eq_of_lt hlt]
  refine and_congr_right fun _ => exists_congr fun time => and_congr_right fun hmade => ?_
  rw [Nat.mod_eq_of_lt (Nat.lt_of_le_of_lt hmade.le_elapsed hlt)]

theorem exact_run_iff {heap : H} {budget : Option Nat} {acts : List Act} (hlt : elapsed acts < Word.limit)
    (age : Age) :
    (∀ b, b ∈ ((ofHeap heap budget).run acts).leaks age ↔
        b ∈ ((ofHeap heap budget).run acts).blocks ∧
          ∃ time, (ofHeap heap budget).Made acts b time ∧ age.microseconds < elapsed acts - time) ↔
      age.microseconds < Word.limit ∨
        ∀ b ∈ ((ofHeap heap budget).run acts).blocks, ∀ time, (ofHeap heap budget).Made acts b time →
          elapsed acts - time ≤ age.microseconds % Word.limit := by
  simp only [mem_leaks_run_of_lt hlt]
  constructor
  · intro hexact
    refine or_iff_not_imp_left.mpr fun hlong b hb time hmade => Nat.le_of_not_lt fun hold => ?_
    -- no block is as old as the age asked for, so none should have been reported
    obtain ⟨-, time', -, hold'⟩ := (hexact b).mp ⟨hb, time, hmade, hold⟩
    omega
  · rintro (hword | hnone) b
    · rw [Nat.mod_eq_of_lt hword]
    · have hmod := Nat.mod_le age.microseconds Word.limit
      refine and_congr_right fun hb => exists_congr fun time => and_congr_right fun hmade => ?_
      have hle := hnone b hb time hmade
      omega

/-- Every search after any operations. -/
theorem searched_run (heap : H) (budget : Option Nat) (acts : List Act) : (ofHeap heap budget).Searched acts where
  clock := clock_run _ acts
  sorted _ := ((steps_run _ acts).rising (assigned_ofHeap heap budget) List.Pairwise.nil).filter _
  made _ hb := (exists_made hb).imp fun _ hmade => ⟨hmade, fun _ hmade' => hmade'.unique hmade⟩
  mem_leaks _ _ := mem_leaks_run
  exact_iff hlt age := exact_run_iff hlt age
  mono age older hle hlt := by
    refine leaks_sublist _ ?_
    rw [Nat.mod_eq_of_lt hlt, Nat.mod_eq_of_lt (Nat.lt_of_le_of_lt hle hlt)]
    exact hle

end Tracker

end TrackedHeap
