import TrackedHeap.Heap.Bump
import TrackedHeap.Proofs.Tracker.Leaks
import TrackedHeap.Proofs.Workspace.Steps

/-!
# Leaks in a workspace

A search for leaks changes nothing, whatever was asked of the workspace before, and what it reports is as
`Tracker.Searched` says (`Workspace.run_leaks`). For ages below `2 ^ 64` microseconds these are the blocks that are
older. From there on the age that was asked for counts as what is left of it as a word, and young blocks are reported
(`Workspace.run_leaks_young`).
-/

namespace TrackedHeap.Workspace

/-- Which blocks a search reports after any operations, and that it leaves the workspace as it is. -/
theorem run_leaks {H : Type} [Heap H] (heap : H) (budget : Option Nat) :
    (∀ acts, (Tracker.ofHeap heap budget).Searched acts) ∧
      ∀ alignment (requests : List Request) age,
        let w := (opened heap budget alignment).run requests
        (∃ acts, (Tracker.ofHeap heap budget).run acts = w.tracker) ∧
          w.perform (.leaks age) = (.ok (.blocks (w.tracker.leaks age)), w) :=
  ⟨Tracker.searched_run heap budget, fun alignment requests _ =>
    ⟨(steps_run (opened heap budget alignment) requests).exists_run, rfl⟩⟩

/-- Two blocks of which one is older: for the longest age below its own it is reported alone, and exactly. -/
theorem run_leaks_older :
    let acts : List Tracker.Act :=
      [.advance 7, .allocate 3 .word, .advance 1500, .allocate 4 .byte, .reallocate (.place 2 0 0 0 .byte 0) 9,
        .advance 2000]
    let start := Tracker.ofHeap (BumpHeap.ofPlan {}) none
    let older : Block := .place 1 65536 3 10 .word 7
    let age : Age := { seconds := 0, nanoseconds := 3499999 }
    (start.run acts).leaks age = [older] ∧
      (∀ b, b ∈ (start.run acts).leaks age ↔
        b ∈ (start.run acts).blocks ∧
          ∃ time, start.Made acts b time ∧ age.microseconds < Tracker.elapsed acts - time) ∧
      (start.run acts).leaks { seconds := 0, nanoseconds := 3500000 } = [] := by
  intro acts start older age
  have hsearched := (run_leaks (BumpHeap.ofPlan {}) none).1 acts
  exact ⟨by decide +kernel, (hsearched.exact_iff (by decide) age).mpr (.inl (by decide)), by decide +kernel⟩

/-- A block of two milliseconds is reported as older than `2 ^ 64` microseconds, though not as older than a second;
and so it is where the settings have as many milliseconds as make no microseconds in a word. -/
theorem run_leaks_young :
    let acts : List Tracker.Act := [.allocate 8 .byte, .advance 2000]
    let start := Tracker.ofHeap (BumpHeap.ofPlan {}) none
    let young : Block := .place 1 65536 8 8 .byte 0
    let second : Age := { seconds := 1, nanoseconds := 0 }
    let age : Age := { seconds := 18446744073709, nanoseconds := 551616000 }
    let config : Config := { leakAge := Word.limit / 8 }
    (start.Made acts young 0 ∧ Tracker.elapsed acts = 2000) ∧
      (age.microseconds = Word.limit ∧ config.age.microseconds = Word.limit / 8 * 1000) ∧
      young ∈ (start.run acts).leaks age ∧ young ∈ (start.run acts).leaks config.age ∧
      (¬ ∀ b, b ∈ (start.run acts).leaks age ↔
        b ∈ (start.run acts).blocks ∧
          ∃ time, start.Made acts b time ∧ age.microseconds < Tracker.elapsed acts - time) ∧
      second.microseconds ≤ age.microseconds ∧ young ∉ (start.run acts).leaks second := by
  intro acts start young second age config
  have hmade : start.Made acts young 0 :=
    ⟨[], .allocate 8 .byte, [.advance 2000], rfl, List.not_mem_nil, by decide +kernel, rfl⟩
  have hleak : young ∈ (start.run acts).leaks age := by decide +kernel
  refine ⟨⟨hmade, rfl⟩, ⟨by decide, config.age_microseconds⟩, hleak, by decide +kernel, fun hexact => ?_,
    by decide, by decide +kernel⟩
  obtain ⟨-, time, -, hold⟩ := (hexact young).mp hleak
  exact absurd (Nat.lt_of_lt_of_le hold (Nat.sub_le ..)) (by decide)

end TrackedHeap.Workspace
