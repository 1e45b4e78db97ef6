import TrackedHeap.Proofs.Carver.Construction
import TrackedHeap.Proofs.Heap.Budgeted

/-!
# Construction is all or nothing

In every workspace, a carver that cannot be built and an allocator that cannot be had leave everything as it
was: the live blocks with their bytes, what they hold, the names, the allocators, and what clients hold
(`Workspace.run_build_refused`). The heap may refuse at any call, also by answering with the address 0, and so
may a budget over it.
-/

namespace TrackedHeap

variable {H : Type} [Heap H]

/-- An allocator that cannot be had changes no other. -/
theorem Registry.get_refused {r r' : Registry} {t t' : Tracker H} {name : String} {strategy : Strategy}
    {total : Nat} {alignment : Alignment} {e : MemoryError}
    (h : r.get t name strategy total alignment = (.error e, r', t')) :
    r' = r ∧ (t' = t ∨ Carver.build t strategy total alignment = (.error e, t')) := by
  revert h
  fun_cases Registry.get r t name strategy total alignment
  case case1 => exact fun h => by cases h; exact ⟨rfl, .inl rfl⟩
  case case3 hbuild => exact fun h => by cases h; exact ⟨rfl, .inr hbuild⟩
  all_goals exact fun h => by cases h

namespace Workspace

open LawfulHeap (Sound Granted)

theorem build_refused {w w' : Workspace H} {label : String} {strategy : Strategy} {total : Nat}
    {alignment : Alignment} {e : MemoryError}
    (h : w.perform (.build label strategy total alignment) = (.error e, w')) :
    w' = { w with tracker := w'.tracker } ∧
      Carver.build w.tracker strategy total alignment = (.error e, w'.tracker) := by
  change w.build label strategy total alignment = _ at h
  revert h
  fun_cases Workspace.build w label strategy total alignment
  case case1 hbuild => exact fun h => by cases h; exact ⟨rfl, hbuild⟩
  case case2 => exact fun h => by cases h

theorem get_refused {w w' : Workspace H} {label name : String} {strategy : Strategy} {total : Nat}
    {alignment : Option Alignment} {e : MemoryError}
    (h : w.perform (.get label name strategy total alignment) = (.error e, w')) :
    w' = { w with tracker := w'.tracker } ∧
      ∃ registry, w.registry.get w.tracker name strategy total (alignment.getD w.registry.alignment) =
        (.error e, registry, w'.tracker) := by
  change w.get label name strategy total alignment = _ at h
  revert h
  fun_cases Workspace.get w label name strategy total alignment
  case case1 hget =>
    intro h
    cases h
    obtain ⟨rfl, -⟩ := Registry.get_refused hget
    exact ⟨rfl, _, hget⟩
  case case2 => exact fun h => by cases h

/-- Of what is refused while it is built nothing stays. -/
structure AllOrNothing (w : Workspace H) : Prop where
  build : ∀ strategy total alignment e t',
    Carver.build w.tracker strategy total alignment = (.error e, t') → w.tracker.Restored t'
  /-- The block of the medium part of a hybrid is not live if the hybrid cannot be built. -/
  hybrid : ∀ total alignment medium t₁ e t',
    Buddy.make w.tracker (total / 2) alignment = (.ok medium, t₁) →
      Hybrid.make w.tracker total alignment = (.error e, t') →
        t₁.isLive medium.base = true ∧ t'.isLive medium.base = false
  /-- Neither a name nor an allocator is added, changed or taken away. -/
  registry : ∀ name strategy total alignment e r' t',
    w.registry.get w.tracker name strategy total alignment = (.error e, r', t') →
      r' = w.registry ∧ w.tracker.Restored t'
  /-- What clients hold is as before, when they ask for a carver of their own -/
  own : ∀ label strategy total alignment e w',
    w.perform (.build label strategy total alignment) = (.error e, w') →
      w' = { w with tracker := w'.tracker } ∧ w.tracker.Restored w'.tracker
  /-- and when they ask for an allocator. -/
  shared : ∀ label name strategy total alignment e w',
    w.perform (.get label name strategy total alignment) = (.error e, w') →
      w' = { w with tracker := w'.tracker } ∧ w.tracker.Restored w'.tracker

/-- Whatever was asked of a workspace before, what cannot be built leaves no trace in it. -/
theorem run_build_refused [LawfulBytes (NonNull H)] {heap : H} (hs : Sound (NonNull.mk heap))
    (hg : ∀ e, ¬ Granted (NonNull.mk heap) e) (budget : Option Nat) (alignment : Alignment)
    (requests : List Request) : AllOrNothing ((opened heap budget alignment).run requests) := by
  set w := (opened heap budget alignment).run requests
  have hsteps : Tracker.Steps (.ofHeap heap budget) w.tracker :=
    steps_run (opened heap budget alignment) requests
  have hbuild {strategy total alignment e t'}
      (h : Carver.build w.tracker strategy total alignment = (.error e, t')) : w.tracker.Restored t' :=
    Carver.restored_of_build hs hg hsteps h
  have hget {name strategy total alignment e r' t'}
      (h : w.registry.get w.tracker name strategy total alignment = (.error e, r', t')) :
      r' = w.registry ∧ w.tracker.Restored t' := by
    obtain ⟨hr, rfl | hb⟩ := Registry.get_refused h
    · exact ⟨hr, rfl, fun _ _ => .refl _ _, rfl⟩
    · exact ⟨hr, hbuild hb⟩
  refine ⟨fun _ _ _ _ _ h => hbuild h, ?_, fun _ _ _ _ _ _ _ h => hget h, ?_, ?_⟩
  · intro total alignment medium t₁ e t' hmedium hhybrid
    have hall : Carver.build w.tracker .hybrid total alignment = (.error e, t') :=
      congrArg (Carver.built .hybrid) hhybrid
    obtain ⟨hblocks, -, hid, -⟩ := Tracker.allocate_ok (Buddy.make_ok hmedium).2
    have hview : w.tracker.nonNull.WellFormed := hsteps.wellFormed_nonNull hs hg
    refine ⟨Tracker.isSome_lookup_iff.mpr ?_, Option.isSome_eq_false_iff.mpr ?_⟩
    · exact hblocks ▸ List.mem_map_of_mem List.mem_concat_self
    · refine Option.isNone_iff_eq_none.mpr (Tracker.lookup_eq_none_iff.mpr fun b hb => ?_)
      rw [(hbuild hall).blocks] at hb
      exact hid ▸ Nat.ne_of_lt (hview.numbered.issued b hb)
  · intro label strategy total alignment e w' h
    obtain ⟨hsame, hb⟩ := build_refused h
    exact ⟨hsame, hbuild hb⟩
  · intro label name strategy total alignment e w' h
    obtain ⟨hsame, registry, hr⟩ := get_refused h
    exact ⟨hsame, (hget hr).2⟩

/-- A budget of 700 bytes has room for the slabs and buddies of a hybrid of 800 bytes, but not for its arena. -/
theorem run_build_refused_hybrid :
    let heap : Budgeted BumpHeap := { inner := BumpHeap.ofPlan {}, budget := 700 }
    let w := (opened heap none .byte).run
      [.allocate 8 .word, .write (.place 1 0 0 0 .byte 0) 0 [1, 2, 3], .get "s" "small" .slab 100 none]
    AllOrNothing w ∧
      ((w.perform (.get "h" "all" .hybrid 800 none)).1.map fun _ => ()) = .error (.outOfMemory 200 173) ∧
      (Buddy.make w.tracker (800 / 2) .byte).1.isOk = true := by
  refine ⟨run_build_refused (BumpHeap.orderly_plain_ofPlan (by decide))
    (fun _ => List.not_mem_nil) none .byte _, ?_⟩
  decide +kernel

end Workspace

end TrackedHeap
