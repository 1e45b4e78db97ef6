import TrackedHeap.Proofs.Tracker.Run
import TrackedHeap.Workspace.Request

/-!
# Everything acts by steps of the tracker

Whatever is asked of a pool, a carver, a registry or a workspace, the tracker below it is changed by
operations of the tracker only (`Workspace.steps_perform`, `Workspace.steps_run`,
`Workspace.exists_stages`). So an invariant of trackers needs to be proved for the operations of trackers
alone, as `Workspace.wellFormed_run` shows.
-/

namespace TrackedHeap

open Tracker (Step Steps)

variable {H : Type} [Heap H]

/-! ## Pools -/

namespace Pool

theorem steps_acquire (p : Pool) (t : Tracker H) : Steps t (p.acquire t).2.2 := by
  fun_cases Pool.acquire p t
  case case1 => exact .refl
  case case2 h => exact Steps.allocate h
  case case3 h => exact Steps.allocate h

theorem steps_release (p : Pool) (t : Tracker H) (handle : Block) :
    Steps t (p.release t handle).2.2 := by
  fun_cases Pool.release p t handle
  case case1 => exact .refl
  case case2 => exact .refl
  case case3 h => exact Steps.fill h
  case case4 h _ => exact Steps.fill h
  case case5 h _ _ _ h' => exact (Steps.fill h).trans (Steps.free h')
  case case6 h _ _ _ h' => exact (Steps.fill h).trans (Steps.free h')

theorem steps_clear (p : Pool) (t : Tracker H) : Steps t (p.clear t).2.2 := by
  refine Steps.foldl Prod.snd (fun s block => ?_) p.queue (0, t)
  obtain ⟨count, t⟩ := s
  simp only
  split <;> next h => exact Steps.free h

end Pool

/-! ## Carvers -/

theorem Buddy.steps_make (t : Tracker H) (total : Nat) (alignment : Alignment) :
    Steps t (Buddy.make t total alignment).2 := by
  fun_cases Buddy.make t total alignment
  case case1 => exact .refl
  case case2 => exact .refl
  case case3 h => exact Steps.allocate h
  case case4 h => exact Steps.allocate h

theorem RingBuffer.steps_make (t : Tracker H) (total : Nat) (alignment : Alignment) :
    Steps t (RingBuffer.make t total alignment).2 := by
  fun_cases RingBuffer.make t total alignment
  case case1 => exact .refl
  case case2 h => exact Steps.allocate h
  case case3 h => exact Steps.allocate h

namespace Arena

theorem steps_make (t : Tracker H) (total : Nat) (alignment : Alignment) :
    Steps t (Arena.make t total alignment).2 := by
  fun_cases Arena.make t total alignment
  case case1 => exact .refl
  case case2 h => exact Steps.allocate h
  case case3 h => exact Steps.allocate h

theorem steps_carve (a : Arena) (t : Tracker H) (size : Nat) : Steps t (a.carve t size).2.2 := by
  fun_cases Arena.carve a t size
  case case1 => exact .refl
  case case2 => exact .refl
  case case3 h => exact Steps.allocate h
  case case4 h _ _ _ => exact Steps.allocate h
  case case5 => exact .refl

theorem steps_freeBlocks (t : Tracker H) (blocks : List Block) :
    Steps t (freeBlocks t blocks).2 := by
  refine Steps.foldl Prod.snd (fun s block => ?_) blocks (Except.ok (), t)
  obtain ⟨result, t⟩ := s
  simp only
  split <;> next h => exact Steps.free h

end Arena

namespace SlabCarver

theorem steps_newSlab (s : SlabCarver) (t : Tracker H) (size : Nat) :
    Steps t (s.newSlab t size).2.2 := by
  fun_cases SlabCarver.newSlab s t size
  case case1 => exact .refl
  case case2 => exact .refl
  case case3 h => exact Steps.allocate h
  case case4 h _ => exact Steps.allocate h

theorem steps_carve (s : SlabCarver) (t : Tracker H) (size : Nat) :
    Steps t (s.carve t size).2.2 := by
  have hnew := s.steps_newSlab t size
  fun_cases SlabCarver.carve s t size
  case case1 => exact .refl
  case case2 => exact .refl
  case case3 h => rwa [h] at hnew
  case case4 h _ _ _ => rwa [h] at hnew

theorem steps_dispose (s : SlabCarver) (t : Tracker H) : Steps t (s.dispose t) := by
  refine Steps.foldl (fun t : Tracker H => t) (fun t slab => ?_) s.slabs t
  exact .single (.free t slab.base)

end SlabCarver

namespace ObjectPool

theorem steps_carve (p : ObjectPool) (t : Tracker H) (size : Nat) :
    Steps t (p.carve t size).2.2 := by
  fun_cases ObjectPool.carve p t size
  case case1 => exact .refl
  case case2 => exact .refl
  case case3 => exact .refl
  case case4 h => exact Steps.allocate h
  case case5 h => exact Steps.allocate h

theorem steps_drain (p : ObjectPool) (t : Tracker H) (ranges : List CarveOut) :
    Steps t (p.drain t ranges).2.2 := by
  unfold drain
  refine Steps.foldl (fun s : Outcome Unit (ObjectPool × Tracker H) => s.2.2) (fun s c => ?_) ranges
    (Except.ok (), p, t)
  obtain ⟨result, p, t⟩ := s
  simp only
  split <;> next h => exact Steps.free h

theorem steps_reset (p : ObjectPool) (t : Tracker H) : Steps t (p.reset t).2.2 :=
  p.steps_drain t p.queued

end ObjectPool

namespace Hybrid

theorem steps_make (t : Tracker H) (total : Nat) (alignment : Alignment) :
    Steps t (Hybrid.make t total alignment).2 := by
  have hmedium := Buddy.steps_make t (total / 2) alignment
  fun_cases Hybrid.make t total alignment
  case case1 => exact .refl
  case case2 => exact .refl
  case case3 h => rwa [h] at hmedium
  case case4 medium t₁ h e t₂ h' =>
    rw [h] at hmedium
    have hlarge := Arena.steps_make t₁ (total / 4) alignment
    rw [h'] at hlarge
    exact (hmedium.trans hlarge).tail (.free t₂ medium.base)
  case case5 medium t₁ h large t₂ h' =>
    rw [h] at hmedium
    have hlarge := Arena.steps_make t₁ (total / 4) alignment
    rw [h'] at hlarge
    exact hmedium.trans hlarge

theorem steps_allocate (h : Hybrid) (t : Tracker H) (size : Nat) :
    Steps t (h.allocate t size).2.2 := by
  unfold Hybrid.allocate
  split
  · exact .refl
  · split
    · exact h.small.steps_carve t size
    · exact .refl
    · exact h.large.steps_carve t size

theorem steps_reset (h : Hybrid) (t : Tracker H) : Steps t (h.reset t).2.2 :=
  (h.small.steps_dispose t).trans (Arena.steps_freeBlocks _ _)

theorem steps_dispose (h : Hybrid) (t : Tracker H) : Steps t (h.dispose t) :=
  ((h.small.steps_dispose t).tail (.free _ h.medium.base)).trans (Arena.steps_freeBlocks _ _)

end Hybrid

namespace Carver

theorem steps_build (t : Tracker H) (strategy : Strategy) (total : Nat) (alignment : Alignment) :
    Steps t (Carver.build t strategy total alignment).2 := by
  have built_snd {σ : Type} (wrap : σ → Carver) (o : Outcome σ (Tracker H)) :
      (built wrap o).2 = o.2 := by
    obtain ⟨_ | _, _⟩ := o <;> rfl
  cases strategy <;> simp only [Carver.build, built_snd]
  case buddy => exact Buddy.steps_make t total alignment
  case slab => exact .refl
  case arena => exact Arena.steps_make t total alignment
  case ringBuffer => exact RingBuffer.steps_make t total alignment
  case objectPool => exact .refl
  case hybrid => exact Hybrid.steps_make t total alignment

theorem steps_allocate (c : Carver) (t : Tracker H) (size : Nat) :
    Steps t (c.allocate t size).2.2 := by
  cases c with
  | buddy b => exact .refl
  | slab s => exact s.steps_carve t size
  | arena a => exact a.steps_carve t size
  | ringBuffer r => exact .refl
  | objectPool p => exact p.steps_carve t size
  | hybrid h => exact h.steps_allocate t size

omit [Heap H] in
/-- A range that comes back never reaches the tracker. -/
theorem release_tracker (c : Carver) (t : Tracker H) (handle : CarveOut) :
    (c.release t handle).2.2 = t := by
  cases c <;> rfl

theorem steps_reset (c : Carver) (t : Tracker H) : Steps t (c.reset t).2.2 := by
  cases c with
  | buddy b => exact .refl
  | slab s => exact s.steps_dispose t
  | arena a => exact Arena.steps_freeBlocks t _
  | ringBuffer r => exact .refl
  | objectPool p => exact p.steps_reset t
  | hybrid h => exact h.steps_reset t

theorem steps_dispose (c : Carver) (t : Tracker H) : Steps t (c.dispose t) := by
  cases c with
  | buddy b => exact .single (.free t b.base)
  | slab s => exact s.steps_dispose t
  | arena a => exact Arena.steps_freeBlocks t _
  | ringBuffer r => exact .single (.free t r.base)
  | objectPool p => exact p.steps_reset t
  | hybrid h => exact h.steps_dispose t

end Carver

/-! ## Registries -/

namespace Registry

theorem steps_get (r : Registry) (t : Tracker H) (name : String) (strategy : Strategy) (total : Nat)
    (alignment : Alignment) : Steps t (r.get t name strategy total alignment).2.2 := by
  have hbuild := Carver.steps_build t strategy total alignment
  fun_cases Registry.get r t name strategy total alignment
  case case1 => exact .refl
  case case2 => exact .refl
  case case3 h => rwa [h] at hbuild
  case case4 h _ => rwa [h] at hbuild

theorem steps_resetAll (r : Registry) (t : Tracker H) (serials : List Nat) :
    Steps t (r.resetAll t serials).2 := by
  refine Steps.foldl Prod.snd (fun s serial => ?_) serials (r, t)
  obtain ⟨r, t⟩ := s
  simp only
  split
  · exact .refl
  · exact Carver.steps_reset _ t

theorem steps_sweep (r : Registry) (t : Tracker H) (held : List Nat) :
    Steps t (r.sweep t held).2 :=
  Steps.foldl (fun t => t) (fun t a => a.carver.steps_dispose t) _ t

end Registry

/-! ## Workspaces -/

namespace Workspace

theorem steps_settle (w : Workspace H) : Steps w.tracker w.settle.tracker :=
  w.registry.steps_sweep w.tracker w.held

theorem steps_endHolding (w : Workspace H) (holding : Holding) :
    Steps w.tracker (w.endHolding holding).tracker := by
  cases holding with
  | own carver => exact carver.steps_dispose w.tracker
  | shared serial => exact .refl

theorem steps_letGo (w : Workspace H) (label : String) : Steps w.tracker (w.letGo label).tracker := by
  unfold letGo
  split
  · exact .refl
  · next holding _ =>
    exact (steps_endHolding { w with holdings := unlabel w.holdings label } holding).trans
      (steps_settle _)

theorem steps_hold (w : Workspace H) (label : String) (holding : Holding) :
    Steps w.tracker (w.hold label holding).tracker := by
  unfold hold
  simp only
  split
  · exact .refl
  · next old _ =>
    exact (steps_endHolding { w with holdings := relabel w.holdings label holding } old).trans
      (steps_settle _)

theorem steps_holdPool (w : Workspace H) (label : String) (pool : Pool) :
    Steps w.tracker (w.holdPool label pool).tracker := by
  unfold holdPool
  simp only
  split
  · exact .refl
  · next old _ => exact old.steps_clear w.tracker

theorem steps_dropPool (w : Workspace H) (label : String) :
    Steps w.tracker (w.dropPool label).tracker := by
  unfold dropPool
  split
  · exact .refl
  · next pool _ => exact pool.steps_clear w.tracker

theorem steps_shutdown (w : Workspace H) : Steps w.tracker w.shutdown.2.tracker := by
  refine (w.registry.steps_resetAll w.tracker (w.registry.registered.map Allocator.serial)).trans ?_
  exact steps_settle { w with
    registry := (w.registry.shutdown w.tracker).2.1
    tracker := (w.registry.shutdown w.tracker).2.2 }

omit [Heap H] in
theorem onTracker_tracker {α : Type} (w : Workspace H) (reply : α → Reply)
    (o : Outcome α (Tracker H)) : (w.onTracker reply o).2.tracker = o.2 := by
  obtain ⟨_ | _, _⟩ := o <;> rfl

omit [Heap H] in
theorem answer_tracker {α : Type} (w : Workspace H) (reply : α → Reply)
    (result : Except MemoryError α) : (w.answer reply result).2 = w := by
  cases result <;> rfl

theorem steps_onPool {α : Type} {act : Pool → Tracker H → Outcome α (Pool × Tracker H)}
    (hact : ∀ pool t, Steps t (act pool t).2.2) (w : Workspace H) (label : String)
    (reply : α → Reply) : Steps w.tracker (w.onPool label reply act).2.tracker := by
  unfold onPool
  split
  · exact .refl
  · exact hact _ w.tracker

omit [Heap H] in
theorem setCarver_tracker (w : Workspace H) (label : String) (carver : Carver) :
    (w.setCarver label carver).tracker = w.tracker := by
  unfold setCarver
  split <;> rfl

theorem steps_onCarver {α : Type} {act : Carver → Tracker H → Outcome α (Carver × Tracker H)}
    (hact : ∀ c t, Steps t (act c t).2.2) (w : Workspace H) (label : String)
    (reply : α → Reply) : Steps w.tracker (w.onCarver label reply act).2.tracker := by
  unfold onCarver
  split
  · exact .refl
  · simp only [setCarver_tracker]
    exact hact _ w.tracker

theorem steps_build (w : Workspace H) (label : String) (strategy : Strategy) (total : Nat)
    (alignment : Alignment) : Steps w.tracker (w.build label strategy total alignment).2.tracker := by
  have hbuild := Carver.steps_build w.tracker strategy total alignment
  unfold build
  split
  · next h =>
    rw [h] at hbuild
    exact hbuild
  · next t h =>
    rw [h] at hbuild
    exact hbuild.trans (steps_hold { w with tracker := t } label _)

theorem steps_get (w : Workspace H) (label name : String) (strategy : Strategy) (total : Nat)
    (alignment : Option Alignment) :
    Steps w.tracker (w.get label name strategy total alignment).2.tracker := by
  have hget := w.registry.steps_get w.tracker name strategy total
    (alignment.getD w.registry.alignment)
  unfold get
  split
  · next h =>
    rw [h] at hget
    exact hget
  · next r t h =>
    rw [h] at hget
    exact hget.trans (steps_hold { w with registry := r, tracker := t } label _)

theorem steps_remove (w : Workspace H) (name : String) (label : Option String) :
    Steps w.tracker (w.remove name label).2.tracker := by
  unfold remove
  split
  · exact .refl
  · next a _ =>
    cases label with
    | none => exact steps_settle { w with registry := w.registry.remove name }
    | some label => exact steps_hold { w with registry := w.registry.remove name } label _

/-- A request acts on the tracker by its operations. -/
theorem steps_perform (w : Workspace H) (request : Request) :
    Steps w.tracker (w.perform request).2.tracker := by
  cases request <;> simp only [perform, onTracker_tracker, answer_tracker]
  case wait => exact .single (.advance ..)
  case allocate => exact .single (.allocate ..)
  case free => exact .single (.free ..)
  case reallocate => exact .single (.reallocate ..)
  case fill => exact .single (.fill ..)
  case write => exact .single (.write ..)
  case copy => exact .single (.copy ..)
  case freeAll => exact Steps.freeAll w.tracker
  case makePool =>
    split
    · exact .refl
    · exact steps_holdPool ..
  case acquire label => exact steps_onPool (fun pool t => pool.steps_acquire t) w label _
  case release label handle =>
    exact steps_onPool (fun pool t => pool.steps_release t handle) w label _
  case clear label => exact steps_onPool (fun pool t => pool.steps_clear t) w label _
  case poolStats label => exact steps_onPool (fun _ _ => .refl) w label _
  case dropPool => exact steps_dropPool ..
  case build => exact steps_build ..
  case get => exact steps_get ..
  case carve label size => exact steps_onCarver (fun c t => c.steps_allocate t size) w label _
  case giveBack label handle =>
    refine steps_onCarver (fun c t => ?_) w label _
    rw [c.release_tracker t handle]
  case reset label => exact steps_onCarver (fun c t => c.steps_reset t) w label _
  case carverStats label => exact steps_onCarver (fun _ _ => .refl) w label _
  case letGo => exact steps_letGo ..
  case remove => exact steps_remove ..
  case shutdown => exact steps_shutdown w
  all_goals exact .refl

/-- So does a run. -/
theorem steps_run (w : Workspace H) (requests : List Request) :
    Steps w.tracker (w.run requests).tracker :=
  Steps.foldl Workspace.tracker (fun w request => w.steps_perform request) requests w

/-- Request by request, a run is a run of the tracker: each of them does a number of operations. -/
theorem exists_stages (w : Workspace H) (requests : List Request) :
    ∃ stages : List (List Tracker.Act), stages.length = requests.length ∧
      ∀ n, (w.run (requests.take n)).tracker = w.tracker.run (stages.take n).flatten := by
  induction requests generalizing w with
  | nil => exact ⟨[], rfl, fun n => by simp [run, Tracker.run]⟩
  | cons request requests ih =>
    obtain ⟨acts, hacts⟩ := (w.steps_perform request).exists_run
    obtain ⟨stages, hlen, hstages⟩ := ih (w.perform request).2
    refine ⟨acts :: stages, by simp [hlen], fun n => ?_⟩
    cases n with
    | zero => rfl
    | succ n =>
      rw [List.take_succ_cons, List.take_succ_cons, List.flatten_cons, Tracker.run_append, hacts]
      exact hstages n

/-- The workspace of a heap that has granted nothing yet. -/
def opened (heap : H) (budget : Option Nat) (alignment : Alignment) : Workspace H where
  tracker := .ofHeap heap budget
  registry := { alignment }

open LawfulHeap (Sound Granted) in
/-- Whatever is asked of a workspace, its tracker stays well formed. -/
theorem wellFormed_run [LawfulHeap H] {heap : H} (hs : Sound heap) (hg : ∀ e, ¬ Granted heap e)
    (budget : Option Nat) (alignment : Alignment) (requests : List Request) :
    ((opened heap budget alignment).run requests).tracker.WellFormed :=
  (steps_run _ requests).wellFormed (Tracker.wellFormed_ofHeap hs hg)

end Workspace

end TrackedHeap
