import TrackedHeap.Proofs.Pool.Alike

/-!
# Blocks that a pool hands out again

A block is set to zero when a pool takes it back. While it waits the pool does nothing to it, and what others do to
other blocks does not reach it, so it holds zeros when it is handed out again (`Pool.Recycled.blank`). Hence nothing
of what was written to it before can be found out through it afterwards: two runs up to its return that differ in
the bytes that were written go on alike for whoever has it next (`Pool.run_recycled`).

The heap may place ranges where it likes, and may have answered any call with a refusal or the address 0. For two
runs to ask it the same and be answered the same, it must not look at the bytes.
-/

namespace TrackedHeap.Pool

open Heap (Oblivious)
open LawfulHeap (Sound Granted)

variable {H : Type} [Heap H] {s s' : Pool × Tracker H} {b : Block}

/-- As long as the pool keeps the block, others leave it alone. -/
def Spared (id : Nat) (s : Pool × Tracker H) : List Act → Prop
  | [] => True
  | a :: acts => (∀ c, a = .tracker c → id ∈ s.1.kept → s.2.Spares id c) ∧ Spared id (act s a).2 acts

theorem Spared.of_alike {Same : H → H → Prop} (ho : Oblivious Same) {id : Nat} {acts : List Act}
    (h : Spared id s acts) (hal : Alike Same s s') : Spared id s' acts := by
  induction acts generalizing s s' with
  | nil => trivial
  | cons a acts ih =>
    obtain ⟨hhead, hrest⟩ := h
    refine ⟨fun c hc hkept hnames => ?_, ih hrest (hal.act ho (.refl a)).2⟩
    rw [(hal.trackers.act ho (.refl c)).answer]
    exact hhead c hc (hal.pool ▸ hkept) hnames

/-- A block is taken back, waits undisturbed, and is handed out again. -/
structure Recycled (s : Pool × Tracker H) (b : Block) (between : List Act) : Prop where
  /-- The handle is the one that the tracker gave out, and its block is live. -/
  live : b ∈ s.2.blocks
  queued : (act s (.release b)).2.1.queue = s.1.queue ++ [b]
  spared : Spared b.id (act s (.release b)).2 between
  returned : (act (run s (.release b :: between)) .acquire).1 = .ok (.block b)

/-- The bytes of the block, as many as blocks of the pool have, are zero. -/
def Blank (s : Pool × Tracker H) (b : Block) : Prop :=
  s.2.read b 0 s.1.blockSize = .ok (List.replicate s.1.blockSize 0)

theorem Blank.of_readsSame (h : Blank s b) (hp : s'.1.blockSize = s.1.blockSize) (hs : s.2.ReadsSame s'.2 b) :
    Blank s' b := by
  unfold Blank
  rw [hp, hs]
  exact h

theorem fill_of_queued {handle : Block} (h : (act s (.release handle)).2.1.queue = s.1.queue ++ [handle]) :
    handle.requestedSize = s.1.blockSize ∧
      s.2.fill handle 0 s.1.blockSize 0 = (.ok (), (act s (.release handle)).2.2) := by
  have hnot : s.1.queue ≠ s.1.queue ++ [handle] := by simp
  obtain ⟨p, t⟩ := s
  revert h
  simp only [act]
  fun_cases Pool.release p t handle
  case case4 hsize hin t₁ hzero hroom =>
    intro _
    have hsize := Decidable.not_not.mp hsize
    exact ⟨hsize, hsize ▸ hzero⟩
  all_goals exact fun h => absurd h hnot

variable [LawfulBytes (NonNull H)]

/-- What the pool takes back is set to zero. -/
theorem blank_of_queued (hw : s.2.nonNull.WellFormed) {handle : Block}
    (h : (act s (.release handle)).2.1.queue = s.1.queue ++ [handle]) : Blank (act s (.release handle)).2 handle := by
  obtain ⟨-, hfill⟩ := fill_of_queued h
  have hfilled : s.2.nonNull.fill handle 0 s.1.blockSize 0 = (.ok (), (act s (.release handle)).2.2.nonNull) := by
    rw [Tracker.fill_nonNull, hfill, Tracker.viewed]
  have harrived := (hw.stored_fill hfilled).arrived
  rw [List.length_replicate] at harrived
  unfold Blank
  rw [(shape_act s (.release handle)).1]
  exact harrived

/-- No operation disturbs a kept block that stays with the pool, if others leave it alone. -/
theorem Blank.act (hb : Blank s b) (hf : Filed s) (hw : s.2.nonNull.WellFormed) (hkept : b.id ∈ s.1.kept) {a : Act}
    (hs : ∀ c, a = .tracker c → s.2.Spares b.id c) (hafter : b.id ∈ (act s a).2.1.kept) :
    Blank (Pool.act s a).2 b := by
  have hlive := Tracker.isLive_of_read hb
  refine hb.of_readsSame (shape_act s a).1 ?_
  by_cases ha : ∃ c, a = .tracker c
  · obtain ⟨c, rfl⟩ := ha
    exact Tracker.readsSame_act_of_spares hw hlive (hs c rfl)
  · rw [run_calls]
    refine Tracker.readsSame_run hw hlive fun c hc hnames => ?_
    have hother {handle : Block} (hnew : handle.id ∉ s.1.pooled) : handle.id ≠ b.id := fun he =>
      hnew ((hf.mem_pooled _).mpr (he ▸ hkept))
    cases call_of_mem hc with
    | passedOn => exact ha ⟨c, rfl⟩
    | asked => exact hnames
    | zeroed handle hnew => exact hother hnew hnames
    | returned handle hnew => exact hother hnew hnames
    | cleared block => exact List.not_mem_nil hafter

/-- A block that has just been kept holds zeros, and one that was kept before still does. -/
theorem blank_act (hf : Filed s) (hw : s.2.nonNull.WellFormed) (hb : b.id ∈ s.1.kept → Blank s b) {a : Act}
    (hs : ∀ c, a = .tracker c → b.id ∈ s.1.kept → s.2.Spares b.id c) (hafter : b.id ∈ (act s a).2.1.kept) :
    Blank (act s a).2 b := by
  by_cases hkept : b.id ∈ s.1.kept
  · exact (hb hkept).act hf hw hkept (fun c hc => hs c hc hkept) hafter
  · have hin := hafter
    unfold kept at hkept hin
    cases change_act s a with
    | same hq => exact absurd (hq ▸ hin) hkept
    | reused block hq =>
      rw [hq] at hkept
      exact absurd (List.mem_cons_of_mem _ hin) hkept
    | kept handle hsize hlive hq =>
      rw [hq, List.map_append, List.mem_append, List.map_singleton, List.mem_singleton] at hin
      have hblank := blank_of_queued hw hq
      unfold Blank at hblank ⊢
      rw [Tracker.interchangeable _ |>.read b handle (hin.resolve_left hkept)]
      exact hblank
    | cleared hq =>
      rw [hq] at hin
      exact absurd hin List.not_mem_nil

theorem blank_run (hf : Filed s) (hw : s.2.nonNull.WellFormed) (hb : b.id ∈ s.1.kept → Blank s b) {acts : List Act}
    (hs : Spared b.id s acts) (hafter : b.id ∈ (run s acts).1.kept) : Blank (run s acts) b := by
  induction acts generalizing s with
  | nil => exact hb hafter
  | cons a acts ih =>
    obtain ⟨hhead, hrest⟩ := hs
    exact ih (hf.act a) ((steps_act s a).view_wellFormed hw) (blank_act hf hw hb hhead) hrest hafter

/-! ## The block that comes back -/

namespace Recycled

variable {between : List Act}

omit [LawfulBytes (NonNull H)] in
/-- It was kept until then, and handing it out does nothing to the tracker. -/
theorem kept (h : Recycled s b between) (hf : Filed s) :
    b.id ∈ (run s (.release b :: between)).1.kept ∧
      (act (run s (.release b :: between)) .acquire).2.2 = (run s (.release b :: between)).2 := by
  rcases acquire_ok (act_acquire_eq_ok.mp h.returned) with ⟨hin, htracker⟩ | hnew
  · exact ⟨List.mem_map_of_mem hin, htracker⟩
  · -- a new block has an id that was not given out before
    obtain ⟨-, -, hid, -⟩ := Tracker.allocate_ok hnew
    have hlt := hf.assigned b h.live
    have hle := (steps_run s (.release b :: between)).nextId_le
    omega

theorem blank (h : Recycled s b between) (hf : Filed s) (hw : s.2.nonNull.WellFormed) :
    Blank (act (run s (.release b :: between)) .acquire).2 b := by
  obtain ⟨hkept, htracker⟩ := h.kept hf
  have hzeros := blank_run (hf.act (.release b)) ((steps_act s (.release b)).view_wellFormed hw)
    (fun _ => blank_of_queued hw h.queued) h.spared hkept
  exact hzeros.of_readsSame (shape_act _ .acquire).1 (htracker ▸ fun _ _ => rfl)

/-- It is the block that was released. -/
theorem lookup_eq (h : Recycled s b between) (hf : Filed s) (hw : s.2.nonNull.WellFormed) :
    (act (run s (.release b :: between)) .acquire).2.2.lookup b.id = some b := by
  have hlive := Tracker.isLive_of_read (h.blank hf hw)
  obtain ⟨c, hc⟩ := Option.isSome_iff_exists.mp hlive
  obtain ⟨hmem, hid⟩ := Tracker.mem_of_lookup hc
  have hsteps : Tracker.Steps s.2 (act (run s (.release b :: between)) .acquire).2.2 :=
    (steps_run s (.release b :: between)).trans (steps_act _ .acquire)
  rcases hsteps.origin hmem with hold | hnew
  · have heq : c = b := hw.layout.eq_of_id hold h.live hid
    rwa [heq] at hc
  · have hlt := hf.assigned b h.live
    omega

omit [LawfulBytes (NonNull H)] in
/-- It comes back in a run that is alike, too. -/
theorem of_alike {Same : H → H → Prop} (ho : Oblivious Same) (h : Recycled s b between) (hal : Alike Same s s') :
    Recycled s' b between where
  live := by
    rw [hal.trackers.books]
    exact h.live
  queued := by
    rw [(hal.act ho (.refl _)).2.pool, hal.pool]
    exact h.queued
  spared := h.spared.of_alike ho (hal.act ho (.refl _)).2
  returned := ((hal.run_same ho _).2.act ho (.refl _)).1.trans h.returned

end Recycled

/-- A block is handed out again, after its return and some other operations, with nothing left of its last use. -/
structure Forgotten (s : Pool × Tracker H) (past : List Act) (b : Block) (between : List Act) : Prop where
  /-- It holds zeros, whatever was written to it. -/
  blank : (run s (past ++ .release b :: (between ++ [.acquire]))).2.read b 0 s.1.blockSize =
    .ok (List.replicate s.1.blockSize 0)
  /-- If other bytes were written before its return, all answers are the same, and so is all else but bytes; the
  block reads the same; and so it goes on while what is copied into the block from elsewhere is the same. -/
  indistinguishable : ∀ (Same : H → H → Prop) (past' : List Act), Oblivious Same →
    List.Forall₂ Act.SameButBytes past past' →
    let after (before : List Act) := before ++ .release b :: (between ++ [.acquire])
    answers s (after past') = answers s (after past) ∧
      ∀ later, FedAlong b (run s (after past)) (run s (after past')) later →
        answers (run s (after past')) later = answers (run s (after past)) later ∧
          Alike Same (run s (after past ++ later)) (run s (after past' ++ later)) ∧
          (run s (after past ++ later)).2.ReadsSame (run s (after past' ++ later)).2 b

/-- What a pool kept untouched since its return is handed out without a trace of its last use. -/
theorem run_recycled {heap : H} (hs : Sound (NonNull.mk heap)) (hg : ∀ e, ¬ Granted (NonNull.mk heap) e)
    {budget : Option Nat} {t : Tracker H} (ht : Tracker.Steps (.ofHeap heap budget) t) {blockSize limit : Nat}
    {alignment : Alignment} {p : Pool} (hm : make blockSize alignment limit = .ok p) {past between : List Act}
    {b : Block} (h : Recycled (run (p, t) past) b between) : Forgotten (p, t) past b between := by
  have hfiled (acts : List Act) : Filed (run (p, t) acts) :=
    (filed_of_make hm (ht.assigned (Tracker.assigned_ofHeap heap budget))).run acts
  have hview (acts : List Act) : (run (p, t) acts).2.nonNull.WellFormed :=
    (steps_run (p, t) acts).view_wellFormed (ht.wellFormed_nonNull hs hg)
  have hend (before : List Act) : run (p, t) (before ++ .release b :: (between ++ [.acquire])) =
      (act (run (run (p, t) before) (.release b :: between)) .acquire).2 := by
    rw [run_append, ← List.cons_append, run_concat]
  have hblank (before : List Act) (hr : Recycled (run (p, t) before) b between) :
      (run (p, t) (before ++ .release b :: (between ++ [.acquire]))).2.read b 0 p.blockSize =
        .ok (List.replicate p.blockSize 0) := by
    have hzeros := hr.blank (hfiled before) (hview before)
    unfold Blank at hzeros
    rwa [← hend, (shape_run _ _).1] at hzeros
  have hlookup (before : List Act) (hr : Recycled (run (p, t) before) b between) :
      (run (p, t) (before ++ .release b :: (between ++ [.acquire]))).2.lookup b.id = some b := by
    rw [hend]
    exact hr.lookup_eq (hfiled before) (hview before)
  refine ⟨hblank past h, fun Same past' ho hpast => ?_⟩
  have hstart := Alike.refl ho (p, t)
  have hr' := h.of_alike ho (hstart.run ho hpast).2
  have hall := List.rel_append hpast
    (List.forall₂_same.mpr fun (a : Act) (_ : a ∈ .release b :: (between ++ [.acquire])) => .refl a)
  obtain ⟨hanswers, halike⟩ := hstart.run ho hall
  refine ⟨hanswers, fun later hfed => ?_⟩
  obtain ⟨hlater, hafter⟩ := halike.run_same ho later
  have hsize : b.requestedSize = p.blockSize := (fill_of_queued h.queued).1.trans (shape_run _ _).1
  have hsame := Tracker.readsSame_of_whole (hlookup past h) (hlookup past' hr') (hsize ▸ hblank past h)
    (hsize ▸ hblank past' hr')
  have hissued := (hfiled (past ++ .release b :: (between ++ [.acquire]))).assigned b
    (Tracker.mem_of_lookup (hlookup past h)).1
  rw [run_append _ _ later, run_append _ _ later]
  exact ⟨hlater, hafter, halike.readsSame_run ho (hview _) (hview _) hissued hsame hfed⟩

/-- A block that held four bytes waits while another one is taken and written to. When it is handed out again and
written to in part, what it reads is settled by that, whichever four bytes they were. -/
theorem run_recycled_written :
    let p : Pool := { blockSize := 4, alignment := .byte, limit := 2 }
    let t : Tracker BumpHeap := .ofHeap (.ofPlan {}) none
    let block : Block := .place 1 65536 4 4 .byte 0
    let other : Block := .place 2 65552 2 2 .byte 0
    let past (bytes : List UInt8) : List Act := [.acquire, .tracker (.write block 0 bytes)]
    let between : List Act := [.tracker (.allocate 2 .byte), .tracker (.fill other 0 2 9)]
    let again (bytes : List UInt8) := past bytes ++ .release block :: (between ++ [.acquire])
    let later : List Act := [.tracker (.write block 1 [5]), .tracker (.copy block 0 block 2 2 .plain)]
    (run (p, t) (past [1, 2, 3, 4])).2.read block 0 4 = .ok [1, 2, 3, 4] ∧
      (run (p, t) (again [1, 2, 3, 4])).2.read block 0 4 = .ok [0, 0, 0, 0] ∧
      (run (p, t) (again [1, 2, 3, 4] ++ later)).2.read block 0 4 = .ok [0, 5, 0, 5] ∧
      (run (p, t) (again [6, 7, 8, 9] ++ later)).2.read block 0 4 = .ok [0, 5, 0, 5] := by
  intro p t block other past between again later
  have hrecycled : Recycled (run (p, t) (past [1, 2, 3, 4])) block between := by
    refine ⟨by decide +kernel, by decide +kernel, ⟨fun c hc _ hnames => ?_, fun c hc _ hnames => ?_, trivial⟩,
      by decide +kernel⟩
    · cases hc
      exact hnames.elim
    · cases hc
      exact absurd hnames (show ¬ other.id = block.id by decide)
  have hs : Sound (NonNull.mk (BumpHeap.ofPlan {})) := BumpHeap.orderly_plain_ofPlan (by decide)
  have hforgotten := run_recycled hs (fun _ => List.not_mem_nil) (.refl : Tracker.Steps (.ofHeap (.ofPlan {}) none) t)
    (show make 4 .byte 2 = .ok p from rfl) hrecycled
  have hpast : List.Forall₂ Act.SameButBytes (past [1, 2, 3, 4]) (past [6, 7, 8, 9]) :=
    .cons (.refl _) (.cons (.tracker (.write _ _ rfl)) .nil)
  obtain ⟨-, hgoes⟩ := hforgotten.indistinguishable _ _ BumpHeap.oblivious hpast
  obtain ⟨-, -, hsame⟩ := hgoes later ⟨trivial, fun _ h => absurd rfl h, trivial⟩
  have hread : (run (p, t) (again [1, 2, 3, 4] ++ later)).2.read block 0 4 = .ok [0, 5, 0, 5] := by decide +kernel
  exact ⟨by decide +kernel, hforgotten.blank, hread, (hsame 0 4).trans hread⟩

end TrackedHeap.Pool
