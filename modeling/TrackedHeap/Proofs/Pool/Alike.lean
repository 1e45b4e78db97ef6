import TrackedHeap.Proofs.Pool.Conservation
import TrackedHeap.Proofs.Tracker.Alike

/-!
# Pools in runs that differ in the bytes they write

What an operation of a pool does to the tracker is a list of operations of that (`Pool.calls`, `Pool.run_calls`),
which hangs on the pool and on what the tracker answers. So two runs that differ in bytes alone answer the same all
the way and leave the same pool (`Pool.Alike.run`), and a block that holds the same in both goes on to do so while
nothing else is copied into it (`Pool.Alike.readsSame_run`).
-/

namespace TrackedHeap.Pool

open Heap (Oblivious)

/-- The same operation, but for the bytes that it writes. -/
inductive Act.SameButBytes : Act → Act → Prop where
  | refl (a : Act) : SameButBytes a a
  | tracker {a a' : Tracker.Act} (same : a.SameButBytes a') : SameButBytes (.tracker a) (.tracker a')

variable {H : Type} [Heap H]

/-- What the operations of a run answer. -/
def answers (s : Pool × Tracker H) : List Act → List (Except MemoryError Tracker.Answer)
  | [] => []
  | a :: acts => (act s a).1 :: answers (act s a).2 acts

/-! ## What the tracker is asked for -/

/-- The operations of the tracker that an operation comes down to. -/
def calls (s : Pool × Tracker H) : Act → List Tracker.Act
  | .tracker a => [a]
  | .acquire => if s.1.queue = [] then [.allocate s.1.blockSize s.1.alignment] else []
  | .release handle =>
    if handle.requestedSize ≠ s.1.blockSize then []
    else if s.1.pooled.contains handle.id then []
    else
      .fill handle 0 handle.requestedSize 0 ::
        match (s.2.zero handle 0 handle.requestedSize).1 with
        | .error _ => []
        | .ok () => if s.1.queue.length < s.1.limit then [] else [.free handle]
  | .clear => s.1.queue.map .free

/-- An operation of the tracker that is among them. -/
inductive Call (s : Pool × Tracker H) : Act → Tracker.Act → Prop where
  | passedOn (c : Tracker.Act) : Call s (.tracker c) c
  | asked : Call s .acquire (.allocate s.1.blockSize s.1.alignment)
  | zeroed (handle : Block) (new : handle.id ∉ s.1.pooled) :
    Call s (.release handle) (.fill handle 0 handle.requestedSize 0)
  | returned (handle : Block) (new : handle.id ∉ s.1.pooled) : Call s (.release handle) (.free handle)
  | cleared (block : Block) : Call s .clear (.free block)

theorem call_of_mem {s : Pool × Tracker H} {a : Act} {c : Tracker.Act} (hc : c ∈ calls s a) : Call s a c := by
  cases a with
  | tracker a =>
    obtain rfl := List.mem_singleton.mp hc
    exact .passedOn _
  | acquire =>
    simp only [calls] at hc
    split at hc
    · obtain rfl := List.mem_singleton.mp hc
      exact .asked
    · exact absurd hc List.not_mem_nil
  | release handle =>
    simp only [calls] at hc
    split at hc
    · exact absurd hc List.not_mem_nil
    split at hc
    · exact absurd hc List.not_mem_nil
    next hin =>
      have hnew : handle.id ∉ s.1.pooled := by simpa using hin
      rcases List.mem_cons.mp hc with rfl | hc
      · exact .zeroed handle hnew
      · split at hc
        · exact absurd hc List.not_mem_nil
        split at hc
        · exact absurd hc List.not_mem_nil
        · obtain rfl := List.mem_singleton.mp hc
          exact .returned handle hnew
  | clear =>
    obtain ⟨block, -, rfl⟩ := List.mem_map.mp hc
    exact .cleared block

theorem run_calls (s : Pool × Tracker H) (a : Act) : (act s a).2.2 = s.2.run (calls s a) := by
  obtain ⟨p, t⟩ := s
  cases a with
  | tracker a => rfl
  | acquire =>
    simp only [act, calls]
    fun_cases Pool.acquire p t
    case case1 block rest hq => rw [if_neg (by simp [hq])]; rfl
    case case2 hq e t' ha =>
      rw [if_pos hq]
      show t' = (t.allocate p.blockSize p.alignment).2
      rw [ha]
    case case3 hq block t' ha =>
      rw [if_pos hq]
      show t' = (t.allocate p.blockSize p.alignment).2
      rw [ha]
  | release handle =>
    have hrun (later : List Tracker.Act) : t.run (.fill handle 0 handle.requestedSize 0 :: later) =
        (t.zero handle 0 handle.requestedSize).2.run later := rfl
    simp only [act, calls]
    fun_cases Pool.release p t handle
    case case1 hsize => rw [if_pos hsize]; rfl
    case case2 hsize hin => rw [if_neg hsize, if_pos hin]; rfl
    case case3 hsize hin e t₁ hzero => rw [if_neg hsize, if_neg hin, hrun, hzero]; rfl
    case case4 hsize hin t₁ hzero hroom => rw [if_neg hsize, if_neg hin, hrun, hzero]; simp only [if_pos hroom]; rfl
    case case5 hsize hin t₁ hzero hfull e t₂ hfree =>
      rw [if_neg hsize, if_neg hin, hrun, hzero]
      simp only [if_neg hfull]
      show t₂ = (t₁.free handle).2
      rw [hfree]
    case case6 hsize hin t₁ hzero hfull b t₂ hfree =>
      rw [if_neg hsize, if_neg hin, hrun, hzero]
      simp only [if_neg hfull]
      show t₂ = (t₁.free handle).2
      rw [hfree]
  | clear =>
    show (p.clear t).2.2 = t.run (p.queue.map .free)
    rw [clear_tracker, Tracker.run, List.foldl_map]
    rfl

/-! ## Two runs -/

/-- The pools are the same, and the trackers differ in bytes alone. -/
structure Alike (Same : H → H → Prop) (s s' : Pool × Tracker H) : Prop where
  pool : s'.1 = s.1
  trackers : Tracker.Alike Same s.2 s'.2

namespace Alike

variable {Same : H → H → Prop} {s s' : Pool × Tracker H}

theorem refl (ho : Oblivious Same) (s : Pool × Tracker H) : Alike Same s s :=
  ⟨rfl, rfl, ho.refl _⟩

theorem calls_eq (ho : Oblivious Same) (h : Alike Same s s') (a : Act) : calls s' a = calls s a := by
  cases a with
  | release handle =>
    have hzero : (s'.2.zero handle 0 handle.requestedSize).1 = (s.2.zero handle 0 handle.requestedSize).1 :=
      (h.trackers.fill ho handle 0 handle.requestedSize 0 0).answer
    simp only [calls, h.pool, hzero]
  | _ => simp only [calls, h.pool]

theorem acquire (ho : Oblivious Same) (h : Alike Same s s') :
    (s'.1.acquire s'.2).1 = (s.1.acquire s.2).1 ∧ Alike Same (s.1.acquire s.2).2 (s'.1.acquire s'.2).2 := by
  obtain ⟨p, t⟩ := s
  obtain ⟨p', t'⟩ := s'
  obtain ⟨rfl, htrackers⟩ := h
  unfold Pool.acquire
  cases hq : p'.queue with
  | cons block rest => exact ⟨rfl, rfl, htrackers⟩
  | nil =>
    obtain ⟨answer, t₁, t₁', ha, ha', hafter⟩ := (htrackers.allocate ho p'.blockSize p'.alignment).exists_eq
    simp only [ha, ha']
    cases answer <;> exact ⟨rfl, rfl, hafter⟩

theorem release (ho : Oblivious Same) (h : Alike Same s s') (handle : Block) :
    (s'.1.release s'.2 handle).1 = (s.1.release s.2 handle).1 ∧
      Alike Same (s.1.release s.2 handle).2 (s'.1.release s'.2 handle).2 := by
  obtain ⟨p, t⟩ := s
  obtain ⟨p', t'⟩ := s'
  obtain ⟨rfl, htrackers⟩ := h
  unfold Pool.release
  by_cases hsize : handle.requestedSize ≠ p'.blockSize
  · rw [if_pos hsize, if_pos hsize]
    exact ⟨rfl, rfl, htrackers⟩
  by_cases hin : p'.pooled.contains handle.id
  · rw [if_neg hsize, if_neg hsize, if_pos hin, if_pos hin]
    exact ⟨rfl, rfl, htrackers⟩
  rw [if_neg hsize, if_neg hsize, if_neg hin, if_neg hin]
  obtain ⟨answer, t₁, t₁', hz, hz', hafter⟩ := (htrackers.fill ho handle 0 handle.requestedSize 0 0).exists_eq
  simp only [Tracker.zero, hz, hz']
  cases answer with
  | error e => exact ⟨rfl, rfl, hafter⟩
  | ok =>
    by_cases hroom : p'.queue.length < p'.limit
    · simp only [if_pos hroom, true_and]
      exact ⟨rfl, hafter⟩
    · simp only [if_neg hroom]
      obtain ⟨answer, t₂, t₂', hf, hf', hafter⟩ := (hafter.free ho handle).exists_eq
      simp only [hf, hf']
      cases answer <;> exact ⟨rfl, rfl, hafter⟩

theorem clear (ho : Oblivious Same) (h : Alike Same s s') :
    (s'.1.clear s'.2).1 = (s.1.clear s.2).1 ∧ Alike Same (s.1.clear s.2).2 (s'.1.clear s'.2).2 := by
  obtain ⟨p, t⟩ := s
  obtain ⟨p', t'⟩ := s'
  obtain ⟨rfl, htrackers⟩ := h
  obtain ⟨hcount, hafter⟩ := htrackers.foldl_free ho p'.queue 0
  exact ⟨hcount, rfl, hafter⟩

theorem act (ho : Oblivious Same) (h : Alike Same s s') {a a' : Act} (ha : a.SameButBytes a') :
    (Pool.act s' a').1 = (Pool.act s a).1 ∧ Alike Same (Pool.act s a).2 (Pool.act s' a').2 := by
  cases ha with
  | tracker same =>
    obtain ⟨hanswer, hafter⟩ := h.trackers.act ho same
    exact ⟨hanswer, h.pool, hafter⟩
  | refl =>
    cases a with
    | tracker a =>
      obtain ⟨hanswer, hafter⟩ := h.trackers.act ho (.refl a)
      exact ⟨hanswer, h.pool, hafter⟩
    | acquire =>
      obtain ⟨hanswer, hafter⟩ := h.acquire ho
      exact ⟨congrArg (Except.map Tracker.Answer.block) hanswer, hafter⟩
    | release handle =>
      obtain ⟨hanswer, hafter⟩ := h.release ho handle
      exact ⟨congrArg (Except.map fun _ => Tracker.Answer.done) hanswer, hafter⟩
    | clear =>
      obtain ⟨hcount, hafter⟩ := h.clear ho
      exact ⟨congrArg (fun n => Except.ok (Tracker.Answer.count n)) hcount, hafter⟩

/-- Nobody can tell the runs apart by what is answered. -/
theorem run (ho : Oblivious Same) (h : Alike Same s s') {acts acts' : List Act}
    (ha : List.Forall₂ Act.SameButBytes acts acts') :
    answers s' acts' = answers s acts ∧ Alike Same (Pool.run s acts) (Pool.run s' acts') := by
  induction ha generalizing s s' with
  | nil => exact ⟨rfl, h⟩
  | cons hhead _ ih =>
    obtain ⟨hanswer, hafter⟩ := h.act ho hhead
    obtain ⟨hanswers, hend⟩ := ih hafter
    exact ⟨congrArg₂ List.cons hanswer hanswers, hend⟩

/-- Runs of the same operations. -/
theorem run_same (ho : Oblivious Same) (h : Alike Same s s') (acts : List Act) :
    answers s' acts = answers s acts ∧ Alike Same (Pool.run s acts) (Pool.run s' acts) :=
  h.run ho (List.forall₂_same.mpr fun a _ => .refl a)

end Alike

/-! ## A block that holds the same -/

/-- What the operation copies into the block from another one is the same in both states. -/
def Fed (s s' : Pool × Tracker H) (handle : Block) : Act → Prop
  | .tracker a => Tracker.Fed s.2 s'.2 handle a
  | _ => True

/-- So it is with every operation of a run. -/
def FedAlong (handle : Block) (s s' : Pool × Tracker H) : List Act → Prop
  | [] => True
  | a :: acts => Fed s s' handle a ∧ FedAlong handle (act s a).2 (act s' a).2 acts

namespace Alike

variable {Same : H → H → Prop} {s s' : Pool × Tracker H} {handle : Block}

theorem readsSame_act [LawfulBytes (NonNull H)] (ho : Oblivious Same) (h : Alike Same s s')
    (hw : s.2.nonNull.WellFormed) (hw' : s'.2.nonNull.WellFormed) (hissued : handle.id < s.2.nextId)
    (hs : s.2.ReadsSame s'.2 handle) {a : Act} (hfed : Fed s s' handle a) :
    (Pool.act s a).2.2.ReadsSame (Pool.act s' a).2.2 handle := by
  by_cases ha : ∃ c, a = .tracker c
  · obtain ⟨c, rfl⟩ := ha
    exact h.trackers.readsSame_act ho hw hw' hissued hs hfed
  · rw [run_calls, run_calls, h.calls_eq ho]
    -- of its own accord a pool copies nothing
    refine h.trackers.readsSame_run ho hw hw' hissued hs fun c hc => ?_
    cases call_of_mem hc with
    | passedOn => exact absurd ⟨c, rfl⟩ ha
    | _ => exact fun _ _ => trivial

theorem readsSame_run [LawfulBytes (NonNull H)] (ho : Oblivious Same) (h : Alike Same s s')
    (hw : s.2.nonNull.WellFormed) (hw' : s'.2.nonNull.WellFormed) (hissued : handle.id < s.2.nextId)
    (hs : s.2.ReadsSame s'.2 handle) {acts : List Act} (hfed : FedAlong handle s s' acts) :
    (Pool.run s acts).2.ReadsSame (Pool.run s' acts).2 handle := by
  induction acts generalizing s s' with
  | nil => exact hs
  | cons a acts ih =>
    obtain ⟨hhead, hrest⟩ := hfed
    have hsteps := steps_act s a
    exact ih (h.act ho (.refl a)).2 (hsteps.view_wellFormed hw) ((steps_act s' a).view_wellFormed hw')
      (Nat.lt_of_lt_of_le hissued hsteps.nextId_le) (h.readsSame_act ho hw hw' hissued hs hhead) hrest

end Alike

end TrackedHeap.Pool
