import TrackedHeap.Proofs.Ownership.ObjectPool
import TrackedHeap.Proofs.Tracker.Run

/-!
# Runs of an object pool

The operations of an object pool, and those of the tracker that it draws on, as data (`ObjectPool.Act`), what
each of them answers and leaves (`ObjectPool.act`), and a list of them one after another (`ObjectPool.run`).
`ObjectPool.Change` says once what an operation does to the ranges that wait, to the blocks that the pool has
and to the tracker, together with what it answers.
-/

namespace TrackedHeap.ObjectPool

/-- An operation of an object pool, or of the tracker below it. -/
inductive Act where
  | tracker (a : Tracker.Act)
  | allocate (size : Nat)
  | release (handle : CarveOut)
  | reset

/-- What an operation answers. -/
inductive Answer where
  | tracker (answer : Tracker.Answer)
  | range (c : CarveOut)
  | done
deriving DecidableEq

/-- The ids of the blocks of the ranges that wait. -/
def waiting (p : ObjectPool) : List Nat :=
  p.queued.map fun c => c.block.id

theorem waiting_concat {p p' : ObjectPool} {c : CarveOut} (hq : p'.queued = p.queued ++ [c]) :
    p'.waiting = p.waiting ++ [c.block.id] := by
  unfold waiting
  rw [hq, List.map_append, List.map_singleton]

theorem sublist_waiting {p p' : ObjectPool} (hq : p'.queued.Sublist p.queued) :
    p'.waiting.Sublist p.waiting :=
  hq.map _

theorem queued_of_make {p : ObjectPool} {total : Nat} {alignment : Alignment}
    (hm : make total alignment = .ok p) : p.queued = [] := by
  rw [make_ok hm]

variable {H : Type} [Heap H]

/-- One operation: the answer, and the pool and the tracker afterwards. -/
def act (s : ObjectPool × Tracker H) : Act → Outcome Answer (ObjectPool × Tracker H)
  | .tracker a => ((s.2.act a).1.map .tracker, s.1, (s.2.act a).2)
  | .allocate size => ((s.1.allocate s.2 size).1.map .range, (s.1.allocate s.2 size).2)
  | .release handle => ((s.1.release s.2 handle).1.map fun _ => .done, (s.1.release s.2 handle).2, s.2)
  | .reset => ((s.1.reset s.2).1.map fun _ => .done, (s.1.reset s.2).2)

/-- The pool and the tracker after a list of operations. -/
def run (s : ObjectPool × Tracker H) (acts : List Act) : ObjectPool × Tracker H :=
  acts.foldl (fun s a => (act s a).2) s

theorem run_append (s : ObjectPool × Tracker H) (acts later : List Act) :
    run s (acts ++ later) = run (run s acts) later :=
  List.foldl_append

theorem run_concat (s : ObjectPool × Tracker H) (acts : List Act) (a : Act) :
    run s (acts ++ [a]) = (act (run s acts) a).2 :=
  run_append s acts [a]

/-- What an operation answers, and what becomes of the ranges that wait, of the blocks that the pool has and of
the live blocks. -/
inductive Change (s : ObjectPool × Tracker H) : Act → Outcome Answer (ObjectPool × Tracker H) → Prop where
  /-- The tracker did something. -/
  | beside (a : Tracker.Act) (answer : Except MemoryError Tracker.Answer) (t' : Tracker H)
    (steps : Tracker.Steps s.2 t') : Change s (.tracker a) (answer.map .tracker, s.1, t')
  | refused {a : Act} (e : MemoryError) (p' : ObjectPool) (t' : Tracker H)
    (queued : p'.queued = s.1.queued) (owned : p'.owned = s.1.owned)
    (blocks : t'.blocks = s.2.blocks) (nextId : t'.nextId = s.2.nextId) : Change s a (.error e, p', t')
  /-- The range of the size that has waited longest was handed out. -/
  | reused (size : Nat) (c : CarveOut) (p' : ObjectPool)
    (first : (s.1.queued.find? fun c => c.requestedSize == size) = some c)
    (queued : p'.queued = s.1.queued.erase c) (owned : p'.owned = s.1.owned) :
    Change s (.allocate size) (.ok (.range c), p', s.2)
  /-- None of the size waits, and a new block was handed out. -/
  | adopted (size : Nat) (block : Block) (p' : ObjectPool) (t' : Tracker H)
    (none : (s.1.queued.find? fun c => c.requestedSize == size) = none)
    (queued : p'.queued = s.1.queued) (owned : p'.owned = block.id :: s.1.owned)
    (id : block.id = s.2.nextId) (requested : block.requestedSize = size)
    (blocks : t'.blocks = s.2.blocks ++ [block]) (nextId : t'.nextId = s.2.nextId + 1) :
    Change s (.allocate size)
      (.ok (.range { block, offset := 0, grantedSize := size, requestedSize := size }), p', t')
  /-- A range of the pool was put last. -/
  | kept (handle : CarveOut) (p' : ObjectPool) (offset : handle.offset = 0)
    (mine : handle.block.id ∈ s.1.owned) (size : handle.requestedSize = handle.block.requestedSize)
    (live : s.2.isLive handle.block = true) (absent : ¬ s.1.holds handle = true)
    (queued : p'.queued = s.1.queued ++ [handle]) (owned : p'.owned = s.1.owned) :
    Change s (.release handle) (.ok .done, p', s.2)
  /-- What waited went back to the tracker. -/
  | emptied (answer : Except MemoryError Unit) (p' : ObjectPool) (queued : p'.queued = [])
    (owned : ∀ id, id ∈ p'.owned ↔ id ∈ s.1.owned ∧ id ∉ s.1.queued.map fun c => c.block.id) :
    Change s .reset
      (answer.map fun _ => .done, p', s.2.returnAll (s.1.queued.map CarveOut.block))

theorem change_allocate (p : ObjectPool) (t : Tracker H) (size : Nat) :
    Change (p, t) (.allocate size) (act (p, t) (.allocate size)) := by
  simp only [act, allocate]
  fun_cases ObjectPool.carve p t size
  case case1 => exact .refused _ _ _ rfl rfl rfl rfl
  case case2 hsize c hfind => exact .reused size c _ hfind rfl rfl
  case case3 => exact .refused _ _ _ rfl rfl rfl rfl
  case case4 hsize hnone hroom e t' ha =>
    obtain ⟨hblocks, hnext⟩ := Tracker.allocate_error ha
    exact .refused _ _ _ rfl rfl hblocks hnext
  case case5 hsize hnone hroom block t' ha =>
    obtain ⟨hblocks, hnext, hid, hreq⟩ := Tracker.allocate_ok ha
    exact .adopted size block _ _ hnone rfl rfl hid hreq hblocks hnext

theorem change_release (p : ObjectPool) (t : Tracker H) (handle : CarveOut) :
    Change (p, t) (.release handle) (act (p, t) (.release handle)) := by
  simp only [act]
  fun_cases ObjectPool.release p t handle
  case case5 id howned hsize hlive hholds =>
    obtain ⟨hoffset, hmine⟩ := not_or.mp howned
    exact .kept handle _ (Decidable.not_not.mp hoffset) (Decidable.not_not.mp hmine)
      (Decidable.not_not.mp hsize) (by simpa using hlive) hholds rfl rfl
  all_goals exact .refused _ _ _ rfl rfl rfl rfl

theorem change_act (s : ObjectPool × Tracker H) (a : Act) : Change s a (act s a) := by
  obtain ⟨p, t⟩ := s
  cases a with
  | tracker a => exact .beside a (t.act a).1 (t.act a).2 (t.steps_act a)
  | allocate size => exact change_allocate p t size
  | release handle => exact change_release p t handle
  | reset =>
    have howned (id : Nat) : id ∈ (p.reset t).2.1.owned ↔
        id ∈ p.owned ∧ id ∉ p.queued.map fun c => c.block.id := p.mem_owned_reset t
    have htracker : (p.reset t).2.2 = t.returnAll (p.queued.map CarveOut.block) :=
      p.drain_tracker t p.queued
    have hchange := Change.emptied (s := (p, t)) (p.reset t).1 (p.reset t).2.1 rfl howned
    rw [← htracker] at hchange
    exact hchange

/-- A block that waits did so before, or was live when it was taken back. -/
theorem waiting_act {s : ObjectPool × Tracker H} {a : Act} {id : Nat}
    (h : id ∈ (act s a).2.1.waiting) : id ∈ s.1.waiting ∨ (s.2.lookup id).isSome := by
  have hchange := change_act s a
  generalize act s a = o at hchange h
  cases hchange with
  | beside => exact .inl h
  | refused e p' t' hq ho hblocks hnext => exact .inl ((sublist_waiting (hq ▸ .refl _)).subset h)
  | reused size c p' hfirst hq ho =>
    exact .inl ((sublist_waiting (hq ▸ List.erase_sublist)).subset h)
  | adopted size block p' t' hnone hq => exact .inl ((sublist_waiting (hq ▸ .refl _)).subset h)
  | kept handle p' hoffset hmine hsize hlive habsent hq ho =>
    rw [show _ = _ from waiting_concat hq, List.mem_append, List.mem_singleton] at h
    rcases h with h | rfl
    · exact .inl h
    · exact .inr hlive
  | emptied answer p' hq => exact .inl ((sublist_waiting (hq ▸ List.nil_sublist _)).subset h)

end TrackedHeap.ObjectPool
