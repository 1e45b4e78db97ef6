import TrackedHeap.Carver
import TrackedHeap.Proofs.ObjectPool.Run
import TrackedHeap.Proofs.Ownership.Carver

/-!
# Runs of a carver

What can be done with an object pool can be done with a carver of any strategy. `Carver.act` is one such
operation, or one of the tracker below, and `Carver.run` a list of them one after another, with whatever handles
and whatever else is done to the tracker; `Carver.answers` is what they answered. What the operations of a carver
keep over every tracker holds after every run (`Carver.Lasting.run`).
-/

namespace TrackedHeap.Carver

/-- An operation of a carver, or of the tracker below it. -/
abbrev Act := ObjectPool.Act

/-- What an operation answers. -/
abbrev Answer := ObjectPool.Answer

variable {H : Type} [Heap H]

/-- One operation: the answer, and the carver and the tracker afterwards. -/
def act (s : Carver × Tracker H) : Act → Outcome Answer (Carver × Tracker H)
  | .tracker a => ((s.2.act a).1.map .tracker, s.1, (s.2.act a).2)
  | .allocate size => ((s.1.allocate s.2 size).1.map .range, (s.1.allocate s.2 size).2)
  | .release handle => ((s.1.release s.2 handle).1.map fun _ => .done, (s.1.release s.2 handle).2)
  | .reset => ((s.1.reset s.2).1.map fun _ => .done, (s.1.reset s.2).2)

/-- The carver and the tracker after a list of operations. -/
def run (s : Carver × Tracker H) (acts : List Act) : Carver × Tracker H :=
  acts.foldl (fun s a => (act s a).2) s

/-- The operations of a list, each with what it answered. -/
def answers (s : Carver × Tracker H) : List Act → List (Act × Except MemoryError Answer)
  | [] => []
  | a :: acts => (a, (act s a).1) :: answers (act s a).2 acts

theorem run_cons (s : Carver × Tracker H) (a : Act) (acts : List Act) :
    run s (a :: acts) = run (act s a).2 acts :=
  rfl

theorem fst_answers (s : Carver × Tracker H) (acts : List Act) : (answers s acts).map Prod.fst = acts := by
  induction acts generalizing s with
  | nil => rfl
  | cons a acts ih => exact congrArg (a :: ·) (ih (act s a).2)

theorem act_allocate_eq_ok {s : Carver × Tracker H} {size : Nat} {c : CarveOut} :
    (act s (.allocate size)).1 = .ok (.range c) ↔ (s.1.allocate s.2 size).1 = .ok c := by
  simp only [act]
  cases (s.1.allocate s.2 size).1 <;> simp [Except.map]

theorem strategy_act (s : Carver × Tracker H) (a : Act) : (act s a).2.1.strategy = s.1.strategy := by
  cases a with
  | tracker a => rfl
  | allocate size => exact s.1.strategy_allocate s.2 size
  | release handle => exact s.1.strategy_release s.2 handle
  | reset => exact s.1.strategy_reset s.2

theorem strategy_run (s : Carver × Tracker H) (acts : List Act) : (run s acts).1.strategy = s.1.strategy := by
  induction acts generalizing s with
  | nil => rfl
  | cons a acts ih => exact (ih (act s a).2).trans (strategy_act s a)

/-- What the operations of a carver keep, over whatever tracker, if only certain handles come back. -/
structure Lasting (H : Type) [Heap H] (Allowed : CarveOut → Prop) (P : Carver → Prop) : Prop where
  allocate {c : Carver} (t : Tracker H) (size : Nat) : P c → P (c.allocate t size).2.1
  release {c : Carver} (t : Tracker H) {handle : CarveOut} : Allowed handle → P c → P (c.release t handle).2.1
  reset {c : Carver} (t : Tracker H) : P c → P (c.reset t).2.1

theorem Lasting.run {Allowed : CarveOut → Prop} {P : Carver → Prop} (hP : Lasting H Allowed P)
    {s : Carver × Tracker H} (h : P s.1) {acts : List Act}
    (hacts : ∀ handle, .release handle ∈ acts → Allowed handle) : P (run s acts).1 := by
  induction acts generalizing s with
  | nil => exact h
  | cons a acts ih =>
    refine ih (s := (act s a).2) ?_ fun handle hm => hacts handle (List.mem_cons_of_mem _ hm)
    cases a with
    | tracker a => exact h
    | allocate size => exact hP.allocate s.2 size h
    | release handle => exact hP.release s.2 (hacts handle List.mem_cons_self) h
    | reset => exact hP.reset s.2 h

end TrackedHeap.Carver
