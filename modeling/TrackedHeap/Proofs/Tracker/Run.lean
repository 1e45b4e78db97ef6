import TrackedHeap.Proofs.Tracker.Step

/-!
# Runs of a tracker

The operations of a tracker as data (`Tracker.Act`), what each of them answers and leaves
(`Tracker.act`), and a list of them one after another (`Tracker.run`). Whatever is built on a tracker acts
by its steps, so what it does is such a run (`Steps.exists_run`), and what is shown of every run holds for
all of it.
-/

namespace TrackedHeap.Tracker

/-- An operation of a tracker that may change it. -/
inductive Act where
  /-- Time passes. -/
  | advance (microseconds : Nat)
  | allocate (size : Nat) (alignment : Alignment)
  | free (handle : Block)
  | reallocate (handle : Block) (size : Nat)
  | freeAll
  | fill (handle : Block) (offset length : Nat) (byte : UInt8)
  | write (handle : Block) (offset : Nat) (bytes : List UInt8)
  | copy (source : Block) (sourceOffset : Nat) (target : Block) (targetOffset length : Nat)
      (mode : CopyMode)

/-- What an operation answers. -/
inductive Answer where
  | done
  | block (block : Block)
  | count (n : Nat)
deriving DecidableEq

variable {H : Type}

/-- The outcome with its result as an answer. -/
def answered {α : Type} (answer : α → Answer) (o : Outcome α (Tracker H)) :
    Outcome Answer (Tracker H) :=
  (o.1.map answer, o.2)

@[simp] theorem answered_snd {α : Type} (answer : α → Answer) (o : Outcome α (Tracker H)) :
    (answered answer o).2 = o.2 :=
  rfl

@[simp] theorem answered_eq_error {α : Type} {answer : α → Answer} {o : Outcome α (Tracker H)}
    {e : MemoryError} : (answered answer o).1 = .error e ↔ o.1 = .error e := by
  obtain ⟨_ | _, _⟩ := o <;> simp [answered, Except.map]

variable [Heap H]

/-- One operation: the answer, and the tracker afterwards. -/
def act (t : Tracker H) : Act → Outcome Answer (Tracker H)
  | .advance microseconds => (.ok .done, t.advance microseconds)
  | .allocate size alignment => answered .block (t.allocate size alignment)
  | .free handle => answered .block (t.free handle)
  | .reallocate handle size => answered .block (t.reallocate handle size)
  | .freeAll => (.ok (.count t.freeAll.1), t.freeAll.2)
  | .fill handle offset length byte => answered (fun _ => .done) (t.fill handle offset length byte)
  | .write handle offset bytes => answered (fun _ => .done) (t.write handle offset bytes)
  | .copy source sourceOffset target targetOffset length mode =>
    answered (fun _ => .done) (t.copy source sourceOffset target targetOffset length mode)

/-- The tracker after a list of operations. -/
def run (t : Tracker H) (acts : List Act) : Tracker H :=
  acts.foldl (fun t a => (t.act a).2) t

theorem run_append (t : Tracker H) (acts later : List Act) :
    t.run (acts ++ later) = (t.run acts).run later :=
  List.foldl_append

theorem run_concat (t : Tracker H) (acts : List Act) (a : Act) :
    t.run (acts ++ [a]) = ((t.run acts).act a).2 :=
  t.run_append acts [a]

/-- An operation is a step, unless it returns everything. -/
theorem step_act (t : Tracker H) {a : Act} (h : a ≠ .freeAll) : Step t (t.act a).2 := by
  cases a with
  | advance n => exact .advance t n
  | allocate size alignment => exact .allocate t size alignment
  | free handle => exact .free t handle
  | reallocate handle size => exact .reallocate t handle size
  | freeAll => exact absurd rfl h
  | fill handle offset length byte => exact .fill t handle offset length byte
  | write handle offset bytes => exact .write t handle offset bytes
  | copy source offset target offset' length mode =>
    exact .copy t source offset target offset' length mode

theorem steps_act (t : Tracker H) (a : Act) : Steps t (t.act a).2 := by
  by_cases h : a = .freeAll
  · subst h
    exact Steps.freeAll t
  · exact .single (t.step_act h)

theorem steps_run (t : Tracker H) (acts : List Act) : Steps t (t.run acts) :=
  Steps.foldl (fun t => t) steps_act acts t

/-- A step is an operation. -/
theorem Step.exists_act {t t' : Tracker H} (s : Step t t') : ∃ a, (t.act a).2 = t' := by
  cases s with
  | advance n => exact ⟨.advance n, rfl⟩
  | allocate size alignment => exact ⟨.allocate size alignment, rfl⟩
  | free handle => exact ⟨.free handle, rfl⟩
  | reallocate handle size => exact ⟨.reallocate handle size, rfl⟩
  | fill handle offset length byte => exact ⟨.fill handle offset length byte, rfl⟩
  | write handle offset bytes => exact ⟨.write handle offset bytes, rfl⟩
  | copy source offset target offset' length mode =>
    exact ⟨.copy source offset target offset' length mode, rfl⟩

/-- Any number of steps is a run. -/
theorem Steps.exists_run {t t' : Tracker H} (s : Steps t t') : ∃ acts, t.run acts = t' := by
  induction s with
  | refl => exact ⟨[], rfl⟩
  | tail _ last ih =>
    obtain ⟨acts, rfl⟩ := ih
    obtain ⟨a, rfl⟩ := last.exists_act
    exact ⟨acts ++ [a], run_concat _ acts a⟩

end TrackedHeap.Tracker
