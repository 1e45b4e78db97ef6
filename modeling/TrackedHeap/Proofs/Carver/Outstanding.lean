import TrackedHeap.Proofs.Carver.Run

/-!
# What clients have after a run of a carver

Which ranges are with clients follows from what was answered: a range that was granted is with one until it is
taken back, by itself or in a reset (`Carver.outstanding`). No state of the carver enters into that, so it is what
the state can be measured by. Whatever ties the two together at the start and is kept by every operation ties them
together after every run (`Carver.outstanding_run`).
-/

namespace TrackedHeap.Carver

variable {H : Type} [Heap H]

/-- What clients have after an operation, if they had certain ranges before it. -/
def outAfter (s : Carver × Tracker H) (out : List CarveOut) : Act → List CarveOut
  | .tracker _ => out
  | .allocate size => CarveOut.taken (s.1.allocate s.2 size).1 out
  | .release handle => s.1.afterRelease (s.1.release s.2 handle).1 handle out
  | .reset => if s.1.strategy = .objectPool then out else []

/-- What clients have after a list of operations, if they had certain ranges before it. -/
def outstandingFrom (s : Carver × Tracker H) (out : List CarveOut) : List Act → List CarveOut
  | [] => out
  | a :: acts => outstandingFrom (act s a).2 (outAfter s out a) acts

/-- What clients have after a list of operations, the last range that was granted first. -/
def outstanding (s : Carver × Tracker H) (acts : List Act) : List CarveOut :=
  outstandingFrom s [] acts

theorem outstandingFrom_run {P : Carver × Tracker H → List CarveOut → Prop}
    (hstep : ∀ s out a, P s out → P (act s a).2 (outAfter s out a)) {s : Carver × Tracker H}
    {out : List CarveOut} (h : P s out) (acts : List Act) : P (run s acts) (outstandingFrom s out acts) := by
  induction acts generalizing s out with
  | nil => exact h
  | cons a acts ih => exact ih (hstep s out a h)

/-- What every operation keeps of a carver and of what clients have of it holds after every run. -/
theorem outstanding_run {P : Carver × Tracker H → List CarveOut → Prop}
    (hstep : ∀ s out a, P s out → P (act s a).2 (outAfter s out a)) {s : Carver × Tracker H}
    (h : P s []) (acts : List Act) : P (run s acts) (outstanding s acts) :=
  outstandingFrom_run hstep h acts

end TrackedHeap.Carver
