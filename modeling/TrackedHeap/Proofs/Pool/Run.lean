import TrackedHeap.Proofs.Ownership.Pool
import TrackedHeap.Proofs.Tracker.Run

/-!
# Runs of a pool

The operations of a pool, and those of the tracker that it draws on, as data (`Pool.Act`), what each of them
answers and leaves (`Pool.act`), and a list of them one after another (`Pool.run`). Whoever else draws on the
tracker acts by its operations, so a run also shows what others do meanwhile.

`Pool.Entry` says once what an operation answers and leaves, queue, ids and counters together. In the blocks
that it keeps a pool makes one of three changes (`Pool.Change`), and only in operations of its own.
-/

namespace TrackedHeap.Pool

/-- An operation of a pool, or of the tracker below it. -/
inductive Act where
  | tracker (a : Tracker.Act)
  | acquire
  | release (handle : Block)
  | clear

variable {H : Type} [Heap H]

/-- One operation: the answer, and the pool and the tracker afterwards. -/
def act (s : Pool × Tracker H) : Act → Outcome Tracker.Answer (Pool × Tracker H)
  | .tracker a => ((s.2.act a).1, s.1, (s.2.act a).2)
  | .acquire => ((s.1.acquire s.2).1.map .block, (s.1.acquire s.2).2)
  | .release handle => ((s.1.release s.2 handle).1.map fun _ => .done, (s.1.release s.2 handle).2)
  | .clear => (.ok (.count (s.1.clear s.2).1), (s.1.clear s.2).2)

/-- The pool and the tracker after a list of operations. -/
def run (s : Pool × Tracker H) (acts : List Act) : Pool × Tracker H :=
  acts.foldl (fun s a => (act s a).2) s

theorem run_append (s : Pool × Tracker H) (acts later : List Act) :
    run s (acts ++ later) = run (run s acts) later :=
  List.foldl_append

theorem run_concat (s : Pool × Tracker H) (acts : List Act) (a : Act) :
    run s (acts ++ [a]) = (act (run s acts) a).2 :=
  run_append s acts [a]

/-- What an operation answers and leaves. -/
inductive Entry (s : Pool × Tracker H) : Act → Outcome Tracker.Answer (Pool × Tracker H) → Prop where
  /-- The tracker did something. -/
  | beside (a : Tracker.Act) (answer : Except MemoryError Tracker.Answer) (t' : Tracker H) :
    Entry s (.tracker a) (answer, s.1, t')
  | refused (a : Act) (e : MemoryError) (t' : Tracker H) : Entry s a (.error e, s.1, t')
  /-- A handle of another size was passed over. -/
  | passed (handle : Block) (size : handle.requestedSize ≠ s.1.blockSize) :
    Entry s (.release handle) (.ok .done, s.1, s.2)
  | reused (block : Block) (rest : List Block) (queue : s.1.queue = block :: rest) :
    Entry s .acquire (.ok (.block block),
      { s.1 with
        queue := rest
        pooled := s.1.forget block.id
        reused := s.1.reused + 1
        acquired := s.1.acquired + 1 }, s.2)
  | created (block : Block) (t' : Tracker H) (queue : s.1.queue = []) (id : block.id = s.2.nextId)
    (live : block ∈ t'.blocks) :
    Entry s .acquire
      (.ok (.block block), { s.1 with created := s.1.created + 1, acquired := s.1.acquired + 1 }, t')
  | kept (handle : Block) (t' : Tracker H) (size : handle.requestedSize = s.1.blockSize)
    (new : handle.id ∉ s.1.pooled) (live : s.2.isLive handle = true)
    (room : s.1.queue.length < s.1.limit) :
    Entry s (.release handle) (.ok .done,
      { s.1 with queue := s.1.queue ++ [handle], pooled := handle.id :: s.1.pooled }, t')
  /-- The pool was full, and the block went back to the tracker. -/
  | overflowed (handle : Block) (t' : Tracker H) (size : handle.requestedSize = s.1.blockSize)
    (live : s.2.isLive handle = true) (full : s.1.limit ≤ s.1.queue.length)
    (blocks : t'.blocks = s.2.others handle.id) :
    Entry s (.release handle) (.ok .done, { s.1 with overflowed := s.1.overflowed + 1 }, t')
  | cleared (count : Nat) (t' : Tracker H) :
    Entry s .clear (.ok (.count count), { s.1 with queue := [], pooled := [] }, t')

theorem entry_acquire (p : Pool) (t : Tracker H) : Entry (p, t) .acquire (act (p, t) .acquire) := by
  simp only [act]
  fun_cases Pool.acquire p t
  case case1 block rest hq => exact .reused block rest hq
  case case2 e t' ha => exact .refused _ e t'
  case case3 hq block t' ha =>
    obtain ⟨hblocks, -, hid, -⟩ := Tracker.allocate_ok ha
    exact .created block t' hq hid (hblocks ▸ List.mem_concat_self)

theorem entry_release (p : Pool) (t : Tracker H) (handle : Block) :
    Entry (p, t) (.release handle) (act (p, t) (.release handle)) := by
  simp only [act]
  fun_cases Pool.release p t handle
  case case1 hsize => exact .passed handle hsize
  case case2 => exact .refused _ _ _
  case case3 => exact .refused _ _ _
  case case4 hsize hnew t₁ hzero hroom =>
    obtain ⟨-, b, hb, hid⟩ := Tracker.fill_ok hzero
    have hlive : t.isLive handle = true := Tracker.isSome_lookup_iff.mpr (List.mem_map.mpr ⟨b, hb, hid⟩)
    exact .kept handle t₁ (Decidable.not_not.mp hsize) (by simpa using hnew) hlive hroom
  case case5 hsize hnew t₁ hzero hfull e t₂ hfree =>
    -- a block that could be set to zero is live, so it can be returned
    obtain ⟨hblocks, hlive⟩ := Tracker.fill_ok hzero
    obtain ⟨b, hok⟩ := Tracker.free_of_live (hblocks ▸ hlive)
    cases hfree.symm.trans hok
  case case6 hsize hnew t₁ hzero hfull b t₂ hfree =>
    obtain ⟨hblocks, c, hc, hid⟩ := Tracker.fill_ok hzero
    have hlive : t.isLive handle = true := Tracker.isSome_lookup_iff.mpr (List.mem_map.mpr ⟨c, hc, hid⟩)
    have hothers : t₂.blocks = t.others handle.id := by
      have hgone := (t₁.free_blocks handle).1
      rw [hfree] at hgone
      rw [hgone, Tracker.others, hblocks]
      rfl
    exact .overflowed handle t₂ (Decidable.not_not.mp hsize) hlive (Nat.le_of_not_lt hfull) hothers

theorem entry_act (s : Pool × Tracker H) (a : Act) : Entry s a (act s a) := by
  obtain ⟨p, t⟩ := s
  cases a with
  | tracker a => exact .beside a _ _
  | acquire => exact entry_acquire p t
  | release handle => exact entry_release p t handle
  | clear => exact .cleared _ _

/-- What becomes of the blocks that a pool keeps. -/
inductive Change (s : Pool × Tracker H) (p' : Pool) : Act → Prop where
  | same {a : Act} (queue : p'.queue = s.1.queue) : Change s p' a
  /-- The one that has waited longest was handed out. -/
  | reused (block : Block) (queue : s.1.queue = block :: p'.queue) : Change s p' .acquire
  /-- A live one of the size of the pool was put last. -/
  | kept (handle : Block) (size : handle.requestedSize = s.1.blockSize)
    (live : s.2.isLive handle = true) (queue : p'.queue = s.1.queue ++ [handle]) :
    Change s p' (.release handle)
  | cleared (queue : p'.queue = []) : Change s p' .clear

theorem change_act (s : Pool × Tracker H) (a : Act) : Change s (act s a).2.1 a := by
  have hentry := entry_act s a
  generalize act s a = o at hentry
  cases hentry with
  | reused block rest hq => exact .reused block hq
  | kept handle t' hsize hnew hlive hroom => exact .kept handle hsize hlive rfl
  | cleared count t' => exact .cleared rfl
  | _ => exact .same rfl

/-- A block that is kept was so before, or was live when it was released. -/
theorem kept_act {s : Pool × Tracker H} {a : Act} {id : Nat} (h : id ∈ (act s a).2.1.kept) :
    id ∈ s.1.kept ∨ (s.2.lookup id).isSome := by
  unfold kept at h ⊢
  cases change_act s a with
  | same hq => exact .inl (hq ▸ h)
  | reused block hq =>
    rw [hq]
    exact .inl (List.mem_cons_of_mem _ h)
  | kept handle hsize hlive hq =>
    rw [hq, List.map_append, List.mem_append, List.map_singleton, List.mem_singleton] at h
    rcases h with h | rfl
    · exact .inl h
    · exact .inr hlive
  | cleared hq =>
    rw [hq] at h
    exact absurd h List.not_mem_nil

/-- A pool stays one of its size and alignment. -/
theorem shape_act (s : Pool × Tracker H) (a : Act) :
    (act s a).2.1.blockSize = s.1.blockSize ∧ (act s a).2.1.alignment = s.1.alignment := by
  have hentry := entry_act s a
  generalize act s a = o at hentry
  cases hentry <;> exact ⟨rfl, rfl⟩

theorem limit_act (s : Pool × Tracker H) (a : Act) : (act s a).2.1.limit = s.1.limit := by
  have hentry := entry_act s a
  generalize act s a = o at hentry
  cases hentry <;> rfl

theorem shape_run (s : Pool × Tracker H) (acts : List Act) :
    (run s acts).1.blockSize = s.1.blockSize ∧ (run s acts).1.alignment = s.1.alignment := by
  induction acts generalizing s with
  | nil => exact ⟨rfl, rfl⟩
  | cons a acts ih =>
    obtain ⟨hsize, halign⟩ := shape_act s a
    exact ⟨(ih _).1.trans hsize, (ih _).2.trans halign⟩

/-! ## Blocks that are handed out -/

theorem act_acquire_eq_ok {s : Pool × Tracker H} {block : Block} :
    (act s .acquire).1 = .ok (.block block) ↔ (s.1.acquire s.2).1 = .ok block := by
  show Except.map Tracker.Answer.block (s.1.acquire s.2).1 = .ok (.block block) ↔ _
  cases (s.1.acquire s.2).1 <;> simp [Except.map]

/-- A kept block is handed out before any other, and the tracker is not asked. -/
theorem acquire_of_queue {p : Pool} {block : Block} {rest : List Block} (hq : p.queue = block :: rest)
    (t : Tracker H) :
    (p.acquire t).1 = .ok block ∧ (p.acquire t).2.1.queue = rest ∧ (p.acquire t).2.2 = t := by
  fun_cases Pool.acquire p t
  case case1 kept rest' hq' =>
    cases hq'.symm.trans hq
    exact ⟨rfl, rfl, rfl⟩
  all_goals
    next hq' _ _ _ => cases hq'.symm.trans hq

/-- A block that is handed out was kept, or is a new one of the tracker. -/
theorem acquire_ok {p : Pool} {t : Tracker H} {block : Block} (h : (p.acquire t).1 = .ok block) :
    (block ∈ p.queue ∧ (p.acquire t).2.2 = t) ∨
      t.allocate p.blockSize p.alignment = (.ok block, (p.acquire t).2.2) := by
  revert h
  fun_cases Pool.acquire p t
  case case1 kept rest hq =>
    intro h
    cases h
    exact .inl ⟨hq ▸ List.mem_cons_self, rfl⟩
  case case2 => exact fun h => by cases h
  case case3 hq new t' ha =>
    intro h
    cases h
    exact .inr ha

/-- As many requests as there are blocks before a kept one, and one more, hand it out. -/
theorem exists_acquire_of_mem (s : Pool × Tracker H) {block : Block} (hb : block ∈ s.1.queue) :
    ∃ n, (act (run s (List.replicate n .acquire)) .acquire).1 = .ok (.block block) := by
  obtain ⟨first, rest, hq⟩ := List.append_of_mem hb
  refine ⟨first.length, ?_⟩
  clear hb
  induction first generalizing s with
  | nil => exact act_acquire_eq_ok.mpr (acquire_of_queue hq s.2).1
  | cons earlier first ih => exact ih (act s .acquire).2 (acquire_of_queue hq s.2).2.1

end TrackedHeap.Pool
