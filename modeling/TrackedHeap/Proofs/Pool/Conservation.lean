import TrackedHeap.Heap.Bump
import TrackedHeap.Proofs.Pool.Run
import TrackedHeap.Proofs.Tracker.Stale
import TrackedHeap.Proofs.Workspace.Steps

/-!
# What a pool takes and gives

By one case for each entry of `Pool.Entry`:

* a block is kept at most once, the ids beside the queue are those of its blocks, and there are never more than
  the limit (`Pool.Filed`);
* the counters and the queue balance: what was taken waits, was reused, was one too many, or was cleared away
  (`Pool.balance_run`);
* a block that was handed out is handed out again only after it was taken back (`Pool.exists_release`).

Handles may be made up, others may use the tracker meanwhile, and nothing is asked of the heap.
-/

namespace TrackedHeap.Pool

variable {H : Type} [Heap H]

theorem steps_act (s : Pool × Tracker H) (a : Act) : Tracker.Steps s.2 (act s a).2.2 := by
  cases a with
  | tracker a => exact s.2.steps_act a
  | acquire => exact s.1.steps_acquire s.2
  | release handle => exact s.1.steps_release s.2 handle
  | clear => exact s.1.steps_clear s.2

theorem steps_run (s : Pool × Tracker H) (acts : List Act) : Tracker.Steps s.2 (run s acts).2 :=
  Tracker.Steps.foldl Prod.snd steps_act acts s

/-! ## The queue -/

/-- The queue is in order: no block is in it twice, the ids beside it are those of its blocks, it is not longer
than allowed, and its blocks were given out by the tracker. -/
structure Filed (s : Pool × Tracker H) : Prop where
  nodup : s.1.kept.Nodup
  mem_pooled : ∀ id, id ∈ s.1.pooled ↔ id ∈ s.1.kept
  le_limit : s.1.queue.length ≤ s.1.limit
  issued : ∀ id ∈ s.1.kept, id < s.2.nextId
  assigned : s.2.Assigned

omit [Heap H] in
theorem filed_of_make {blockSize limit : Nat} {alignment : Alignment} {p : Pool}
    (hm : make blockSize alignment limit = .ok p) {t : Tracker H} (ht : t.Assigned) : Filed (p, t) := by
  cases eq_of_make hm
  exact ⟨List.nodup_nil, fun _ => Iff.rfl, Nat.zero_le _, fun _ hid => absurd hid List.not_mem_nil, ht⟩

namespace Filed

variable {s : Pool × Tracker H} {id : Nat}

omit [Heap H] in
/-- The block that has waited longest is in the queue once. -/
theorem not_mem_rest (h : Filed s) {block : Block} {rest : List Block} (hq : s.1.queue = block :: rest) :
    block.id ∉ rest.map Block.id := by
  have hnodup := h.nodup
  rw [kept, hq, List.map_cons, List.nodup_cons] at hnodup
  exact hnodup.1

omit [Heap H] in
theorem issued_of_live (h : Filed s) {handle : Block} (hlive : s.2.isLive handle = true) :
    handle.id < s.2.nextId := by
  obtain ⟨b, hb⟩ := Option.isSome_iff_exists.mp hlive
  obtain ⟨hmem, hid⟩ := Tracker.mem_of_lookup hb
  exact hid ▸ h.assigned b hmem

/-- Every operation leaves the queue in order. -/
theorem act (h : Filed s) (a : Act) : Filed (act s a).2 := by
  have hsteps := steps_act s a
  have hentry := entry_act s a
  generalize Pool.act s a = o at hentry hsteps ⊢
  have hassigned := hsteps.assigned h.assigned
  have hissued : ∀ id ∈ s.1.kept, id < o.2.2.nextId := fun id hid =>
    Nat.lt_of_lt_of_le (h.issued id hid) hsteps.nextId_le
  cases hentry with
  | reused block rest hq =>
    have hkept : s.1.kept = block.id :: rest.map Block.id := by rw [kept, hq, List.map_cons]
    have hrest := h.not_mem_rest hq
    refine ⟨?_, fun id => ?_, ?_, fun id hid => ?_, hassigned⟩
    · exact (List.nodup_cons.mp (hkept ▸ h.nodup)).2
    · simp only [forget, List.mem_filter, bne_iff_ne, h.mem_pooled, hkept, List.mem_cons]
      exact ⟨fun hid => hid.1.resolve_left hid.2, fun hid => ⟨.inr hid, fun he => hrest (he ▸ hid)⟩⟩
    · have hle := h.le_limit
      rw [hq, List.length_cons] at hle
      exact Nat.le_of_succ_le hle
    · exact hissued id (hkept ▸ List.mem_cons_of_mem _ hid)
  | kept handle t' hsize hnew hlive hroom =>
    have hkept : (s.1.queue ++ [handle]).map Block.id = s.1.kept ++ [handle.id] := List.map_append
    have hout : handle.id ∉ s.1.kept := fun hid => hnew ((h.mem_pooled _).mpr hid)
    refine ⟨?_, fun id => ?_, ?_, fun id hid => ?_, hassigned⟩
    · rw [kept, hkept]
      exact List.nodup_append.mpr ⟨h.nodup, List.nodup_singleton _, fun id hid other hother => by
        rw [List.mem_singleton.mp hother]
        exact fun he => hout (he ▸ hid)⟩
    · rw [kept, hkept, List.mem_append, List.mem_cons, List.mem_singleton, h.mem_pooled, or_comm]
    · rw [List.length_append, List.length_singleton]
      exact hroom
    · rw [kept, hkept, List.mem_append, List.mem_singleton] at hid
      rcases hid with hid | rfl
      · exact hissued id hid
      · exact Nat.lt_of_lt_of_le (h.issued_of_live hlive) hsteps.nextId_le
  | cleared count t' =>
    exact ⟨List.nodup_nil, fun _ => Iff.rfl, Nat.zero_le _, fun _ hid => absurd hid List.not_mem_nil,
      hassigned⟩
  | _ => exact ⟨h.nodup, h.mem_pooled, h.le_limit, hissued, hassigned⟩

theorem run (h : Filed s) (acts : List Act) : Filed (run s acts) := by
  induction acts generalizing s with
  | nil => exact h
  | cons a acts ih => exact ih (h.act a)

end Filed

/-! ## The counters -/

/-- How many blocks of its size the pool takes in an operation. -/
def taken (s : Pool × Tracker H) : Act → Nat
  | .release handle =>
    if handle.requestedSize = s.1.blockSize ∧ (act s (.release handle)).1 = .ok .done then 1 else 0
  | _ => 0

/-- How many kept blocks an operation clears away. -/
def removed (s : Pool × Tracker H) : Act → Nat
  | .clear => s.1.queue.length
  | _ => 0

/-- How many blocks of its size the pool takes in a run. -/
def takenIn (s : Pool × Tracker H) : List Act → Nat
  | [] => 0
  | a :: acts => taken s a + takenIn (act s a).2 acts

/-- How many kept blocks are cleared away in a run. -/
def removedIn (s : Pool × Tracker H) : List Act → Nat
  | [] => 0
  | a :: acts => removed s a + removedIn (act s a).2 acts

/-- What was taken and is not in the queue any longer, cleared blocks apart. -/
def passedOn (p : Pool) : Nat :=
  p.overflowed + p.reused

/-- In one operation nothing is lost: what waited or was passed on, and what was taken, waits, is passed on, or
was cleared away. -/
theorem balance_act (s : Pool × Tracker H) (a : Act) :
    (act s a).2.1.queue.length + (act s a).2.1.passedOn + removed s a =
      s.1.queue.length + s.1.passedOn + taken s a := by
  have hentry := entry_act s a
  cases a with
  | tracker a => rfl
  | clear =>
    show 0 + s.1.passedOn + s.1.queue.length = s.1.queue.length + s.1.passedOn + 0
    omega
  | acquire =>
    simp only [taken, removed]
    generalize act s .acquire = o at hentry
    cases hentry with
    | refused e t' => rfl
    | reused block rest hq =>
      simp only [passedOn, hq, List.length_cons]
      omega
    | created block t' hq hid hlive => rfl
  | release handle =>
    simp only [taken, removed]
    generalize act s (.release handle) = o at hentry
    cases hentry with
    | refused e t' => simp
    | passed handle hsize => simp [hsize]
    | kept handle t' hsize hnew hlive hroom =>
      simp only [hsize, and_self, if_true, passedOn, List.length_append, List.length_singleton]
      omega
    | overflowed handle t' hsize hlive hfull hblocks =>
      simp only [hsize, and_self, if_true, passedOn]
      omega

theorem balance_run (s : Pool × Tracker H) (acts : List Act) :
    (run s acts).1.queue.length + (run s acts).1.passedOn + removedIn s acts =
      s.1.queue.length + s.1.passedOn + takenIn s acts := by
  induction acts generalizing s with
  | nil => rfl
  | cons a acts ih =>
    have hrest := ih (act s a).2
    have hstep := balance_act s a
    simp only [removedIn, takenIn]
    show (run (act s a).2 acts).1.queue.length + (run (act s a).2 acts).1.passedOn + _ = _
    omega

/-- The counters of the requests agree. -/
def Counted (p : Pool) : Prop :=
  p.acquired = p.reused + p.created

theorem Counted.act {s : Pool × Tracker H} (h : s.1.Counted) (a : Act) : (act s a).2.1.Counted := by
  have hentry := entry_act s a
  unfold Counted at h ⊢
  generalize Pool.act s a = o at hentry
  cases hentry with
  | reused block rest hq => exact (congrArg (· + 1) h).trans (Nat.add_right_comm ..)
  | created block t' hq hid hlive => exact congrArg (· + 1) h
  | _ => exact h

theorem Counted.run {s : Pool × Tracker H} (h : s.1.Counted) (acts : List Act) :
    (run s acts).1.Counted := by
  induction acts generalizing s with
  | nil => exact h
  | cons a acts ih => exact ih (h.act a)

/-! ## Blocks that come back -/

/-- The pool took back a block of its size, with this id. -/
def TookBack (s : Pool × Tracker H) (id : Nat) (handle : Block) : Prop :=
  handle.id = id ∧ handle.requestedSize = s.1.blockSize ∧ (act s (.release handle)).1 = .ok .done

/-- Out of the hands of the pool: the tracker has given the id out, and no kept block has it. -/
def Out (s : Pool × Tracker H) (id : Nat) : Prop :=
  id ∉ s.1.kept ∧ id < s.2.nextId

/-- A block that is handed out is out. -/
theorem Filed.out_of_acquire {s : Pool × Tracker H} (h : Filed s) {block : Block}
    (ha : (Pool.act s .acquire).1 = .ok (.block block)) : Out (Pool.act s .acquire).2 block.id := by
  have hentry := entry_act s .acquire
  have hfiled := h.act .acquire
  have hnext := (steps_act s .acquire).nextId_le
  generalize Pool.act s .acquire = o at hentry ha hfiled hnext ⊢
  cases hentry with
  | refused e t' => cases ha
  | reused kept rest hq =>
    cases ha
    have hissued := h.issued block.id (by rw [Pool.kept, hq]; exact List.mem_cons_self)
    exact ⟨h.not_mem_rest hq, Nat.lt_of_lt_of_le hissued hnext⟩
  | created new t' hq hid hlive =>
    cases ha
    refine ⟨?_, hfiled.assigned block hlive⟩
    rw [Pool.kept, hq]
    exact List.not_mem_nil

namespace Out

variable {s : Pool × Tracker H} {id : Nat}

/-- A block that is out is not handed out. -/
theorem ne_of_acquire (h : Out s id) {block : Block}
    (ha : (Pool.act s .acquire).1 = .ok (.block block)) : block.id ≠ id := by
  have hentry := entry_act s .acquire
  generalize Pool.act s .acquire = o at hentry ha
  cases hentry with
  | refused e t' => cases ha
  | reused kept rest hq =>
    cases ha
    rintro rfl
    exact h.1 (by rw [Pool.kept, hq]; exact List.mem_cons_self)
  | created new t' hq hid hlive =>
    cases ha
    rintro rfl
    exact Nat.lt_irrefl _ (hid ▸ h.2)

/-- What is out stays out, unless the pool takes it back. -/
theorem act (h : Out s id) (a : Act) :
    Out (act s a).2 id ∨ ∃ handle, a = .release handle ∧ TookBack s id handle := by
  have hnext := Nat.lt_of_lt_of_le h.2 (steps_act s a).nextId_le
  have hentry := entry_act s a
  generalize ho : Pool.act s a = o at hentry hnext ⊢
  cases hentry with
  | reused block rest hq =>
    have hkept : s.1.kept = block.id :: rest.map Block.id := by rw [Pool.kept, hq, List.map_cons]
    exact .inl ⟨fun hid => h.1 (hkept ▸ List.mem_cons_of_mem _ hid), hnext⟩
  | kept handle t' hsize hnew hlive hroom =>
    by_cases hid : handle.id = id
    · exact .inr ⟨handle, rfl, hid, hsize, congrArg Prod.fst ho⟩
    · refine .inl ⟨fun hin => ?_, hnext⟩
      rw [Pool.kept, List.map_append, List.mem_append, List.map_singleton, List.mem_singleton] at hin
      exact hin.elim h.1 fun he => hid he.symm
  | cleared count t' => exact .inl ⟨List.not_mem_nil, hnext⟩
  | _ => exact .inl ⟨h.1, hnext⟩

/-- A block that is out is handed out again only after the pool took it back. -/
theorem exists_tookBack (h : Out s id) (acts : List Act) {block : Block}
    (ha : (Pool.act (run s acts) .acquire).1 = .ok (.block block)) (hid : block.id = id) :
    ∃ earlier handle, earlier ++ [.release handle] <+: acts ∧ TookBack (run s earlier) id handle := by
  induction acts generalizing s with
  | nil => exact absurd hid (h.ne_of_acquire ha)
  | cons a acts ih =>
    rcases h.act a with hout | ⟨handle, rfl, htook⟩
    · obtain ⟨earlier, handle, hp, htook⟩ := ih hout ha
      exact ⟨a :: earlier, handle, (List.cons_prefix_cons).mpr ⟨rfl, hp⟩, htook⟩
    · exact ⟨[], handle, (List.cons_prefix_cons).mpr ⟨rfl, List.nil_prefix⟩, htook⟩

end Out

theorem limit_run (s : Pool × Tracker H) (acts : List Act) : (run s acts).1.limit = s.1.limit := by
  induction acts generalizing s with
  | nil => rfl
  | cons a acts ih =>
    exact (ih (act s a).2).trans (limit_act s a)

/-- A block of its size that a full pool takes goes back to the tracker, and the queue stays. -/
theorem release_of_full {s : Pool × Tracker H} {handle : Block}
    (hsize : handle.requestedSize = s.1.blockSize) (hfull : s.1.limit ≤ s.1.queue.length)
    (hok : (act s (.release handle)).1 = .ok .done) :
    s.2.isLive handle = true ∧ (act s (.release handle)).2.2.blocks = s.2.others handle.id ∧
      (act s (.release handle)).2.1.queue = s.1.queue ∧ (act s (.release handle)).2.1.pooled = s.1.pooled := by
  have hentry := entry_act s (.release handle)
  generalize act s (.release handle) = o at hentry hok ⊢
  cases hentry with
  | refused e t' => cases hok
  | passed handle hother => exact absurd hsize hother
  | kept handle t' hsize hnew hlive hroom => exact absurd hroom (Nat.not_lt_of_le hfull)
  | overflowed handle t' hsize hlive hfull hblocks => exact ⟨hlive, hblocks, rfl, rfl⟩

/-! ## Runs -/

/-- What holds of a pool after operations, and all the way there. -/
structure Conserved (s : Pool × Tracker H) (acts : List Act) : Prop where
  /-- No block is in the queue twice. -/
  nodup : (run s acts).1.kept.Nodup
  /-- The ids beside the queue are those of its blocks. -/
  mem_pooled : ∀ id, id ∈ (run s acts).1.pooled ↔ id ∈ (run s acts).1.kept
  le_limit : (run s acts).1.stats.available ≤ s.1.limit
  /-- A block that is handed out is a kept one or a new one. -/
  acquired : (run s acts).1.stats.acquired = (run s acts).1.stats.reused + (run s acts).1.stats.created
  /-- What the pool took back waits, unless it was one too many, was reused or was cleared away. -/
  available : (run s acts).1.stats.available =
    takenIn s acts - (run s acts).1.stats.overflowed - (run s acts).1.stats.reused - removedIn s acts
  /-- As much was taken back as was passed on. -/
  passedOn_le : (run s acts).1.stats.overflowed + (run s acts).1.stats.reused + removedIn s acts ≤
    takenIn s acts
  /-- Between two times that a block is handed out the pool took it back. -/
  exclusive : ∀ past between b b', past ++ .acquire :: (between ++ [.acquire]) <+: acts →
    (act (run s past) .acquire).1 = .ok (.block b) →
    (act (run s (past ++ .acquire :: between)) .acquire).1 = .ok (.block b') → b'.id = b.id →
    ∃ earlier handle, earlier ++ [.release handle] <+: between ∧
      TookBack (run s (past ++ .acquire :: earlier)) b.id handle
  /-- A block of its size that the full pool took went back to the tracker, and the queue stayed. -/
  overflow : ∀ past handle, past ++ [.release handle] <+: acts →
    handle.requestedSize = s.1.blockSize → (run s past).1.stats.available = s.1.limit →
    (act (run s past) (.release handle)).1 = .ok .done →
    (run s past).2.isLive handle = true ∧
      (act (run s past) (.release handle)).2.2.blocks = (run s past).2.others handle.id ∧
      (act (run s past) (.release handle)).2.1.queue = (run s past).1.queue ∧
      (act (run s past) (.release handle)).2.1.pooled = (run s past).1.pooled

/-- Whatever is released to a pool, and whatever the tracker does meanwhile. -/
theorem run_conserved {blockSize limit : Nat} {alignment : Alignment} {p : Pool}
    (hm : make blockSize alignment limit = .ok p) {heap : H} {budget : Option Nat} {t : Tracker H}
    (ht : (Tracker.ofHeap heap budget).Steps t) (acts : List Act) : Conserved (p, t) acts := by
  have hfiled : Filed (p, t) := filed_of_make hm (ht.assigned (Tracker.assigned_ofHeap heap budget))
  have hend := hfiled.run acts
  have hbalance : (run (p, t) acts).1.queue.length + (run (p, t) acts).1.passedOn + removedIn (p, t) acts =
      takenIn (p, t) acts := by
    rw [balance_run, eq_of_make hm]
    exact Nat.zero_add _
  have hcounted : Counted p := by rw [eq_of_make hm]; rfl
  refine ⟨hend.nodup, hend.mem_pooled, ?_, Counted.run (s := (p, t)) hcounted acts, ?_, ?_, ?_, ?_⟩
  · exact limit_run (p, t) acts ▸ hend.le_limit
  · simp only [passedOn, stats] at hbalance ⊢
    omega
  · simp only [passedOn, stats] at hbalance ⊢
    omega
  · intro past between b b' hp hb hb' hid
    have hout := (hfiled.run past).out_of_acquire hb
    rw [← run_concat] at hout
    have happ (later : List Act) : run (p, t) (past ++ .acquire :: later) =
        run (run (p, t) (past ++ [.acquire])) later := by
      rw [List.append_cons, run_append]
    rw [happ] at hb'
    obtain ⟨earlier, handle, hin, htook⟩ := hout.exists_tookBack between hb' hid
    exact ⟨earlier, handle, hin, happ earlier ▸ htook⟩
  · intro past handle hp hsize hfull hok
    have hlimit := limit_run (p, t) past
    have hshape := (shape_run (p, t) past).1
    exact release_of_full (hsize.trans hshape.symm) (Nat.le_of_eq (hlimit.trans hfull.symm)) hok

/-- A block comes back, is released twice, and is handed out again; another is one too many; the last one that
is kept is freed behind the back of the pool before the pool is cleared. -/
theorem run_conserved_mixed :
    let p : Pool := { blockSize := 64, alignment := .cacheLine, limit := 1 }
    let t : Tracker BumpHeap := .ofHeap (.ofPlan {}) none
    let first : Block := .place 1 65536 64 127 .cacheLine 0
    let second : Block := .place 2 65728 64 127 .cacheLine 0
    let acts : List Act :=
      [.acquire, .acquire, .release first, .release first, .release second, .release second, .acquire,
        .release first, .tracker (.free first), .clear, .acquire]
    Conserved (p, t) acts ∧
      (run (p, t) acts).1.stats =
        { blockSize := 64, alignment := .cacheLine, limit := 1, available := 0, acquired := 4, reused := 1,
          created := 3, overflowed := 1 } ∧
      takenIn (p, t) acts = 3 ∧ removedIn (p, t) acts = 1 := by
  refine ⟨run_conserved (show make 64 .cacheLine 1 = .ok _ from rfl) .refl _, ?_⟩
  decide +kernel

end TrackedHeap.Pool
