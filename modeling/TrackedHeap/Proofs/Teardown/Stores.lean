import TrackedHeap.Proofs.Teardown.Charge

/-!
# What a workspace has of its tracker

The stores of a workspace are the blocks that go back to the tracker when its carvers and pools are done with.
Every request is tidy with them, apart from the blocks that it hands to a client or takes back from one
(`Workspace.tidy_perform`).
-/

namespace TrackedHeap

open Tracker (Tidy Draws)

variable {H : Type}

/-- Carvers that come take blocks, and those that go return theirs. -/
theorem Carver.Charge.upkeep [Heap H] {f : Carver → List Nat} (hf : Carver.Charge H f) (start : Tracker H)
    (before : List Nat) : Carver.Upkeep (fun _ s => s)
      fun (_ : Unit) t carvers => start.Draws t before (carvers.flatMap f) where
  perm hp h := h.perm (.refl _) (hp.symm.flatMap_right f)
  drop h := h.trans ((hf.dispose _ _).append_right _)
  built _ hb h := h.trans ((hf.build hb).append_right _)
  refused {_ t t' e carvers strategy total alignment} hn hb h := by
    have hsteps := Carver.steps_build t strategy total alignment
    rw [hb] at hsteps
    have hsame : ∀ b ∈ t'.blocks, b ∈ t.blocks := fun _ hm => (Carver.build_refused hb).blocks_eq hn ▸ hm
    exact h.trans (hsteps.draws (.of_subset hsame _) fun _ => id)
  reset _ h := h.trans ((hf.reset _ _).append_right _)

namespace Workspace

variable {w : Workspace H} {label : String}

/-- The blocks that go back to the tracker when the carvers and pools are done with. -/
def stores (w : Workspace H) : List Nat :=
  w.carvers.flatMap Carver.stock ++ w.pooled

theorem waiting_subset_stores {id : Nat} (h : id ∈ w.waiting) : id ∈ w.stores := by
  rcases List.mem_append.mp h with h | h
  · exact List.mem_append_right _ h
  · obtain ⟨c, hc, hid⟩ := List.mem_flatMap.mp h
    exact List.mem_append_left _ (List.mem_flatMap.mpr ⟨c, hc, c.waiting_subset_stock hid⟩)

/-! ## What clients get and give -/

/-- The block that a client has when it is answered so. -/
def handsOver (w : Workspace H) (reply : Except MemoryError Reply) : Request → List Nat
  | .allocate .. | .reallocate .. | .acquire .. =>
    match reply with
    | .ok (.block b) => [b.id]
    | _ => []
  | .carve label _ =>
    match reply, w.carver? label with
    | .ok (.carveOut range), some (.objectPool _) => [range.block.id]
    | _, _ => []
  | _ => []

/-- The blocks that a client no longer has when it is answered so. -/
def takesBack (w : Workspace H) (reply : Except MemoryError Reply) : Request → List Nat
  | .free handle | .reallocate handle _ =>
    match reply with
    | .ok _ => [handle.id]
    | .error _ => []
  | .release label handle =>
    match reply, w.pools.lookup label with
    | .ok _, some p => if handle.requestedSize = p.blockSize then [handle.id] else []
    | _, _ => []
  | .giveBack label handle =>
    match reply, w.carver? label with
    | .ok _, some (.objectPool _) => [handle.block.id]
    | _, _ => []
  | .freeAll => w.tracker.blocks.map Block.id
  | _ => []

/-! ## Pools -/

theorem nodup_pools_onPool {α : Type} (h : (w.pools.map Prod.fst).Nodup) (label : String) (reply : α → Reply)
    (act : Pool → Tracker H → Outcome α (Pool × Tracker H)) :
    ((w.onPool label reply act).2.pools.map Prod.fst).Nodup := by
  unfold onPool
  split
  · exact h
  · exact nodup_relabel h label _

/-- The pool under a label changes, and the stores with it. -/
theorem tidy_onPool {α : Type} [Heap H] (hn : (w.pools.map Prod.fst).Nodup) (taken given : List Nat)
    {act : Pool → Tracker H → Outcome α (Pool × Tracker H)} (reply : α → Reply)
    (hnone : w.pools.lookup label = none → taken = [])
    (hact : ∀ p, w.pools.lookup label = some p →
      w.tracker.Tidy (act p w.tracker).2.2 (taken ++ p.kept) (given ++ (act p w.tracker).2.1.kept)) :
    w.tracker.Tidy (w.onPool label reply act).2.tracker (taken ++ w.stores)
      (given ++ (w.onPool label reply act).2.stores) := by
  unfold onPool
  split
  · next hl =>
    rw [hnone hl]
    exact (Tidy.refl _ w.stores).mono (fun _ => id) fun _ => List.mem_append_right _
  · next p hl =>
    let others := w.carvers.flatMap Carver.stock ++ (unlabel w.pools label).flatMap fun p => p.2.kept
    have hpools : w.pooled.Perm (p.kept ++ (unlabel w.pools label).flatMap fun p => p.2.kept) :=
      (perm_of_lookup hn hl).flatMap_right _
    have hmove (more kept rest : List Nat) : (more ++ (w.carvers.flatMap Carver.stock ++ (kept ++ rest))).Perm
        (more ++ kept ++ (w.carvers.flatMap Carver.stock ++ rest)) := by
      rw [List.append_assoc more]
      exact (List.perm_append_comm_assoc ..).append_left more
    refine ((hact p hl).append_right others).perm ?_ (hmove given _ _)
    exact ((hpools.append_left _).append_left taken).trans (hmove taken _ _)

/-- The pool under a label goes. -/
theorem tidy_unlabel [Heap H] (hn : (w.pools.map Prod.fst).Nodup) {p : Pool}
    (hl : w.pools.lookup label = some p) :
    w.tracker.Tidy (p.dispose w.tracker) w.stores
      (w.carvers.flatMap Carver.stock ++ (unlabel w.pools label).flatMap fun p => p.2.kept) := by
  have hpools : w.pooled.Perm (p.kept ++ (unlabel w.pools label).flatMap fun p => p.2.kept) :=
    (perm_of_lookup hn hl).flatMap_right _
  exact (((p.tidy_clear w.tracker).append_right _).append_left _).perm (hpools.append_left _) (.refl _)

theorem tidy_dropPool [Heap H] (hn : (w.pools.map Prod.fst).Nodup) (label : String) :
    w.tracker.Tidy (w.dropPool label).tracker w.stores (w.dropPool label).stores := by
  unfold dropPool
  split
  · exact .refl _ _
  · next hl => exact tidy_unlabel hn hl

theorem tidy_holdPool [Heap H] (hn : (w.pools.map Prod.fst).Nodup) (label : String) {p : Pool}
    (hnew : p.kept = []) :
    w.tracker.Tidy (w.holdPool label p).tracker w.stores (w.holdPool label p).stores := by
  have hstores : (w.holdPool label p).stores =
      w.carvers.flatMap Carver.stock ++ (unlabel w.pools label).flatMap fun p => p.2.kept := by
    simp only [stores, carvers, pooled, holdPool, relabel, List.flatMap_cons, hnew, List.nil_append]
  rw [hstores]
  unfold holdPool
  simp only
  split
  · next hl =>
    rw [unlabel_of_lookup_eq_none hl]
    exact .refl _ _
  · next hl => exact tidy_unlabel hn hl

/-! ## Carvers -/

theorem Distinct.tidy_onCarver {α : Type} [Heap H] (hd : w.Distinct) (taken given : List Nat)
    {act : Carver → Tracker H → Outcome α (Carver × Tracker H)} (reply : α → Reply)
    (hnone : w.carver? label = none → taken = [])
    (hact : ∀ c, w.carver? label = some c →
      w.tracker.Tidy (act c w.tracker).2.2 (taken ++ c.stock) (given ++ (act c w.tracker).2.1.stock)) :
    w.tracker.Tidy (w.onCarver label reply act).2.tracker (taken ++ w.carvers.flatMap Carver.stock)
      (given ++ (w.onCarver label reply act).2.carvers.flatMap Carver.stock) := by
  rcases hd.onCarver_cases label reply act with ⟨hl, hsame⟩ | ⟨c, others, hl, hp, htracker, hp'⟩
  · rw [hnone hl, hsame]
    exact (Tidy.refl _ _).mono (fun _ => id) fun _ => List.mem_append_right _
  · have hmove {carvers : List Carver} {c : Carver} (hp : carvers.Perm (c :: others)) (more : List Nat) :
        (more ++ carvers.flatMap Carver.stock).Perm (more ++ c.stock ++ others.flatMap Carver.stock) := by
      rw [List.append_assoc]
      exact (hp.flatMap_right Carver.stock).append_left more
    rw [htracker]
    exact ((hact c hl).append_right _).perm (hmove hp taken) (hmove hp' given)

theorem Distinct.draws_onCarver {α : Type} [Heap H] (hd : w.Distinct) {f : Carver → List Nat}
    {act : Carver → Tracker H → Outcome α (Carver × Tracker H)} (reply : α → Reply)
    (hact : ∀ c, w.carver? label = some c →
      w.tracker.Draws (act c w.tracker).2.2 (f c) (f (act c w.tracker).2.1)) :
    w.tracker.Draws (w.onCarver label reply act).2.tracker (w.carvers.flatMap f)
      ((w.onCarver label reply act).2.carvers.flatMap f) := by
  rcases hd.onCarver_cases label reply act with ⟨-, hsame⟩ | ⟨c, others, hl, hp, htracker, hp'⟩
  · rw [hsame]
    exact .refl _ _
  · rw [htracker]
    exact ((hact c hl).append_right _).perm (hp.flatMap_right f) (hp'.flatMap_right f)

theorem stores_onTracker {α : Type} (w : Workspace H) (reply : α → Reply) (o : Outcome α (Tracker H)) :
    (w.onTracker reply o).2.stores = w.stores := by
  obtain ⟨_ | _, _⟩ := o <;> rfl

/-! ## Requests -/

/-- The labels of pools are distinct, as those of carvers and their serial numbers are, ids tell live blocks
apart, and blocks that wait have ids that were given out. -/
structure InOrder (w : Workspace H) : Prop where
  numbered : w.tracker.Numbered
  distinct : w.Distinct
  pools : (w.pools.map Prod.fst).Nodup
  waiting : ∀ id ∈ w.waiting, id < w.tracker.nextId

namespace InOrder

theorem opened (heap : H) (budget : Option Nat) (alignment : Alignment) :
    (opened heap budget alignment).InOrder where
  numbered := Tracker.numbered_ofHeap heap budget
  distinct := ⟨List.nodup_nil, List.nodup_nil, fun _ ha => absurd ha List.not_mem_nil⟩
  pools := List.nodup_nil
  waiting _ hid := absurd hid List.not_mem_nil

variable [Heap H]

theorem pools_perform (h : w.InOrder) (request : Request) :
    ((w.perform request).2.pools.map Prod.fst).Nodup := by
  cases request <;>
    simp only [perform, pools_onTracker, pools_onCarver, answer_tracker, pools_build, pools_get,
      pools_remove, pools_letGo]
  case makePool =>
    split
    · exact h.pools
    · exact nodup_relabel h.pools _ _
  case acquire | release | clear | poolStats => exact nodup_pools_onPool h.pools ..
  case dropPool label =>
    unfold dropPool
    split
    · exact h.pools
    · exact nodup_unlabel h.pools label
  all_goals exact h.pools

theorem perform (h : w.InOrder) (request : Request) : (w.perform request).2.InOrder where
  numbered := (w.steps_perform request).numbered h.numbered
  distinct := h.distinct.perform request
  pools := h.pools_perform request
  waiting id hid := by
    refine Nat.lt_of_lt_of_le ?_ (w.steps_perform request).nextId_le
    rcases known_of_waiting hid with hid | hlive
    · exact h.waiting id hid
    · obtain ⟨b, hb⟩ := Option.isSome_iff_exists.mp hlive
      obtain ⟨hmem, rfl⟩ := Tracker.mem_of_lookup hb
      exact h.numbered.issued b hmem

theorem run (h : w.InOrder) (requests : List Request) : (w.run requests).InOrder := by
  induction requests generalizing w with
  | nil => exact h
  | cons request requests ih => exact ih (h.perform request)

end InOrder

variable [Heap H]

theorem pools_arranged {request : Request} (hr : Arranges request) :
    (w.perform request).2.pools = w.pools := by
  cases request <;> simp only [perform, pools_build, pools_get, pools_remove, pools_letGo]
  case reset => exact pools_onCarver ..
  case carverStats => exact pools_onCarver ..
  case shutdown => rfl
  all_goals exact False.elim hr

/-- Carvers keep their blocks or return them, and those that come take new ones. -/
theorem draws_arranged {f : Carver → List Nat} (hf : Carver.Charge H f) (h : w.InOrder) {request : Request}
    (hr : Arranges request) :
    w.tracker.Draws (w.perform request).2.tracker (w.carvers.flatMap f)
      ((w.perform request).2.carvers.flatMap f) := by
  have hup := hf.upkeep w.tracker (w.carvers.flatMap f)
  have hstart := Draws.refl w.tracker (w.carvers.flatMap f)
  cases request
  case build label strategy total alignment =>
    exact hup.build (s := ()) h.numbered h.distinct hstart label strategy total alignment
  case get label name strategy total alignment =>
    exact hup.get (s := ()) h.numbered h.distinct hstart label name strategy total alignment
  case reset label => exact h.distinct.draws_onCarver _ fun c _ => hf.reset c w.tracker
  case carverStats label => exact h.distinct.draws_onCarver _ fun c _ => .refl _ _
  case letGo label => exact hup.letGo (s := ()) h.distinct hstart label
  case remove name label => exact hup.remove (s := ()) h.distinct hstart name label
  case shutdown => exact hup.shutdown (s := ()) h.numbered h.distinct hstart
  all_goals exact False.elim hr

theorem tidy_acquire (h : w.InOrder) (label : String) :
    w.tracker.Tidy (w.perform (.acquire label)).2.tracker w.stores
      (w.handsOver (w.perform (.acquire label)).1 (.acquire label) ++
        (w.perform (.acquire label)).2.stores) := by
  refine tidy_onPool h.pools [] _ _ (fun _ => rfl) fun p hl => ?_
  have hgiven : w.handsOver (w.perform (.acquire label)).1 (.acquire label) =
      Pool.granted (p.acquire w.tracker).1 := by
    simp only [perform, onPool, hl]
    cases (p.acquire w.tracker).1 <;> rfl
  rw [hgiven]
  exact p.tidy_acquire w.tracker

theorem tidy_release (h : w.InOrder) (label : String) (handle : Block) :
    w.tracker.Tidy (w.perform (.release label handle)).2.tracker
      (w.takesBack (w.perform (.release label handle)).1 (.release label handle) ++ w.stores)
      (w.perform (.release label handle)).2.stores := by
  refine tidy_onPool h.pools _ [] _ (fun hl => ?_) fun p hl => ?_
  · simp only [perform, onPool, hl, takesBack]
  · have htaken : w.takesBack (w.perform (.release label handle)).1 (.release label handle) =
        p.accepted (p.release w.tracker handle).1 handle := by
      simp only [perform, onPool, takesBack, hl]
      cases (p.release w.tracker handle).1 <;> rfl
    rw [htaken]
    exact p.tidy_release w.tracker handle

theorem tidy_carve (h : w.InOrder) (label : String) (size : Nat) :
    w.tracker.Tidy (w.perform (.carve label size)).2.tracker w.stores
      (w.handsOver (w.perform (.carve label size)).1 (.carve label size) ++
        (w.perform (.carve label size)).2.stores) := by
  have hpools : (w.perform (.carve label size)).2.pools = w.pools := pools_onCarver ..
  rw [stores, stores, pooled, pooled, hpools, ← List.append_assoc]
  refine (h.distinct.tidy_onCarver [] _ _ (fun _ => rfl) fun c hl => ?_).append_right _
  have hgiven : w.handsOver (w.perform (.carve label size)).1 (.carve label size) =
      c.handed (c.allocate w.tracker size).1 := by
    simp only [perform, onCarver, handsOver, hl]
    generalize (c.allocate w.tracker size).1 = answer
    cases c <;> cases answer <;> rfl
  rw [hgiven]
  exact c.tidy_allocate w.tracker size

theorem tidy_giveBack (h : w.InOrder) (label : String) (handle : CarveOut) :
    w.tracker.Tidy (w.perform (.giveBack label handle)).2.tracker
      (w.takesBack (w.perform (.giveBack label handle)).1 (.giveBack label handle) ++ w.stores)
      (w.perform (.giveBack label handle)).2.stores := by
  have hpools : (w.perform (.giveBack label handle)).2.pools = w.pools := pools_onCarver ..
  rw [stores, stores, pooled, pooled, hpools, ← List.append_assoc]
  refine (h.distinct.tidy_onCarver _ [] _ (fun hl => ?_) fun c hl => ?_).append_right _
  · simp only [perform, onCarver, hl, takesBack]
  · have htaken : w.takesBack (w.perform (.giveBack label handle)).1 (.giveBack label handle) =
        c.accepted (c.release w.tracker handle).1 handle := by
      simp only [perform, onCarver, takesBack, hl]
      generalize (c.release w.tracker handle).1 = answer
      cases c <;> cases answer <;> rfl
    rw [htaken, c.release_tracker]
    exact (Tidy.refl _ _).mono (fun _ => id) (c.mem_stock_release w.tracker handle)

/-- A live block that is not in the stores after a request was there before, and it was not taken back; or it
was handed over. -/
theorem tidy_perform (h : w.InOrder) (request : Request) :
    w.tracker.Tidy (w.perform request).2.tracker (w.takesBack (w.perform request).1 request ++ w.stores)
      (w.handsOver (w.perform request).1 request ++ (w.perform request).2.stores) := by
  have hstart := Tidy.refl w.tracker w.stores
  have harranged (hr : Arranges request) :
      w.tracker.Tidy (w.perform request).2.tracker w.stores (w.perform request).2.stores := by
    rw [stores, stores, pooled, pooled, pools_arranged hr]
    exact ((draws_arranged Carver.charge_stock h hr).append_right _).tidy
  cases request
  case acquire label => exact tidy_acquire h label
  case release label handle => exact tidy_release h label handle
  case carve label size => exact tidy_carve h label size
  case giveBack label handle => exact tidy_giveBack h label handle
  case allocate size alignment =>
    simp only [perform, onTracker_tracker, stores_onTracker]
    rcases ha : w.tracker.allocate size alignment with ⟨e | b, t⟩
    · exact Tracker.tidy_allocate_error ha _
    · exact Tracker.tidy_allocate_ok ha _
  case free handle =>
    simp only [perform, onTracker_tracker, stores_onTracker]
    rcases ha : w.tracker.free handle with ⟨e | b, t⟩
    · exact (Tracker.tidy_free ha _).mono (fun _ => List.mem_cons_of_mem _) fun _ => id
    · exact Tracker.tidy_free ha _
  case reallocate handle size =>
    simp only [perform, onTracker_tracker, stores_onTracker]
    rcases ha : w.tracker.reallocate handle size with ⟨e | b, t⟩
    · exact Tracker.tidy_reallocate_error ha _
    · exact Tracker.tidy_reallocate_ok ha _
  case freeAll => exact w.tracker.tidy_freeAll _ _
  case fill handle offset length byte =>
    simp only [perform, onTracker_tracker, stores_onTracker]
    exact w.tracker.tidy_fill handle offset length byte _
  case write handle offset bytes =>
    simp only [perform, onTracker_tracker, stores_onTracker]
    exact w.tracker.tidy_write handle offset bytes _
  case copy source sourceOffset target targetOffset length mode =>
    simp only [perform, onTracker_tracker, stores_onTracker]
    exact w.tracker.tidy_copy source sourceOffset target targetOffset length mode _
  case read | compare =>
    simp only [perform, answer_tracker]
    exact hstart
  case makePool label blockSize alignment limit =>
    simp only [perform]
    split
    · exact hstart
    · next hm => exact tidy_holdPool h.pools label (Pool.kept_of_make hm)
  case clear label =>
    exact tidy_onPool h.pools [] [] _ (fun _ => rfl) fun p _ => p.tidy_clear w.tracker
  case poolStats label =>
    exact tidy_onPool h.pools [] [] _ (fun _ => rfl) fun p _ => .refl _ _
  case dropPool label => exact tidy_dropPool h.pools label
  case build | get | reset | carverStats | letGo | remove | shutdown => exact harranged trivial
  all_goals exact hstart

end Workspace

end TrackedHeap
