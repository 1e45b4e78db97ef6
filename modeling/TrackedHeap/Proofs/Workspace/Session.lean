import TrackedHeap.Proofs.Heap.Bump
import TrackedHeap.Proofs.Workspace.Estate

/-!
# Sessions

A session is a workspace with an account of the ranges that its clients were granted and of those that they
have: a range is a client's from when it is granted until it is given back, its carver is reset, or its
carver is done with. Clients may ask for anything, in any order, as long as a range is given back as it was
granted, however long ago, and a block behind a carver is handed to nobody but the carver. Then no byte is
ever with two of them (`Session.run_exclusive`).
-/

namespace TrackedHeap

/-- A workspace, the ranges that were ever granted, and those that clients have. -/
structure Session (H : Type) where
  workspace : Workspace H
  issued : List CarveOut := []
  outstanding : List CarveOut := []

namespace Session

variable {H : Type}

/-- The range that a reply grants. -/
def granted : Except MemoryError Reply → List CarveOut
  | .ok (.carveOut c) => [c]
  | _ => []

/-- The ranges that were ever granted, after a request was answered. -/
def issuedAfter (reply : Except MemoryError Reply) (issued : List CarveOut) :
    Request → List CarveOut
  | .carve .. => granted reply ++ issued
  | _ => issued

/-- What clients have after a request of theirs to a workspace was answered, and the workspace changed. -/
def outstandingAfter (before after : Workspace H) (reply : Except MemoryError Reply)
    (out : List CarveOut) : Request → List CarveOut
  | .carve .. => granted reply ++ out
  | .giveBack label handle =>
    match before.carver? label with
    | some c => c.afterRelease reply handle out
    | none => out
  | .reset label =>
    match reply, before.carver? label with
    | .ok _, some c => c.afterReset out
    | _, _ => out
  | .shutdown =>
    (before.registry.registered.foldl (fun out a => a.carver.afterReset out) out).filter fun c =>
      c.block.id ∈ after.backing
  | .build .. | .get .. | .letGo .. | .remove .. => out.filter fun c => c.block.id ∈ after.backing
  | _ => out

/-- The blocks that a request hands to the tracker or to a pool. -/
def handed (w : Workspace H) : Request → List Nat
  | .free handle => [handle.id]
  | .reallocate handle _ => [handle.id]
  | .release _ handle => [handle.id]
  | .freeAll => w.tracker.blocks.map Block.id
  | _ => []

/-- The range that a request gives back to a carver. -/
def givenBack : Request → List CarveOut
  | .giveBack _ handle => [handle]
  | _ => []

/-- Blocks behind carvers are not handed to anybody else, and ranges are given back as they were granted. -/
def Allows (s : Session H) (request : Request) : Prop :=
  (∀ id ∈ handed s.workspace request, id ∉ s.workspace.backing) ∧
    ∀ c ∈ givenBack request, c ∈ s.issued

instance (s : Session H) (request : Request) : Decidable (s.Allows request) :=
  inferInstanceAs (Decidable (_ ∧ _))

variable [Heap H]

/-- One step, with the account of it. -/
def perform (s : Session H) (request : Request) : Session H :=
  match s.workspace.perform request with
  | (reply, after) =>
    { workspace := after
      issued := issuedAfter reply s.issued request
      outstanding := outstandingAfter s.workspace after reply s.outstanding request }

/-- The session after a run. -/
def run (s : Session H) (requests : List Request) : Session H :=
  requests.foldl perform s

/-- Every request of a run is allowed when it comes. -/
def Disciplined (s : Session H) : List Request → Prop
  | [] => True
  | request :: requests => s.Allows request ∧ (s.perform request).Disciplined requests

/-- Whether a run is disciplined can be computed along it. -/
def decDisciplined (s : Session H) : (requests : List Request) → Decidable (s.Disciplined requests)
  | [] => .isTrue trivial
  | request :: requests =>
    have := decDisciplined (s.perform request) requests
    inferInstanceAs (Decidable (s.Allows request ∧ (s.perform request).Disciplined requests))

instance (s : Session H) (requests : List Request) : Decidable (s.Disciplined requests) :=
  decDisciplined s requests

/-! ## What clients have after a request to a carver -/

section

variable {w after : Workspace H} {label : String} {c : Carver} (hl : w.carver? label = some c)
  (out : List CarveOut)

include hl

theorem granted_carve (size : Nat) : granted (w.perform (.carve label size)).1 ++ out =
    CarveOut.taken (c.allocate w.tracker size).1 out := by
  simp only [Workspace.perform, Workspace.onCarver, hl]
  cases (c.allocate w.tracker size).1 <;> rfl

theorem outstandingAfter_giveBack (handle : CarveOut) :
    outstandingAfter w after (w.perform (.giveBack label handle)).1 out (.giveBack label handle) =
      c.afterRelease (c.release w.tracker handle).1 handle out := by
  have hreply : (w.perform (.giveBack label handle)).1 =
      (c.release w.tracker handle).1.map fun _ => Reply.done := by
    simp only [Workspace.perform, Workspace.onCarver, hl]
  simp only [outstandingAfter, hl, hreply, Carver.afterRelease, CarveOut.returned_map]

theorem outstandingAfter_reset (hok : (c.reset w.tracker).1 = .ok ()) :
    outstandingAfter w after (w.perform (.reset label)).1 out (.reset label) = c.afterReset out := by
  have hreply : (w.perform (.reset label)).1 = .ok .done := by
    simp only [Workspace.perform, Workspace.onCarver, hl, hok]
    rfl
  simp only [outstandingAfter, hl, hreply]

end

/-- A label without a carver changes nothing. -/
theorem granted_carve_of_none {w : Workspace H} {label : String} (hl : w.carver? label = none) (size : Nat) :
    granted (w.perform (.carve label size)).1 = [] := by
  simp only [Workspace.perform, Workspace.onCarver, hl]
  rfl

omit [Heap H] in
theorem outstandingAfter_reset_of_none {w after : Workspace H} {label : String}
    (hl : w.carver? label = none) (reply : Except MemoryError Reply) (out : List CarveOut) :
    outstandingAfter w after reply out (.reset label) = out := by
  simp only [outstandingAfter, hl]

end Session

/-! ## One step -/

namespace Workspace

variable {H : Type} {w w' : Workspace H} {issued out : List CarveOut}

/-- The carvers, the blocks that pools keep and what clients have. -/
structure Accounted (w : Workspace H) (issued out : List CarveOut) : Prop where
  estate : Estate w.tracker w.carvers issued out w.pooled
  backed : Backed w.carvers out

theorem not_mem_backing {id : Nat} : id ∉ w.backing ↔ ∀ c ∈ w.carvers, id ∉ c.backing := by
  simp [backing]

namespace Accounted

/-- Something returns blocks that are not behind a carver, and pools keep no others. -/
theorem elsewhere (h : w.Accounted issued out) {t : Tracker H} {ids : List Nat}
    {pools : List (String × Pool)} (hturn : Tracker.Turnover w.tracker t ids [])
    (hids : ∀ id ∈ ids, id ∉ w.backing)
    (hkept : ∀ p ∈ pools, ∀ id ∈ p.2.kept,
      id ∈ w.pooled ∨ id < w.tracker.nextId ∧ id ∉ w.backing) :
    Accounted { w with tracker := t, pools } issued out := by
  refine ⟨?_, h.backed⟩
  refine (h.estate.elsewhere hturn fun id hid => not_mem_backing.mp (hids id hid)).with_others ?_
  intro id hid
  obtain ⟨p, hp, hid⟩ := List.mem_flatMap.mp hid
  rcases hkept p hp id hid with hold | ⟨hlt, hnot⟩
  · obtain ⟨hlt, hnot⟩ := h.estate.foreign id hold
    exact ⟨Nat.lt_of_lt_of_le hlt hturn.issued, hnot⟩
  · exact ⟨Nat.lt_of_lt_of_le hlt hturn.issued, not_mem_backing.mp hnot⟩

theorem kept_pools {p : String × Pool} (hp : p ∈ w.pools) {id : Nat} (hid : id ∈ p.2.kept) :
    id ∈ w.pooled :=
  List.mem_flatMap.mpr ⟨p, hp, hid⟩

theorem pooled_not_mem (h : w.Accounted issued out) {id : Nat} (hid : id ∈ w.pooled) :
    id ∉ w.backing :=
  not_mem_backing.mpr (h.estate.foreign id hid).2

/-- A request to the tracker. -/
theorem onTracker {α : Type} (h : w.Accounted issued out) {o : Outcome α (Tracker H)} {ids : List Nat}
    (hturn : Tracker.Turnover w.tracker o.2 ids []) (hids : ∀ id ∈ ids, id ∉ w.backing)
    (reply : α → Reply) : (w.onTracker reply o).2.Accounted issued out := by
  have hstill := h.elsewhere hturn hids fun p hp id hid => .inl (kept_pools hp hid)
  obtain ⟨_ | _, _⟩ := o <;> exact hstill

/-- A request to a pool, which keeps blocks that it had or that are not behind a carver. -/
theorem onPool {α : Type} (h : w.Accounted issued out) {label : String}
    {act : Pool → Tracker H → Outcome α (Pool × Tracker H)} (reply : α → Reply)
    (hact : ∀ pool, (∀ id ∈ pool.kept, id ∈ w.pooled) →
      ∃ ids, Tracker.Turnover w.tracker (act pool w.tracker).2.2 ids [] ∧
        (∀ id ∈ ids, id ∉ w.backing) ∧
        ∀ id ∈ (act pool w.tracker).2.1.kept,
          id ∈ w.pooled ∨ id < w.tracker.nextId ∧ id ∉ w.backing) :
    (w.onPool label reply act).2.Accounted issued out := by
  unfold Workspace.onPool
  split
  · exact h
  · next pool hl =>
    obtain ⟨ids, hturn, hids, hkept⟩ := hact pool fun id hid => kept_pools (mem_of_lookup hl) hid
    refine h.elsewhere hturn hids (List.forall_mem_cons.mpr ⟨hkept, fun p hp id hid => .inl ?_⟩)
    exact kept_pools (List.mem_filter.mp hp).1 hid

/-- A request to a carver changes one of a list of carvers. -/
theorem onCarver {α : Type} (h : w.Accounted issued out) (hd : w.Distinct) {label : String}
    {act : Carver → Tracker H → Outcome α (Carver × Tracker H)} (reply : α → Reply)
    {issued' out' : List CarveOut}
    (hnone : w.carver? label = none → issued' = issued ∧ out' = out)
    (hact : ∀ c rest, w.carver? label = some c →
      Estate w.tracker (c :: rest) issued out w.pooled → Backed (c :: rest) out →
      Estate (act c w.tracker).2.2 ((act c w.tracker).2.1 :: rest) issued' out' w.pooled ∧
        Backed ((act c w.tracker).2.1 :: rest) out') :
    (w.onCarver label reply act).2.Accounted issued' out' := by
  unfold Workspace.onCarver
  split
  · next hl =>
    obtain ⟨rfl, rfl⟩ := hnone hl
    exact h
  · next c hl =>
    obtain ⟨rest, hp, hset⟩ := hd.perm_setCarver hl
    obtain ⟨hestate, hbacked⟩ := hact c rest hl (h.estate.perm hp) (h.backed.perm hp)
    let w' := { w with tracker := (act c w.tracker).2.2 }.setCarver label (act c w.tracker).2.1
    have hback := (hset (act c w.tracker).2.2 (act c w.tracker).2.1).symm
    have htracker : w'.tracker = (act c w.tracker).2.2 := setCarver_tracker ..
    have hpools : w'.pooled = w.pooled := by
      simp only [w', setCarver]
      split <;> rfl
    show w'.Accounted issued' out'
    refine ⟨?_, hbacked.perm hback⟩
    rw [htracker, hpools]
    exact hestate.perm hback

/-- Carvers were put under labels or let go of, and clients have nothing more of those that are gone. -/
theorem of_estate (h : Estate w.tracker w.carvers issued out w.pooled) :
    w.Accounted issued (out.filter fun c => c.block.id ∈ w.backing) where
  estate := h.sublist List.filter_sublist
  backed _ hc := of_decide_eq_true (List.mem_filter.mp hc).2

variable [Heap H]

theorem carve (h : w.Accounted issued out) (hd : w.Distinct) (hn : w.tracker.Numbered) (label : String)
    (size : Nat) :
    (w.perform (.carve label size)).2.Accounted
      (Session.granted (w.perform (.carve label size)).1 ++ issued)
      (Session.granted (w.perform (.carve label size)).1 ++ out) := by
  refine h.onCarver hd _ (fun hnone => ?_) fun c rest hl hestate hbacked => ?_
  · rw [Session.granted_carve_of_none hnone]
    exact ⟨rfl, rfl⟩
  · rw [Session.granted_carve hl, Session.granted_carve hl]
    have hn' := (c.steps_allocate w.tracker size).numbered hn
    obtain ⟨he, hb⟩ := hestate.allocate hn size hn'
    exact ⟨he, hb hbacked⟩

theorem giveBack (h : w.Accounted issued out) (hd : w.Distinct) (hn : w.tracker.Numbered) (label : String)
    {handle : CarveOut} (hi : handle ∈ issued) :
    (w.perform (.giveBack label handle)).2.Accounted issued
      (Session.outstandingAfter w (w.perform (.giveBack label handle)).2
        (w.perform (.giveBack label handle)).1 out (.giveBack label handle)) := by
  refine h.onCarver hd _ (fun hnone => ?_) fun c rest hl hestate hbacked => ?_
  · refine ⟨rfl, ?_⟩
    simp only [Session.outstandingAfter, hnone]
  · rw [Session.outstandingAfter_giveBack hl]
    obtain ⟨he, hb⟩ := hestate.release hn hi
    rw [c.release_tracker w.tracker handle]
    exact ⟨he, hb hbacked⟩

theorem reset (h : w.Accounted issued out) (hd : w.Distinct) (hn : w.tracker.Numbered) (label : String) :
    (w.perform (.reset label)).2.Accounted issued
      (Session.outstandingAfter w (w.perform (.reset label)).2 (w.perform (.reset label)).1 out
        (.reset label)) := by
  refine h.onCarver hd _ (fun hnone => ?_) fun c rest hl hestate hbacked => ?_
  · exact ⟨rfl, Session.outstandingAfter_reset_of_none hnone _ _⟩
  · rw [Session.outstandingAfter_reset hl _ (hestate.sound c List.mem_cons_self).reset_ok]
    obtain ⟨he, hb⟩ := hestate.reset hn
    exact ⟨he, hb hbacked⟩

theorem acquire (h : w.Accounted issued out) (label : String) :
    (w.perform (.acquire label)).2.Accounted issued out :=
  h.onPool _ fun pool hpool =>
    ⟨[], pool.turnover_acquire w.tracker, by simp, fun id hid => .inl (hpool id (Pool.kept_acquire hid))⟩

theorem release (h : w.Accounted issued out) (hn : w.tracker.Numbered) (label : String) {handle : Block}
    (hh : handle.id ∉ w.backing) :
    (w.perform (.release label handle)).2.Accounted issued out := by
  refine h.onPool _ fun pool hpool =>
    ⟨[handle.id], pool.turnover_release w.tracker handle, by simpa using hh, fun id hid => ?_⟩
  rcases Pool.kept_release hn hid with hid | ⟨rfl, hlt⟩
  · exact .inl (hpool id hid)
  · exact .inr ⟨hlt, hh⟩

theorem clear (h : w.Accounted issued out) (label : String) :
    (w.perform (.clear label)).2.Accounted issued out :=
  h.onPool _ fun pool hpool =>
    ⟨pool.kept, pool.turnover_clear w.tracker, fun id hid => h.pooled_not_mem (hpool id hid),
      fun _ hid => absurd hid List.not_mem_nil⟩

/-- A pool that is done with returns what it kept. -/
theorem disposed (h : w.Accounted issued out) {label : String} {pool : Pool}
    (hl : w.pools.lookup label = some pool) {pools : List (String × Pool)}
    (hkept : ∀ p ∈ pools, ∀ id ∈ p.2.kept, id ∈ w.pooled) :
    Accounted { w with tracker := pool.dispose w.tracker, pools } issued out := by
  refine h.elsewhere (pool.turnover_clear w.tracker) (fun id hid => ?_) fun p hp id hid =>
    .inl (hkept p hp id hid)
  exact h.pooled_not_mem (kept_pools (mem_of_lookup hl) hid)

theorem holdPool (h : w.Accounted issued out) (label : String) {pool : Pool} (hnew : pool.kept = []) :
    (w.holdPool label pool).Accounted issued out := by
  have hkept : ∀ p ∈ relabel w.pools label pool, ∀ id ∈ p.2.kept, id ∈ w.pooled := by
    refine List.forall_mem_cons.mpr ⟨by simp [hnew], fun p hp id hid => ?_⟩
    exact kept_pools (List.mem_filter.mp hp).1 hid
  cases hl : w.pools.lookup label with
  | none =>
    simp only [Workspace.holdPool, hl]
    exact h.elsewhere (.refl _ _) (by simp) fun p hp id hid => .inl (hkept p hp id hid)
  | some old =>
    simp only [Workspace.holdPool, hl]
    exact h.disposed hl hkept

theorem dropPool (h : w.Accounted issued out) (label : String) :
    (w.dropPool label).Accounted issued out := by
  unfold Workspace.dropPool
  split
  · exact h
  · next pool hl => exact h.disposed hl fun p hp id hid => kept_pools (List.mem_filter.mp hp).1 hid

omit [Heap H] in
/-- Carvers were put under labels, let go of or shut down, pools apart. -/
theorem rearranged {out' : List CarveOut} (hp : w'.pools = w.pools)
    (h : Estate w'.tracker w'.carvers issued out' w.pooled) :
    w'.Accounted issued (out'.filter fun c => c.block.id ∈ w'.backing) := by
  refine of_estate ?_
  rwa [pooled, hp]

end Accounted

variable [Heap H]

/-- A request that is allowed leaves everything accounted for. -/
theorem Accounted.perform (h : w.Accounted issued out) (hd : w.Distinct) (hn : w.tracker.Numbered)
    {request : Request}
    (hh : ∀ id ∈ Session.handed w request, id ∉ w.backing)
    (hg : ∀ c ∈ Session.givenBack request, c ∈ issued) :
    (w.perform request).2.Accounted
      (Session.issuedAfter (w.perform request).1 issued request)
      (Session.outstandingAfter w (w.perform request).2 (w.perform request).1 out request) := by
  have hnone : ∀ id ∈ ([] : List Nat), id ∉ w.backing := by simp
  cases request
  case wait n =>
    exact h.elsewhere (w.tracker.turnover_advance n) hnone fun p hp id hid =>
      .inl (kept_pools hp hid)
  case allocate => exact h.onTracker (w.tracker.turnover_allocate ..) hnone _
  case free => exact h.onTracker (w.tracker.turnover_free _) hh _
  case reallocate => exact h.onTracker (w.tracker.turnover_reallocate ..) hh _
  case fill => exact h.onTracker (w.tracker.turnover_fill ..) hnone _
  case write => exact h.onTracker (w.tracker.turnover_write ..) hnone _
  case copy => exact h.onTracker (w.tracker.turnover_copy ..) hnone _
  case freeAll =>
    exact h.elsewhere w.tracker.turnover_freeAll hh fun p hp id hid => .inl (kept_pools hp hid)
  case read =>
    simp only [Workspace.perform, answer_tracker]
    exact h
  case compare =>
    simp only [Workspace.perform, answer_tracker]
    exact h
  case makePool label blockSize alignment limit =>
    simp only [Workspace.perform]
    split
    · exact h
    · next pool hm => exact h.holdPool label (Pool.kept_of_make hm)
  case acquire label => exact h.acquire label
  case release label handle => exact h.release hn label (hh _ (List.mem_singleton_self _))
  case clear label => exact h.clear label
  case poolStats label =>
    exact h.onPool _ fun pool hpool =>
      ⟨[], .refl _ _, hnone, fun id hid => .inl (hpool id hid)⟩
  case dropPool label => exact h.dropPool label
  case build label strategy total alignment =>
    exact .rearranged (w.pools_build ..) ((Estate.upkeep ..).build hn hd h.estate ..)
  case get label name strategy total alignment =>
    exact .rearranged (w.pools_get ..) ((Estate.upkeep ..).get hn hd h.estate ..)
  case carve label size => exact h.carve hd hn label size
  case giveBack label handle => exact h.giveBack hd hn label (hg _ (List.mem_singleton_self _))
  case reset label => exact h.reset hd hn label
  case carverStats label =>
    exact h.onCarver hd _ (fun _ => ⟨rfl, rfl⟩) fun c rest _ he hb => ⟨he, hb⟩
  case letGo label => exact .rearranged (w.pools_letGo label) ((Estate.upkeep ..).letGo hd h.estate label)
  case remove name label => exact .rearranged (w.pools_remove ..) ((Estate.upkeep ..).remove hd h.estate ..)
  case shutdown =>
    have hpools : w.shutdown.2.pools = w.pools := rfl
    exact .rearranged hpools ((Estate.upkeep ..).shutdown hn hd h.estate)
  all_goals exact h

end Workspace

/-! ## Runs -/

namespace Session

open LawfulHeap (Granted)

variable {H : Type} [Heap H]

/-- The session of a heap that has granted nothing yet. -/
def opened (heap : H) (budget : Option Nat) (alignment : Alignment) : Session H where
  workspace := .opened heap budget alignment

/-- Ids, labels and serial numbers are distinct, and everything is accounted for. -/
structure InOrder (s : Session H) : Prop where
  numbered : s.workspace.tracker.Numbered
  distinct : s.workspace.Distinct
  accounted : s.workspace.Accounted s.issued s.outstanding

namespace InOrder

variable {s : Session H}

omit [Heap H] in
theorem opened (heap : H) (budget : Option Nat) (alignment : Alignment) :
    (opened heap budget alignment).InOrder where
  numbered := Tracker.numbered_ofHeap heap budget
  distinct := ⟨List.nodup_nil, List.nodup_nil, fun _ ha => absurd ha List.not_mem_nil⟩
  accounted := ⟨.nil _, fun _ hc => absurd hc List.not_mem_nil⟩

theorem perform (h : s.InOrder) {request : Request} (ha : s.Allows request) :
    (s.perform request).InOrder where
  numbered := (s.workspace.steps_perform request).numbered h.numbered
  distinct := h.distinct.perform request
  accounted := h.accounted.perform h.distinct h.numbered ha.1 ha.2

theorem run (h : s.InOrder) {requests : List Request} (hd : s.Disciplined requests) :
    (s.run requests).InOrder := by
  induction requests generalizing s with
  | nil => exact h
  | cons request requests ih => exact ih (h.perform hd.1) hd.2

end InOrder

variable [LawfulHeap H]

/-- The tracker is well formed, labels and serial numbers are distinct, and everything is accounted for. -/
structure Sound (s : Session H) : Prop where
  wellFormed : s.workspace.tracker.WellFormed
  distinct : s.workspace.Distinct
  accounted : s.workspace.Accounted s.issued s.outstanding

namespace Sound

variable {s : Session H}

theorem opened {heap : H} (hs : LawfulHeap.Sound heap) (hg : ∀ e, ¬ Granted heap e)
    (budget : Option Nat) (alignment : Alignment) : (opened heap budget alignment).Sound where
  wellFormed := Tracker.wellFormed_ofHeap hs hg
  distinct := (InOrder.opened heap budget alignment).distinct
  accounted := (InOrder.opened heap budget alignment).accounted

theorem perform (h : s.Sound) {request : Request} (ha : s.Allows request) :
    (s.perform request).Sound where
  wellFormed := (s.workspace.steps_perform request).wellFormed h.wellFormed
  distinct := h.distinct.perform request
  accounted := h.accounted.perform h.distinct h.wellFormed.numbered ha.1 ha.2

theorem run (h : s.Sound) {requests : List Request} (hd : s.Disciplined requests) :
    (s.run requests).Sound := by
  induction requests generalizing s with
  | nil => exact h
  | cons request requests ih => exact ih (h.perform hd.1) hd.2

end Sound

/-- In every disciplined run, what clients have is in live blocks, and no byte of it is with two of them or in
a live block that is not behind a carver. Nor do two of those blocks share a byte. -/
theorem run_exclusive {heap : H} (hs : LawfulHeap.Sound heap) (hg : ∀ e, ¬ Granted heap e)
    (budget : Option Nat) (alignment : Alignment) (requests : List Request)
    (hd : (opened heap budget alignment).Disciplined requests) :
    let s := (opened heap budget alignment).run requests
    (∀ c ∈ s.outstanding, c.block ∈ s.workspace.tracker.blocks ∧
        c.offset + c.grantedSize ≤ c.block.requestedSize ∧ c.requestedSize ≤ c.grantedSize) ∧
      (s.outstanding.map CarveOut.range ++ s.workspace.clientBlocks.map Block.usable).Pairwise
        Extent.Apart := by
  intro s
  have h : s.Sound := (Sound.opened hs hg budget alignment).run hd
  refine ⟨fun c hc => ?_, ?_⟩
  · exact h.accounted.estate.fits hc (h.accounted.backed c hc)
  · exact h.accounted.estate.ranges_apart h.wellFormed.layout h.accounted.backed

/-- All strategies over one tracker, with a range that is given back, a reset, a pool and a block of a client's
own. -/
theorem run_exclusive_mixed :
    let twenty : CarveOut :=
      { block := .place 1 65537 128 135 .word 0, offset := 0, grantedSize := 32, requestedSize := 20 }
    let requests : List Request :=
      [.build "buddy" .buddy 100 .word, .build "slab" .slab 256 .byte, .build "arena" .arena 64 .word,
        .build "ring" .ringBuffer 32 .byte, .build "objects" .objectPool 100 .byte,
        .get "hybrid" "shared" .hybrid 400000 none, .carve "buddy" 20, .carve "slab" 16,
        .carve "arena" 24, .carve "arena" 48, .carve "ring" 10, .carve "objects" 12,
        .carve "hybrid" 2000, .giveBack "buddy" twenty, .carve "buddy" 5, .giveBack "arena" twenty,
        .reset "arena", .makePool "pool" 8 .byte 2, .acquire "pool",
        .release "pool" (.place 9 0 8 0 .byte 0), .allocate 40 .page]
    let s := (opened (BumpHeap.ofPlan { base := 65537 }) none .byte).run requests
    (s.outstanding.map fun c => (c.block.id, c.offset, c.grantedSize)) =
        [(1, 0, 8), (4, 0, 2048), (8, 0, 12), (3, 0, 10), (6, 0, 16)] ∧
      s.workspace.clientBlocks.map Block.id = [9, 10] ∧
      (s.outstanding.map CarveOut.range ++ s.workspace.clientBlocks.map Block.usable).Pairwise
        Extent.Apart := by
  intro twenty requests s
  have hs : LawfulHeap.Sound (BumpHeap.ofPlan { base := 65537 }) :=
    BumpHeap.orderly_ofPlan rfl (by decide)
  have hg : ∀ e, ¬ Granted (BumpHeap.ofPlan { base := 65537 }) e := fun _ => List.not_mem_nil
  have hd : (opened (BumpHeap.ofPlan { base := 65537 }) none .byte).Disciplined requests := by
    decide +kernel
  have h := run_exclusive hs hg none .byte requests hd
  exact ⟨by decide +kernel, by decide +kernel, h.2⟩

end Session

end TrackedHeap
