import TrackedHeap.Proofs.Workspace.Estate

/-!
# What holds of all pools and all carvers

A workspace comes by pools and carvers by making them, and does with them what is asked of one. So what holds
of every new one and is kept by each of its operations holds of all that a workspace has, whatever is asked of
it (`Workspace.forall_pools_perform`, `Workspace.forall_carvers_perform`): under which label one is held, who
shares it and when it is done with does not matter.

Where it does matter which carver is which, each has a seat of its own (`Workspace.seats`), the label of the
client who has it alone or the serial number of its allocator. A property may then speak of the seat too
(`Workspace.throughout_perform`).
-/

namespace TrackedHeap

variable {H : Type}

/-- What holds of new pools, and is kept by what a pool does over a tracker. -/
structure Pool.Invariant [Heap H] (t : Tracker H) (P : Pool → Prop) : Prop where
  make {blockSize limit : Nat} {alignment : Alignment} {p : Pool} :
    make blockSize alignment limit = .ok p → P p
  acquire {p : Pool} : P p → P (p.acquire t).2.1
  release {p : Pool} (handle : Block) : P p → P (p.release t handle).2.1
  clear {p : Pool} : P p → P (p.clear t).2.1

/-- What holds of new carvers, and is kept by what a carver does over a tracker; by a reset, over any. -/
structure Carver.Invariant [Heap H] (t : Tracker H) (P : Carver → Prop) : Prop where
  build {t' : Tracker H} {strategy : Strategy} {total : Nat} {alignment : Alignment} {c : Carver} :
    build t strategy total alignment = (.ok c, t') → P c
  allocate {c : Carver} (size : Nat) : P c → P (c.allocate t size).2.1
  release {c : Carver} (handle : CarveOut) : P c → P (c.release t handle).2.1
  reset {c : Carver} (t' : Tracker H) : P c → P (c.reset t').2.1

/-- Where a carver is. -/
inductive Seat where
  /-- With the client who has it alone, under a label. -/
  | own (label : String)
  /-- In the allocator of a serial number. -/
  | shared (serial : Nat)
deriving DecidableEq

/-- The seat of what is held under a label. -/
def Holding.seat (label : String) : Holding → Seat
  | .own _ => .own label
  | .shared serial => .shared serial

theorem Holding.own?_eq_some {holding : Holding} {c : Carver} :
    holding.own? = some c ↔ holding = .own c := by
  cases holding <;> simp [own?]

namespace Workspace

variable {w : Workspace H} {label : String}

/-! ## Pools -/

section

variable {P : Pool → Prop}

theorem pools_onTracker {α : Type} (w : Workspace H) (reply : α → Reply) (o : Outcome α (Tracker H)) :
    (w.onTracker reply o).2.pools = w.pools := by
  obtain ⟨_ | _, _⟩ := o <;> rfl

theorem pools_onCarver {α : Type} (w : Workspace H) (label : String) (reply : α → Reply)
    (act : Carver → Tracker H → Outcome α (Carver × Tracker H)) :
    (w.onCarver label reply act).2.pools = w.pools := by
  unfold onCarver
  split
  · rfl
  · simp only [setCarver]
    split <;> rfl

theorem forall_relabel {pools : List (String × Pool)} (h : ∀ x ∈ pools, P x.2) {p : Pool} (hp : P p) :
    ∀ x ∈ relabel pools label p, P x.2 := by
  intro x hx
  rcases List.mem_cons.mp hx with rfl | hx
  · exact hp
  · exact h x (List.mem_filter.mp hx).1

theorem forall_pools_onPool {α : Type} {act : Pool → Tracker H → Outcome α (Pool × Tracker H)}
    (hact : ∀ {p}, P p → P (act p w.tracker).2.1) (h : ∀ x ∈ w.pools, P x.2) (label : String)
    (reply : α → Reply) : ∀ x ∈ (w.onPool label reply act).2.pools, P x.2 := by
  unfold onPool
  split
  · exact h
  · next p hl => exact forall_relabel h (hact (h _ (mem_of_lookup hl)))

/-- What holds of every pool holds of every pool after a request. -/
theorem forall_pools_perform [Heap H] (hP : Pool.Invariant w.tracker P) (h : ∀ x ∈ w.pools, P x.2)
    (request : Request) : ∀ x ∈ (w.perform request).2.pools, P x.2 := by
  cases request <;>
    simp only [perform, pools_onTracker, pools_onCarver, answer_tracker, pools_build, pools_get,
      pools_remove, pools_letGo]
  case makePool label blockSize alignment limit =>
    split
    · exact h
    · next p hm => exact forall_relabel h (hP.make hm)
  case acquire label => exact forall_pools_onPool hP.acquire h label _
  case release label handle => exact forall_pools_onPool (hP.release handle) h label _
  case clear label => exact forall_pools_onPool hP.clear h label _
  case poolStats label => exact forall_pools_onPool id h label _
  case dropPool label =>
    unfold dropPool
    split
    · exact h
    · exact fun x hx => h x (List.mem_filter.mp hx).1
  all_goals exact h

end

/-! ## Carvers -/

/-- The carvers, each at its seat. -/
def seats (w : Workspace H) : List (Seat × Carver) :=
  (w.holdings.filterMap fun x => x.2.own?.map fun c => (.own x.1, c)) ++
    w.registry.allocators.map fun a => (.shared a.serial, a.carver)

/-- The seat of what a label holds. -/
def seat? (w : Workspace H) (label : String) : Option Seat :=
  (w.holdings.lookup label).map (Holding.seat label)

theorem map_seats (w : Workspace H) : w.seats.map Prod.snd = w.carvers := by
  rw [seats, List.map_append, List.map_filterMap, List.map_map]
  simp only [Option.map_map, Function.comp_def, Option.map_id']
  rfl

theorem mem_carvers {c : Carver} : c ∈ w.carvers ↔ ∃ seat, (seat, c) ∈ w.seats := by
  rw [← map_seats, List.mem_map]
  exact ⟨fun ⟨x, hx, he⟩ => ⟨x.1, he ▸ hx⟩, fun ⟨seat, hs⟩ => ⟨_, hs, rfl⟩⟩

/-- Every carver that a client has alone and every one of an allocator has the property. -/
structure Throughout (w : Workspace H) (P : Seat → Carver → Prop) : Prop where
  own : ∀ x ∈ w.holdings, ∀ c, x.2 = .own c → P (.own x.1) c
  shared : ∀ a ∈ w.registry.allocators, P (.shared a.serial) a.carver

variable {P : Seat → Carver → Prop}

theorem throughout_iff : w.Throughout P ↔ ∀ x ∈ w.seats, P x.1 x.2 := by
  constructor
  · intro h x hx
    rcases List.mem_append.mp hx with hx | hx
    · obtain ⟨p, hp, hown⟩ := List.mem_filterMap.mp hx
      obtain ⟨c, hc, rfl⟩ := Option.map_eq_some_iff.mp hown
      exact h.own p hp c (Holding.own?_eq_some.mp hc)
    · obtain ⟨a, ha, rfl⟩ := List.mem_map.mp hx
      exact h.shared a ha
  · intro h
    refine ⟨fun p hp c hown => h (.own p.1, c) (List.mem_append_left _ ?_), fun a ha => ?_⟩
    · refine List.mem_filterMap.mpr ⟨p, hp, ?_⟩
      rw [Holding.own?_eq_some.mpr hown]
      rfl
    · exact h (.shared a.serial, a.carver) (List.mem_append_right _ (List.mem_map_of_mem ha))

theorem throughout_seats (w : Workspace H) : w.Throughout fun seat c => (seat, c) ∈ w.seats :=
  throughout_iff.mpr fun _ hx => hx

namespace Throughout

/-- The carver under a label is at the seat of the label. -/
theorem carver (h : w.Throughout P) {c : Carver} (hc : w.carver? label = some c) :
    ∃ seat, w.seat? label = some seat ∧ P seat c := by
  unfold carver? at hc
  split at hc
  · next own hl =>
    cases hc
    exact ⟨.own label, congrArg (Option.map _) hl, h.own _ (mem_of_lookup hl) _ rfl⟩
  · next serial hl =>
    obtain ⟨a, hfind, rfl⟩ := Option.map_eq_some_iff.mp hc
    obtain ⟨ha, rfl⟩ := Registry.find?_eq_some hfind
    exact ⟨.shared a.serial, congrArg (Option.map _) hl, h.shared a ha⟩
  · cases hc

theorem with_tracker (h : w.Throughout P) (t : Tracker H) : Throughout { w with tracker := t } P :=
  ⟨h.own, h.shared⟩

/-- Fewer things are held. -/
theorem unlabel (h : w.Throughout P) (label : String) :
    Throughout { w with holdings := unlabel w.holdings label } P :=
  ⟨fun x hx => h.own x (List.mem_filter.mp hx).1, h.shared⟩

theorem relabel (h : w.Throughout P) (label : String) {holding : Holding}
    (hn : ∀ c, holding = .own c → P (.own label) c) :
    Throughout { w with holdings := relabel w.holdings label holding } P := by
  refine ⟨fun x hx => ?_, h.shared⟩
  rcases List.mem_cons.mp hx with rfl | hx
  · exact hn
  · exact h.own x (List.mem_filter.mp hx).1

theorem setCarver (h : w.Throughout P) {c : Carver} {seat : Seat} (hs : w.seat? label = some seat)
    (hc : P seat c) : (w.setCarver label c).Throughout P := by
  unfold Workspace.setCarver
  split
  · next own hl =>
    cases hs.symm.trans (congrArg (Option.map _) hl)
    exact h.relabel label fun d hd => Holding.own.inj hd ▸ hc
  · next serial hl =>
    cases hs.symm.trans (congrArg (Option.map _) hl)
    refine ⟨h.own, fun a ha => ?_⟩
    obtain ⟨b, hb, rfl⟩ := List.mem_map.mp ha
    split
    · next he => exact he ▸ hc
    · exact h.shared b hb
  · exact h

theorem onCarver {α : Type} {act : Carver → Tracker H → Outcome α (Carver × Tracker H)}
    (hact : ∀ {seat c}, P seat c → P seat (act c w.tracker).2.1) (h : w.Throughout P) (label : String)
    (reply : α → Reply) : (w.onCarver label reply act).2.Throughout P := by
  unfold Workspace.onCarver
  split
  · exact h
  · next c hc =>
    obtain ⟨seat, hs, hP⟩ := h.carver hc
    exact (h.with_tracker _).setCarver hs (hact hP)

theorem onTracker {α : Type} (h : w.Throughout P) (reply : α → Reply) (o : Outcome α (Tracker H)) :
    (w.onTracker reply o).2.Throughout P := by
  obtain ⟨_ | _, _⟩ := o <;> exact ⟨h.own, h.shared⟩

theorem onPool {α : Type} (h : w.Throughout P) (label : String) (reply : α → Reply)
    (act : Pool → Tracker H → Outcome α (Pool × Tracker H)) :
    (w.onPool label reply act).2.Throughout P := by
  unfold Workspace.onPool
  split <;> exact ⟨h.own, h.shared⟩

variable [Heap H]

theorem settle (h : w.Throughout P) : w.settle.Throughout P := by
  unfold Workspace.settle Registry.sweep
  rw [List.partition_eq_filter_filter]
  exact ⟨h.own, fun a ha => h.shared a (List.mem_filter.mp ha).1⟩

theorem endHolding (h : w.Throughout P) (holding : Holding) : (w.endHolding holding).Throughout P := by
  cases holding <;> exact ⟨h.own, h.shared⟩

theorem letGo (h : w.Throughout P) (label : String) : (w.letGo label).Throughout P := by
  unfold Workspace.letGo
  split
  · exact h
  · exact ((h.unlabel label).endHolding _).settle

theorem hold (h : w.Throughout P) (label : String) {holding : Holding}
    (hn : ∀ c, holding = .own c → P (.own label) c) : (w.hold label holding).Throughout P := by
  unfold Workspace.hold
  simp only
  split
  · exact h.relabel label hn
  · exact ((h.relabel label hn).endHolding _).settle

theorem build (h : w.Throughout P) (hP : ∀ seat, Carver.Invariant w.tracker (P seat)) (label : String)
    (strategy : Strategy) (total : Nat) (alignment : Alignment) :
    (w.build label strategy total alignment).2.Throughout P := by
  unfold Workspace.build
  split
  · exact h.with_tracker _
  · next c t' hb => exact (h.with_tracker t').hold label fun d hd =>
      Holding.own.inj hd ▸ (hP (.own label)).build hb

theorem get (h : w.Throughout P) (hP : ∀ seat, Carver.Invariant w.tracker (P seat)) (label name : String)
    (strategy : Strategy) (total : Nat) (alignment : Option Alignment) :
    (w.get label name strategy total alignment).2.Throughout P := by
  have hget : ∀ a ∈ (w.registry.get w.tracker name strategy total
      (alignment.getD w.registry.alignment)).2.1.allocators, P (.shared a.serial) a.carver := by
    generalize alignment.getD w.registry.alignment = alignment
    fun_cases Registry.get w.registry w.tracker name strategy total alignment
    case case4 c t' hb new =>
      intro a ha
      rcases List.mem_append.mp ha with ha | ha
      · exact h.shared a ha
      · rw [List.mem_singleton.mp ha]
        exact (hP _).build hb
    all_goals exact h.shared
  unfold Workspace.get
  split
  · next hr =>
    rw [hr] at hget
    exact ⟨h.own, hget⟩
  · next a r t' hr =>
    rw [hr] at hget
    have hmore : Throughout { w with registry := r, tracker := t' } P := ⟨h.own, hget⟩
    exact hmore.hold label fun c hc => by cases hc

theorem remove (h : w.Throughout P) (name : String) (label : Option String) :
    (w.remove name label).2.Throughout P := by
  have hremoved : Throughout { w with registry := w.registry.remove name } P := by
    refine ⟨h.own, fun a ha => ?_⟩
    obtain ⟨b, hb, rfl⟩ := List.mem_map.mp ha
    split <;> exact h.shared b hb
  unfold Workspace.remove
  split
  · exact h
  · cases label with
    | none => exact hremoved.settle
    | some label => exact hremoved.hold label fun c hc => by cases hc

theorem resetAll {t : Tracker H} {r : Registry} (hP : ∀ seat, Carver.Invariant t (P seat))
    (h : ∀ a ∈ r.allocators, P (.shared a.serial) a.carver) (t' : Tracker H) (serials : List Nat) :
    ∀ a ∈ (r.resetAll t' serials).1.allocators, P (.shared a.serial) a.carver := by
  induction serials generalizing r t' with
  | nil => exact h
  | cons serial serials ih =>
    simp only [Registry.resetAll, List.foldl_cons]
    split
    · exact ih h t'
    · next a hfind =>
      obtain ⟨ha, rfl⟩ := Registry.find?_eq_some hfind
      refine ih (fun b hb => ?_) _
      obtain ⟨c, hc, rfl⟩ := List.mem_map.mp hb
      split
      · next he => exact he ▸ (hP _).reset t' (h a ha)
      · exact h c hc

theorem shutdown (h : w.Throughout P) {t : Tracker H} (hP : ∀ seat, Carver.Invariant t (P seat)) :
    w.shutdown.2.Throughout P := by
  have hreset := resetAll hP h.shared w.tracker (w.registry.registered.map Allocator.serial)
  have hfreed : Throughout { w with
      registry := (w.registry.shutdown w.tracker).2.1
      tracker := (w.registry.shutdown w.tracker).2.2 } P := by
    refine ⟨h.own, fun a ha => ?_⟩
    obtain ⟨b, hb, rfl⟩ := List.mem_map.mp ha
    exact hreset b hb
  exact hfreed.settle

end Throughout

/-- What holds of every carver at its seat holds of every carver at its seat after a request. -/
theorem throughout_perform [Heap H] (hP : ∀ seat, Carver.Invariant w.tracker (P seat)) (h : w.Throughout P)
    (request : Request) : (w.perform request).2.Throughout P := by
  cases request <;> simp only [perform, answer_tracker]
  case makePool =>
    split
    · exact h
    · exact ⟨h.own, h.shared⟩
  case dropPool =>
    unfold dropPool
    split <;> exact ⟨h.own, h.shared⟩
  case build => exact h.build hP ..
  case get => exact h.get hP ..
  case carve label size => exact h.onCarver ((hP _).allocate size) label _
  case giveBack label handle => exact h.onCarver ((hP _).release handle) label _
  case reset label => exact h.onCarver ((hP _).reset w.tracker) label _
  case carverStats label => exact h.onCarver id label _
  case letGo => exact h.letGo _
  case remove => exact h.remove ..
  case shutdown => exact h.shutdown hP
  case isLive | lookup | read | compare | report | pressure | blocks | budget | leaks | allocCalls |
      names | sameAllocator => exact h
  case wait | freeAll => exact h.with_tracker _
  case acquire | release | clear | poolStats => exact h.onPool ..
  all_goals exact h.onTracker ..

/-- What holds of every carver holds of every carver after a request. -/
theorem forall_carvers_perform [Heap H] {P : Carver → Prop} (hP : Carver.Invariant w.tracker P)
    (h : ∀ c ∈ w.carvers, P c) (request : Request) : ∀ c ∈ (w.perform request).2.carvers, P c := by
  have hall : w.Throughout fun _ => P := throughout_iff.mpr fun x hx => h x.2 (mem_carvers.mpr ⟨x.1, hx⟩)
  intro c hc
  obtain ⟨seat, hs⟩ := mem_carvers.mp hc
  exact throughout_iff.mp (throughout_perform (fun _ => hP) hall request) _ hs

end Workspace

end TrackedHeap
