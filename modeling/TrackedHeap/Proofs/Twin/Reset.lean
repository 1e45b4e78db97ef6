import TrackedHeap.Heap.Bump
import TrackedHeap.Proofs.Tracker.Stale
import TrackedHeap.Proofs.Twin.Blank
import TrackedHeap.Proofs.Workspace.Steps

/-!
# A carver that was reset, beside a new one

Whatever was done with a carver, after a reset it is a twin of one built anew, and the two stay twins while
clients ask them the same (`Carver.Tandem.matched`). So they cannot be told apart by what they grant, take
back and refuse, as long as their trackers grant both the same (`Carver.Tandem.indistinct`).
-/

namespace TrackedHeap

variable {H : Type} {t t' : Tracker H} {total : Nat} {alignment : Alignment}

/-! ## Lives of a carver -/

namespace Carver

variable [Heap H] {c : Carver}

/-- A carver after whatever was done with it and with its tracker, its blocks apart, which nobody else
touched. -/
inductive Lived (strategy : Strategy) (total : Nat) (alignment : Alignment) : Carver → Tracker H → Prop where
  | built {heap : H} {budget : Option Nat} {t t' : Tracker H} {c : Carver}
    (before : Tracker.Steps (.ofHeap heap budget) t)
    (built : Carver.build t strategy total alignment = (.ok c, t')) : Lived strategy total alignment c t'
  | meanwhile {c : Carver} {t t' : Tracker H} (lived : Lived strategy total alignment c t)
    (steps : Tracker.Steps t t') (keeps : t.Keeps t' c.backing) : Lived strategy total alignment c t'
  | allocate {c : Carver} {t : Tracker H} (lived : Lived strategy total alignment c t) (size : Nat) :
    Lived strategy total alignment (c.allocate t size).2.1 (c.allocate t size).2.2
  | release {c : Carver} {t : Tracker H} (lived : Lived strategy total alignment c t) (handle : CarveOut) :
    Lived strategy total alignment (c.release t handle).2.1 (c.release t handle).2.2
  | reset {c : Carver} {t : Tracker H} (lived : Lived strategy total alignment c t) :
    Lived strategy total alignment (c.reset t).2.1 (c.reset t).2.2

/-- The blocks behind a carver are live, and are its own. -/
structure Kept (c : Carver) (t : Tracker H) : Prop where
  strategy : c.strategy ≠ .objectPool
  numbered : t.Numbered
  sound : ∃ out, c.Sound t out

namespace Kept

theorem of_build {heap : H} {budget : Option Nat} {strategy : Strategy} (hs : strategy ≠ .objectPool)
    (before : Tracker.Steps (.ofHeap heap budget) t)
    (hb : Carver.build t strategy total alignment = (.ok c, t')) : c.Kept t' where
  strategy := strategy_of_build hb ▸ hs
  numbered := by
    have hsteps : Tracker.Steps t t' := by simpa [hb] using steps_build t strategy total alignment
    exact Tracker.Steps.numbered (before.trans hsteps) (Tracker.numbered_ofHeap heap budget)
  sound := ⟨[], (sound_of_build (before.numbered (Tracker.numbered_ofHeap heap budget)) hb).1⟩

theorem meanwhile (h : c.Kept t) (steps : Tracker.Steps t t') (keeps : t.Keeps t' c.backing) : c.Kept t' where
  strategy := h.strategy
  numbered := steps.numbered h.numbered
  sound := h.sound.imp fun _ hs => hs.keeps keeps

theorem allocate (h : c.Kept t) (size : Nat) : (c.allocate t size).2.1.Kept (c.allocate t size).2.2 where
  strategy := (c.strategy_allocate t size).symm ▸ h.strategy
  numbered := (c.steps_allocate t size).numbered h.numbered
  sound := h.sound.elim fun _ hs => ⟨_, (hs.allocate h.numbered size).1⟩

omit [Heap H] in
theorem release (h : c.Kept t) (handle : CarveOut) :
    (c.release t handle).2.1.Kept (c.release t handle).2.2 where
  strategy := (c.strategy_release t handle).symm ▸ h.strategy
  numbered := (c.release_tracker t handle).symm ▸ h.numbered
  sound := h.sound.elim fun _ hs => by
    rw [c.release_tracker t handle]
    exact ⟨_, (hs.release h.numbered fun hp => absurd hp h.strategy).1⟩

theorem reset (h : c.Kept t) : (c.reset t).2.1.Kept (c.reset t).2.2 where
  strategy := (c.strategy_reset t).symm ▸ h.strategy
  numbered := (c.steps_reset t).numbered h.numbered
  sound := h.sound.elim fun _ hs => ⟨_, (hs.reset h.numbered).1⟩

end Kept

/-- What has become of what was built. -/
structure Descends (strategy : Strategy) (total : Nat) (alignment : Alignment) (c : Carver) (t : Tracker H) :
    Prop where
  kept : c.Kept t
  origin : ∃ (built : Carver) (t₀ t₁ : Tracker H),
    Carver.build t₀ strategy total alignment = (.ok built, t₁) ∧ c.blank = built ∧ t₁.nextId ≤ t.nextId

theorem Lived.descends {strategy : Strategy} (hs : strategy ≠ .objectPool)
    (h : Lived strategy total alignment c t) : Descends strategy total alignment c t := by
  induction h with
  | built before hb =>
    exact ⟨.of_build hs before hb, _, _, _, hb, blank_of_build hb, Nat.le_refl _⟩
  | meanwhile lived steps keeps ih =>
    obtain ⟨built, t₀, t₁, hb, hblank, hle⟩ := ih.origin
    exact ⟨ih.kept.meanwhile steps keeps, built, t₀, t₁, hb, hblank, Nat.le_trans hle steps.nextId_le⟩
  | @allocate c t lived size ih =>
    obtain ⟨built, t₀, t₁, hb, hblank, hle⟩ := ih.origin
    exact ⟨ih.kept.allocate size, built, t₀, t₁, hb, (blank_allocate ih.kept.strategy t size).trans hblank,
      Nat.le_trans hle (c.steps_allocate t size).nextId_le⟩
  | @release c t lived handle ih =>
    obtain ⟨built, t₀, t₁, hb, hblank, hle⟩ := ih.origin
    exact ⟨ih.kept.release handle, built, t₀, t₁, hb, (blank_release ih.kept.strategy t handle).trans hblank,
      (c.release_tracker t handle).symm ▸ hle⟩
  | @reset c t lived ih =>
    obtain ⟨built, t₀, t₁, hb, hblank, hle⟩ := ih.origin
    exact ⟨ih.kept.reset, built, t₀, t₁, hb, (blank_reset ih.kept.strategy t).trans hblank,
      Nat.le_trans hle (c.steps_reset t).nextId_le⟩

end Carver

/-! ## Side by side -/

theorem CarveOut.Answers.forall₂_taken {H₁ H₂ : Type} [Heap H₁] [Heap H₂] {t₁ : Tracker H₁} {t₂ : Tracker H₂}
    {pairs : Pairing} {r₁ r₂ : Except MemoryError CarveOut} (h : Answers pairs t₁ t₂ r₁ r₂)
    {out₁ out₂ : List CarveOut} (hout : List.Forall₂ (CarveOut.Like pairs) out₁ out₂) :
    List.Forall₂ (CarveOut.Like pairs) (taken r₁ out₁) (taken r₂ out₂) := by
  cases h with
  | granted like => exact .cons like hout
  | refused e => exact hout
  | passedOn left right => exact hout

/-- A carver, its tracker, and the ranges obtained so far, the newest first. -/
structure Stand (H : Type) where
  carver : Carver
  tracker : Tracker H
  got : List CarveOut := []

namespace Stand

variable [Heap H]

def allocate (s : Stand H) (size : Nat) : Stand H where
  carver := (s.carver.allocate s.tracker size).2.1
  tracker := (s.carver.allocate s.tracker size).2.2
  got := CarveOut.taken (s.carver.allocate s.tracker size).1 s.got

def release (s : Stand H) (handle : CarveOut) : Stand H where
  carver := (s.carver.release s.tracker handle).2.1
  tracker := (s.carver.release s.tracker handle).2.2
  got := s.got

def reset (s : Stand H) : Stand H where
  carver := (s.carver.reset s.tracker).2.1
  tracker := (s.carver.reset s.tracker).2.2
  got := s.got

end Stand

namespace Carver

variable {H₁ H₂ : Type} [Heap H₁] [Heap H₂] {strategy : Strategy}

/-- A carver after a reset and a new one, asked the same, with the ranges that each obtained since. Their
trackers may meanwhile do what they like, apart from the blocks of each, but grant or refuse both the same. -/
inductive Tandem (strategy : Strategy) (total : Nat) (alignment : Alignment) : Stand H₁ → Stand H₂ → Prop where
  | start {c₁ c₂ : Carver} {t₁ : Tracker H₁} {t₂ t₂' : Tracker H₂} {heap : H₂} {budget : Option Nat}
    (lived : Lived strategy total alignment c₁ t₁) (before : Tracker.Steps (.ofHeap heap budget) t₂)
    (built : Carver.build t₂ strategy total alignment = (.ok c₂, t₂')) :
    Tandem strategy total alignment { carver := (c₁.reset t₁).2.1, tracker := (c₁.reset t₁).2.2 }
      { carver := c₂, tracker := t₂' }
  | left {s₁ : Stand H₁} {s₂ : Stand H₂} {t : Tracker H₁} (before : Tandem strategy total alignment s₁ s₂)
    (steps : Tracker.Steps s₁.tracker t) (keeps : s₁.tracker.Keeps t s₁.carver.backing) :
    Tandem strategy total alignment { s₁ with tracker := t } s₂
  | right {s₁ : Stand H₁} {s₂ : Stand H₂} {t : Tracker H₂} (before : Tandem strategy total alignment s₁ s₂)
    (steps : Tracker.Steps s₂.tracker t) (keeps : s₂.tracker.Keeps t s₂.carver.backing) :
    Tandem strategy total alignment s₁ { s₂ with tracker := t }
  | allocate {s₁ : Stand H₁} {s₂ : Stand H₂} (before : Tandem strategy total alignment s₁ s₂) (size : Nat)
    (agree : ∀ request ∈ s₁.carver.asks size, s₁.tracker.Agree s₂.tracker request) :
    Tandem strategy total alignment (s₁.allocate size) (s₂.allocate size)
  | release {s₁ : Stand H₁} {s₂ : Stand H₂} (before : Tandem strategy total alignment s₁ s₂) (i : Nat)
    {c d : CarveOut} (first : s₁.got[i]? = some c) (second : s₂.got[i]? = some d) :
    Tandem strategy total alignment (s₁.release c) (s₂.release d)
  | reset {s₁ : Stand H₁} {s₂ : Stand H₂} (before : Tandem strategy total alignment s₁ s₂) :
    Tandem strategy total alignment s₁.reset s₂.reset

/-- Twins over kept blocks, which have obtained like ranges. -/
structure Matched (pairs : Pairing) (s₁ : Stand H₁) (s₂ : Stand H₂) : Prop where
  between : pairs.Between s₁.tracker s₂.tracker
  twin : s₁.carver.Twin pairs s₂.carver
  got : List.Forall₂ (CarveOut.Like pairs) s₁.got s₂.got
  left : s₁.carver.Kept s₁.tracker
  right : s₂.carver.Kept s₂.tracker

omit [Heap H₁] [Heap H₂] in
/-- Ranges obtained at the same time are alike. -/
theorem Matched.like {pairs : Pairing} {s₁ : Stand H₁} {s₂ : Stand H₂} (h : Matched pairs s₁ s₂) {i : Nat}
    {c d : CarveOut} (hc : s₁.got[i]? = some c) (hd : s₂.got[i]? = some d) : c.Like pairs d := by
  obtain ⟨hi, rfl⟩ := List.getElem?_eq_some_iff.mp hc
  obtain ⟨hj, rfl⟩ := List.getElem?_eq_some_iff.mp hd
  exact h.got.get hi hj

/-- Side by side, the two stay twins. -/
theorem Tandem.matched (hs : strategy ≠ .objectPool) {s₁ : Stand H₁} {s₂ : Stand H₂}
    (h : Tandem strategy total alignment s₁ s₂) : ∃ pairs, Matched pairs s₁ s₂ := by
  induction h with
  | @start c₁ c₂ t₁ t₂ t₂' heap budget lived before built =>
    have hd := lived.descends hs
    obtain ⟨first, t₀, t', hfirst, hblank, hle⟩ := hd.origin
    obtain ⟨pairs, hp, htwin⟩ := twin_of_build hs hfirst built
    obtain ⟨out, hsound⟩ := hd.kept.sound
    refine ⟨pairs, hp.mono ?_ (Nat.le_refl _), ?_, .nil, hd.kept.reset, .of_build hs before built⟩
    · exact Nat.le_trans hle (c₁.steps_reset t₁).nextId_le
    · exact hsound.twin_reset (hblank ▸ htwin)
  | left before steps keeps ih =>
    obtain ⟨pairs, hm⟩ := ih
    exact ⟨pairs, hm.between.mono steps.nextId_le (Nat.le_refl _), hm.twin, hm.got,
      hm.left.meanwhile steps keeps, hm.right⟩
  | right before steps keeps ih =>
    obtain ⟨pairs, hm⟩ := ih
    exact ⟨pairs, hm.between.mono (Nat.le_refl _) steps.nextId_le, hm.twin, hm.got, hm.left,
      hm.right.meanwhile steps keeps⟩
  | allocate before size agree ih =>
    obtain ⟨pairs, hm⟩ := ih
    obtain ⟨more, hstep⟩ := hm.twin.allocate hm.between agree
    have hgot := hm.got.imp fun _ _ hlike => hlike.mono hstep.subset
    refine ⟨more, hstep.between, hstep.twin, ?_, hm.left.allocate size, hm.right.allocate size⟩
    exact hstep.answers.forall₂_taken hgot
  | @release s₁ s₂ before i c d first second ih =>
    obtain ⟨pairs, hm⟩ := ih
    have htwin := (hm.twin.release hm.between (hm.like first second)).2
    refine ⟨pairs, ?_, htwin, hm.got, hm.left.release c, hm.right.release d⟩
    show pairs.Between (s₁.carver.release s₁.tracker c).2.2 (s₂.carver.release s₂.tracker d).2.2
    rw [release_tracker, release_tracker]
    exact hm.between
  | reset before ih =>
    obtain ⟨pairs, hm⟩ := ih
    exact ⟨pairs, hm.between.mono (steps_reset _ _).nextId_le (steps_reset _ _).nextId_le,
      hm.twin.reset _ _, hm.got, hm.left.reset, hm.right.reset⟩

/-- What the two answer next is the same, and so is what clients have of them. -/
structure Indistinct (s₁ : Stand H₁) (s₂ : Stand H₂) : Prop where
  allocated : s₂.carver.stats.allocated = s₁.carver.stats.allocated
  /-- They ask their trackers for the same. -/
  asks : ∀ size, s₂.carver.asks size = s₁.carver.asks size
  allocate : ∀ size, (∀ request ∈ s₁.carver.asks size, s₁.tracker.Agree s₂.tracker request) →
    (∃ pairs, CarveOut.Answers pairs s₁.tracker s₂.tracker (s₁.carver.allocate s₁.tracker size).1
      (s₂.carver.allocate s₂.tracker size).1) ∧
      (s₂.allocate size).carver.stats.allocated = (s₁.allocate size).carver.stats.allocated
  /-- Ranges obtained at the same time come back alike. -/
  release : ∀ (i : Nat) (c d : CarveOut), s₁.got[i]? = some c → s₂.got[i]? = some d →
    CarveOut.Replies (s₁.carver.release s₁.tracker c).1 (s₂.carver.release s₂.tracker d).1 ∧
      (s₂.release d).carver.stats.allocated = (s₁.release c).carver.stats.allocated
  reset : (s₁.carver.reset s₁.tracker).1 = .ok () ∧ (s₂.carver.reset s₂.tracker).1 = .ok () ∧
    s₂.reset.carver.stats.allocated = s₁.reset.carver.stats.allocated

/-- Whatever became of a carver before it was reset, it cannot be told from a new one. -/
theorem Tandem.indistinct (hs : strategy ≠ .objectPool) {s₁ : Stand H₁} {s₂ : Stand H₂}
    (h : Tandem strategy total alignment s₁ s₂) : Indistinct s₁ s₂ := by
  have hallocated {s₁ : Stand H₁} {s₂ : Stand H₂} (h : Tandem strategy total alignment s₁ s₂) :
      s₂.carver.stats.allocated = s₁.carver.stats.allocated :=
    (h.matched hs).elim fun _ hm => hm.twin.allocated_eq
  obtain ⟨pairs, hm⟩ := h.matched hs
  refine ⟨hallocated h, hm.twin.asks_eq, ?_, ?_, ?_, ?_, hallocated h.reset⟩
  · intro size agree
    obtain ⟨more, hstep⟩ := hm.twin.allocate hm.between agree
    exact ⟨⟨more, hstep.answers⟩, hallocated (h.allocate size agree)⟩
  · intro i c d hc hd
    exact ⟨(hm.twin.release hm.between (hm.like hc hd)).1, hallocated (h.release i hc hd)⟩
  · exact hm.left.sound.elim fun _ hsound => hsound.reset_ok
  · exact hm.right.sound.elim fun _ hsound => hsound.reset_ok

/-- An arena that had opened another block, and a new one over another heap, after requests that open one
each. -/
theorem tandem_indistinct_arena :
    let arena (base : Block) : Carver :=
      .arena { alignment := .word, total := 100, arenaSize := 100, first := base }
    let t₁ : Tracker BumpHeap := .ofHeap (.ofPlan {}) none
    let t₂ : Tracker BumpHeap := .ofHeap (.ofPlan { base := 4093 }) none
    let built := Stand.mk (arena (.place 1 65536 100 107 .word 0)) (Carver.build t₁ .arena 100 .word).2 []
    let used := (built.allocate 70).allocate 60
    let fresh := Stand.mk (arena (.place 1 4093 100 107 .word 0)) (Carver.build t₂ .arena 100 .word).2 []
    let s₁ := (({ used.reset with got := [] }.allocate 50).allocate 60).release
      ⟨.place 3 65760 100 107 .word 0, 0, 60, 60⟩
    let s₂ := ((fresh.allocate 50).allocate 60).release ⟨.place 2 4205 100 107 .word 0, 0, 60, 60⟩
    Indistinct s₁ s₂ ∧ s₁.carver.stats.allocated = 110 := by
  intro arena t₁ t₂ built used fresh s₁ s₂
  have hbuilt : Carver.build t₁ .arena 100 .word =
      (.ok (arena (.place 1 65536 100 107 .word 0)), (Carver.build t₁ .arena 100 .word).2) := rfl
  have hfresh : Carver.build t₂ .arena 100 .word =
      (.ok (arena (.place 1 4093 100 107 .word 0)), (Carver.build t₂ .arena 100 .word).2) := rfl
  have hlived : Lived .arena 100 .word used.carver used.tracker :=
    ((Lived.built .refl hbuilt).allocate 70).allocate 60
  have hstart : Tandem .arena 100 .word { used.reset with got := [] } fresh := .start hlived .refl hfresh
  have hnext := (hstart.allocate 50 (by decide +kernel)).allocate 60 (by decide +kernel)
  have hlast : Tandem .arena 100 .word s₁ s₂ := hnext.release 0 (by decide +kernel) (by decide +kernel)
  exact ⟨Tandem.indistinct (by decide) hlast, by decide +kernel⟩

end Carver

end TrackedHeap
