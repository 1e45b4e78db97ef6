import TrackedHeap.Proofs.Carver.Construction
import TrackedHeap.Proofs.Carver.Run
import TrackedHeap.Proofs.Twin.Carver

/-!
# What a reset leaves of a carver

What was built can be read off a carver at any later time: it is the carver with nothing carved out and nothing
counted (`Carver.blank`), which no operation changes. A reset leaves just that, the tally apart
(`Carver.Sound.twin_reset`), and what is built twice are twins (`Carver.twin_of_build`).
-/

namespace TrackedHeap

variable {H : Type} {t t' : Tracker H} {total : Nat} {alignment : Alignment}

/-! ## What was built -/

/-- The region with nothing carved out of it and nothing counted. -/
def Buddy.blank (b : Buddy) : Buddy :=
  .ofBase b.base b.maxOrder

/-- The carver without slabs and with nothing counted. -/
def SlabCarver.blank (s : SlabCarver) : SlabCarver where
  alignment := s.alignment
  total := s.total
  slabSize := s.slabSize

/-- The arena with its first block alone, nothing carved out of it and nothing counted. -/
def Arena.blank (a : Arena) : Arena where
  alignment := a.alignment
  total := a.total
  arenaSize := a.arenaSize
  first := a.first

/-- The ring with nothing carved out of it and nothing counted. -/
def RingBuffer.blank (r : RingBuffer) : RingBuffer where
  base := r.base
  capacity := r.capacity

/-- The hybrid of such parts. -/
def Hybrid.blank (h : Hybrid) : Hybrid where
  small := h.small.blank
  medium := h.medium.blank
  large := h.large.blank

/-- The carver as it was built; object pools are left as they are. -/
def Carver.blank : Carver → Carver
  | .buddy b => .buddy b.blank
  | .slab s => .slab s.blank
  | .arena a => .arena a.blank
  | .ringBuffer r => .ringBuffer r.blank
  | .objectPool p => .objectPool p
  | .hybrid h => .hybrid h.blank

theorem Buddy.blank_allocate (b : Buddy) (size : Nat) : (b.allocate size).2.blank = b.blank := by
  show (b.carve size).2.blank = b.blank
  fun_cases Buddy.carve b size <;> rfl

theorem Buddy.blank_release (b : Buddy) (handle : CarveOut) : (b.release handle).2.blank = b.blank := by
  fun_cases Buddy.release b handle <;> rfl

theorem Buddy.blank_reset (b : Buddy) : b.reset.blank = b.blank := by
  unfold reset
  rw [foldl_giveBack]
  rfl

theorem SlabCarver.blank_carveFrom (s : SlabCarver) (slab : Slab) : (s.carveFrom slab).2.blank = s.blank := by
  fun_cases SlabCarver.carveFrom s slab <;> rfl

theorem SlabCarver.blank_release (s : SlabCarver) (handle : CarveOut) :
    (s.release handle).2.blank = s.blank := by
  fun_cases SlabCarver.release s handle <;> rfl

theorem Arena.blank_release (a : Arena) (handle : CarveOut) : (a.release handle).2.blank = a.blank := by
  fun_cases Arena.release a handle <;> rfl

theorem RingBuffer.blank_allocate (r : RingBuffer) (size : Nat) : (r.allocate size).2.blank = r.blank := by
  show (r.carve size).2.blank = r.blank
  fun_cases RingBuffer.carve r size <;> rfl

theorem Hybrid.blank_release (h : Hybrid) (handle : CarveOut) : (h.release handle).2.blank = h.blank := by
  unfold Hybrid.release
  cases Tier.ofSize handle.requestedSize with
  | small =>
    exact congrArg (fun small => Hybrid.mk small h.medium.blank h.large.blank) (h.small.blank_release handle)
  | medium =>
    exact congrArg (fun medium => Hybrid.mk h.small.blank medium h.large.blank) (h.medium.blank_release handle)
  | large =>
    exact congrArg (fun large => Hybrid.mk h.small.blank h.medium.blank large) (h.large.blank_release handle)

section Tracked

variable [Heap H]

theorem SlabCarver.blank_newSlab (s : SlabCarver) (t : Tracker H) (size : Nat) :
    (s.newSlab t size).2.1.blank = s.blank := by
  fun_cases SlabCarver.newSlab s t size <;> rfl

theorem SlabCarver.blank_allocate (s : SlabCarver) (t : Tracker H) (size : Nat) :
    (s.allocate t size).2.1.blank = s.blank := by
  show (s.carve t size).2.1.blank = s.blank
  have hnew := s.blank_newSlab t size
  fun_cases SlabCarver.carve s t size
  case case1 => rfl
  case case2 slab hslab result s' hcarve =>
    have hfrom := s.blank_carveFrom slab
    rw [hcarve] at hfrom
    exact hfrom
  case case3 e s' t' h =>
    rw [h] at hnew
    exact hnew
  case case4 slab s' t' h result s'' hcarve =>
    have hfrom := s'.blank_carveFrom slab
    rw [h] at hnew
    rw [hcarve] at hfrom
    exact hfrom.trans hnew

theorem Arena.blank_allocate (a : Arena) (t : Tracker H) (size : Nat) :
    (a.allocate t size).2.1.blank = a.blank := by
  show (a.carve t size).2.1.blank = a.blank
  fun_cases Arena.carve a t size
  case case4 hgrant => cases hgrant; rfl
  case case5 hgrant => cases hgrant; rfl
  all_goals rfl

theorem Hybrid.blank_allocate (h : Hybrid) (t : Tracker H) (size : Nat) :
    (h.allocate t size).2.1.blank = h.blank := by
  by_cases hsize : size = 0
  · simp only [allocate, if_pos hsize]
  cases ht : Tier.ofSize size with
  | small =>
    rw [allocate_small hsize ht]
    exact congrArg (fun small => Hybrid.mk small h.medium.blank h.large.blank) (h.small.blank_allocate t size)
  | medium =>
    rw [allocate_medium hsize ht]
    exact congrArg (fun medium => Hybrid.mk h.small.blank medium h.large.blank) (h.medium.blank_allocate size)
  | large =>
    rw [allocate_large hsize ht]
    exact congrArg (fun large => Hybrid.mk h.small.blank h.medium.blank large) (h.large.blank_allocate t size)

theorem Hybrid.blank_reset (h : Hybrid) (t : Tracker H) : (h.reset t).2.1.blank = h.blank :=
  congrArg (fun medium => Hybrid.mk h.small.blank medium h.large.blank) h.medium.blank_reset

end Tracked

namespace Carver

variable {c : Carver}

theorem blank_release (hc : c.strategy ≠ .objectPool) (t : Tracker H) (handle : CarveOut) :
    (c.release t handle).2.1.blank = c.blank := by
  cases c with
  | buddy b => exact congrArg buddy (b.blank_release handle)
  | slab s => exact congrArg slab (s.blank_release handle)
  | arena a => exact congrArg arena (a.blank_release handle)
  | ringBuffer r => rfl
  | objectPool p => exact absurd rfl hc
  | hybrid h => exact congrArg hybrid (h.blank_release handle)

variable [Heap H]

theorem blank_allocate (hc : c.strategy ≠ .objectPool) (t : Tracker H) (size : Nat) :
    (c.allocate t size).2.1.blank = c.blank := by
  cases c with
  | buddy b => exact congrArg buddy (b.blank_allocate size)
  | slab s => exact congrArg slab (s.blank_allocate t size)
  | arena a => exact congrArg arena (a.blank_allocate t size)
  | ringBuffer r => exact congrArg ringBuffer (r.blank_allocate size)
  | objectPool p => exact absurd rfl hc
  | hybrid h => exact congrArg hybrid (h.blank_allocate t size)

theorem blank_reset (hc : c.strategy ≠ .objectPool) (t : Tracker H) : (c.reset t).2.1.blank = c.blank := by
  cases c with
  | buddy b => exact congrArg buddy b.blank_reset
  | objectPool p => exact absurd rfl hc
  | hybrid h => exact congrArg hybrid (h.blank_reset t)
  | _ => rfl

/-- What was built can be read off after every run. -/
theorem blank_run (hc : c.strategy ≠ .objectPool) (t : Tracker H) (acts : List Act) :
    (run (c, t) acts).1.blank = c.blank := by
  have hlasting : Lasting H (fun _ => True) fun d => d.strategy ≠ .objectPool ∧ d.blank = c.blank :=
    { allocate := fun t size ⟨hd, hblank⟩ =>
        ⟨by rwa [strategy_allocate], (blank_allocate hd t size).trans hblank⟩
      release := fun t handle _ ⟨hd, hblank⟩ =>
        ⟨by rwa [strategy_release], (blank_release hd t handle).trans hblank⟩
      reset := fun t ⟨hd, hblank⟩ => ⟨by rwa [strategy_reset], (blank_reset hd t).trans hblank⟩ }
  exact (hlasting.run ⟨hc, rfl⟩ fun _ _ => trivial).2

theorem strategy_of_build {strategy : Strategy} (hb : Carver.build t strategy total alignment = (.ok c, t')) :
    c.strategy = strategy := by
  cases strategy <;> (obtain ⟨x, -, rfl⟩ := built_ok hb; rfl)

end Carver

/-! ## New carvers -/

namespace Carver

/-- A new carver is as it was built. -/
theorem blank_of_build [Heap H] {c : Carver} {strategy : Strategy}
    (hb : Carver.build t strategy total alignment = (.ok c, t')) : c.blank = c := by
  cases strategy with
  | buddy =>
    obtain ⟨b, hm, rfl⟩ := built_ok hb
    rw [(Buddy.make_ok hm).1]
    rfl
  | slab =>
    obtain ⟨s, hm, rfl⟩ := built_ok hb
    rw [SlabCarver.make_ok (Prod.mk.inj hm).1]
    rfl
  | arena =>
    obtain ⟨a, hm, rfl⟩ := built_ok hb
    rw [(Arena.make_ok hm).1]
    rfl
  | ringBuffer =>
    obtain ⟨r, hm, rfl⟩ := built_ok hb
    rw [(RingBuffer.make_ok hm).1]
    rfl
  | objectPool =>
    obtain ⟨p, -, rfl⟩ := built_ok hb
    rfl
  | hybrid =>
    obtain ⟨h, hm, rfl⟩ := built_ok hb
    obtain ⟨hsmall, t₁, hmedium, hlarge⟩ := Hybrid.make_ok hm
    have hs : h.small.blank = h.small := by rw [SlabCarver.make_ok hsmall]; rfl
    have hb : h.medium.blank = h.medium := by rw [(Buddy.make_ok hmedium).1]; rfl
    have ha : h.large.blank = h.large := by rw [(Arena.make_ok hlarge).1]; rfl
    show hybrid ⟨h.small.blank, h.medium.blank, h.large.blank⟩ = _
    rw [hs, hb, ha]

variable {H₁ H₂ : Type} [Heap H₁] [Heap H₂] {t₁ t₁' : Tracker H₁} {t₂ t₂' : Tracker H₂} {pairs : Pairing}

/-- What is built twice are twins. -/
theorem twin_of_build {c₁ c₂ : Carver} {strategy : Strategy} (hs : strategy ≠ .objectPool)
    (h₁ : Carver.build t₁ strategy total alignment = (.ok c₁, t₁'))
    (h₂ : Carver.build t₂ strategy total alignment = (.ok c₂, t₂')) :
    ∃ pairs, Pairing.Between pairs t₁' t₂' ∧ c₁.Twin pairs c₂ := by
  cases strategy with
  | buddy =>
    obtain ⟨b₁, hm₁, rfl⟩ := built_ok h₁
    obtain ⟨b₂, hm₂, rfl⟩ := built_ok h₂
    obtain ⟨heq₁, ha₁⟩ := Buddy.make_ok hm₁
    obtain ⟨heq₂, ha₂⟩ := Buddy.make_ok hm₂
    refine ⟨_, (Pairing.Between.nil t₁ t₂).allocate ha₁ ha₂, .buddy ?_⟩
    rw [heq₁, heq₂]
    exact .intro _ _ List.mem_cons_self
  | slab =>
    obtain ⟨s₁, hm₁, rfl⟩ := built_ok h₁
    obtain ⟨s₂, hm₂, rfl⟩ := built_ok h₂
    rw [SlabCarver.make_ok (Prod.mk.inj hm₁).1, SlabCarver.make_ok (Prod.mk.inj hm₂).1]
    exact ⟨[], .nil _ _, .slab (.intro _ _ .nil)⟩
  | arena =>
    obtain ⟨a₁, hm₁, rfl⟩ := built_ok h₁
    obtain ⟨a₂, hm₂, rfl⟩ := built_ok h₂
    obtain ⟨heq₁, ha₁⟩ := Arena.make_ok hm₁
    obtain ⟨heq₂, ha₂⟩ := Arena.make_ok hm₂
    refine ⟨_, (Pairing.Between.nil t₁ t₂).allocate ha₁ ha₂, .arena ?_⟩
    rw [heq₁, heq₂]
    exact .intro _ _ _ List.mem_cons_self .nil
  | ringBuffer =>
    obtain ⟨r₁, hm₁, rfl⟩ := built_ok h₁
    obtain ⟨r₂, hm₂, rfl⟩ := built_ok h₂
    obtain ⟨heq₁, ha₁⟩ := RingBuffer.make_ok hm₁
    obtain ⟨heq₂, ha₂⟩ := RingBuffer.make_ok hm₂
    refine ⟨_, (Pairing.Between.nil t₁ t₂).allocate ha₁ ha₂, .ringBuffer ?_⟩
    rw [heq₁, heq₂]
    exact .intro _ _ List.mem_cons_self
  | objectPool => exact absurd rfl hs
  | hybrid =>
    obtain ⟨⟨small₁, medium₁, large₁⟩, hm₁, rfl⟩ := built_ok h₁
    obtain ⟨⟨small₂, medium₂, large₂⟩, hm₂, rfl⟩ := built_ok h₂
    obtain ⟨hsmall₁, _, hmedium₁, hlarge₁⟩ := Hybrid.make_ok hm₁
    obtain ⟨hsmall₂, _, hmedium₂, hlarge₂⟩ := Hybrid.make_ok hm₂
    obtain ⟨hb₁, hbase₁⟩ := Buddy.make_ok hmedium₁
    obtain ⟨hb₂, hbase₂⟩ := Buddy.make_ok hmedium₂
    obtain ⟨ha₁, hfirst₁⟩ := Arena.make_ok hlarge₁
    obtain ⟨ha₂, hfirst₂⟩ := Arena.make_ok hlarge₂
    -- the block of the medium part was taken first, then that of the large part
    have hp := ((Pairing.Between.nil t₁ t₂).allocate hbase₁ hbase₂).allocate hfirst₁ hfirst₂
    refine ⟨_, hp, .hybrid ⟨?_, ?_, ?_⟩⟩
    · rw [SlabCarver.make_ok hsmall₁, SlabCarver.make_ok hsmall₂]
      exact .intro _ _ .nil
    · rw [hb₁, hb₂]
      exact .intro _ _ (List.mem_cons_of_mem _ List.mem_cons_self)
    · rw [ha₁, ha₂]
      exact .intro _ _ _ List.mem_cons_self .nil

end Carver

/-! ## Resets -/

/-- A region is whole again, and its tally goes on. -/
theorem Buddy.Coalesced.reset_eq {b : Buddy} (h : b.Coalesced) :
    b.reset = { b.blank with tally := b.tally } := by
  have horder : b.reset.maxOrder = b.maxOrder := maxOrder_giveBack b.live
  have hreset := h.reset
  unfold Coalesced at hreset
  rw [horder] at hreset
  have hfree : b.reset.free = [⟨b.maxOrder, 0⟩] :=
    hreset.free_eq (Chunk.Coalesced.top b.maxOrder) fun _ => Iff.rfl
  unfold Buddy.reset at hfree ⊢
  rw [foldl_giveBack] at hfree ⊢
  simp only at hfree ⊢
  rw [hfree]
  rfl

theorem Buddy.Coalesced.twin_reset {pairs : Pairing} {b d : Buddy} (h : b.Coalesced)
    (ht : b.blank.Twin pairs d) : b.reset.Twin pairs d := by
  cases ht with
  | intro base tally paired =>
    rw [h.reset_eq]
    exact .intro base tally paired

namespace Carver

variable [Heap H] {H₁ H₂ : Type} [Heap H₁] [Heap H₂] {pairs : Pairing} {c d : Carver} {out : List CarveOut}

/-- A carver that was reset is what was built, but for its tally. -/
theorem Sound.twin_reset (h : c.Sound t out) (ht : c.blank.Twin pairs d) : (c.reset t).2.1.Twin pairs d := by
  cases c with
  | buddy b =>
    have hb : Buddy.Sound b t out := h
    cases ht with
    | buddy twin => exact .buddy (hb.coalesced.twin_reset twin)
  | slab s =>
    cases ht with
    | slab twin => exact .slab (twin.with_tally s.tally _)
  | arena a =>
    cases ht with
    | arena twin => exact .arena (twin.with_tally a.tally _)
  | ringBuffer r =>
    cases ht with
    | ringBuffer twin =>
      cases twin with
      | intro base tally paired => exact .ringBuffer (.intro base tally paired)
  | objectPool p => cases ht
  | hybrid h' =>
    have hmedium : Buddy.Sound h'.medium t (Hybrid.ofTier .medium out) := Hybrid.Sound.part h .medium
    cases ht with
    | hybrid twin =>
      exact .hybrid ⟨twin.small.with_tally h'.small.tally _, hmedium.coalesced.twin_reset twin.medium,
        twin.large.with_tally h'.large.tally _⟩

end Carver

end TrackedHeap
