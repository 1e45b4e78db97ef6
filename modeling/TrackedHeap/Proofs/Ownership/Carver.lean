import TrackedHeap.Carver
import TrackedHeap.Proofs.Ownership.Hybrid
import TrackedHeap.Proofs.Ownership.ObjectPool

/-!
# What clients have of a carver

One statement for each operation of a carver, whatever its strategy. The strategies differ in what comes back:
single ranges of an arena or a ring never do, and a reset of an object pool leaves clients what they have.
-/

namespace TrackedHeap.Carver

variable {H : Type} {t t' : Tracker H} {c c' : Carver} {out out' : List CarveOut}

/-- The blocks behind the carver. -/
def backing : Carver → List Nat
  | buddy b => b.backing
  | slab s => s.backing
  | arena a => a.backing
  | ringBuffer r => r.backing
  | objectPool p => p.owned
  | hybrid h => h.backing

/-- The carver and what clients have of it. -/
def Sound (c : Carver) (t : Tracker H) (out : List CarveOut) : Prop :=
  match c with
  | buddy b => b.Sound t out
  | slab s => s.Sound t out
  | arena a => a.Sound t out
  | ringBuffer r => r.Sound t out
  | objectPool p => p.Sound t out
  | hybrid h => h.Sound t out

/-- Whether the range of a handle comes back by itself, and not only when the carver is reset. -/
def takesBack (c : Carver) (handle : CarveOut) : Bool :=
  match c with
  | buddy _ | slab _ | objectPool _ => true
  | arena _ | ringBuffer _ => false
  | hybrid _ => Tier.ofSize handle.requestedSize != .large

/-- What clients have after a range was given back, or was refused. -/
def afterRelease {α : Type} (c : Carver) (answer : Except MemoryError α) (handle : CarveOut)
    (out : List CarveOut) : List CarveOut :=
  if c.takesBack handle then CarveOut.returned answer handle out else out

/-- A handle of a block behind an object pool is the one that was given out for it. -/
def Knows (c : Carver) (t : Tracker H) (handle : CarveOut) : Prop :=
  c.strategy = .objectPool → handle.block.id ∈ c.backing →
    handle.block ∈ t.blocks ∧ handle = .whole handle.block

namespace Sound

/-- The ranges are in the blocks behind the carver. -/
theorem owned (h : c.Sound t out) : Owned t c.backing out := by
  cases c with
  | buddy b => exact Buddy.Sound.owned h
  | slab s => exact SlabCarver.Sound.owned h
  | arena a => exact Arena.Sound.owned h
  | ringBuffer r => exact RingBuffer.Sound.owned h
  | objectPool p => exact ObjectPool.Sound.owned h
  | hybrid h' => exact Hybrid.Sound.owned h

/-- Only the blocks behind the carver matter. -/
theorem keeps (h : c.Sound t out) (hk : t.Keeps t' c.backing) : c.Sound t' out := by
  cases c with
  | buddy b => exact Buddy.Sound.keeps h hk
  | slab s => exact SlabCarver.Sound.keeps h hk
  | arena a => exact Arena.Sound.keeps h hk
  | ringBuffer r => exact RingBuffer.Sound.keeps h hk
  | objectPool p => exact ObjectPool.Sound.keeps h hk
  | hybrid h' => exact Hybrid.Sound.keeps h hk

/-- Clients may have less. -/
theorem sublist (h : c.Sound t out) (hs : out'.Sublist out) : c.Sound t out' := by
  cases c with
  | buddy b => exact Buddy.Sound.sublist h hs
  | slab s => exact SlabCarver.Sound.sublist h hs
  | arena a => exact Arena.Sound.sublist h hs
  | ringBuffer r => exact RingBuffer.Sound.sublist h hs
  | objectPool p => exact ObjectPool.Sound.sublist h hs
  | hybrid h' => exact Hybrid.Sound.sublist h hs

theorem knows (h : c.Sound t out) {handle : CarveOut} (hh : handle ∈ out) : c.Knows t handle := by
  intro hp _
  cases c with
  | objectPool p =>
    have hw := ObjectPool.Sound.whole_out h hh
    exact ⟨hw.block_mem, hw.eq_whole⟩
  | _ => cases hp

theorem lt_nextId (h : c.Sound t out) (hn : t.Numbered) {id : Nat} (hid : id ∈ c.backing) :
    id < t.nextId := by
  obtain ⟨b, hb, rfl⟩ := h.owned.live id hid
  exact hn.issued b hb

end Sound

/-- What an operation of the carver leaves known. -/
theorem Knows.turnover {handle : CarveOut} (h : c.Knows t handle) (hlt : handle.block.id < t.nextId)
    (hturn : Tracker.Turnover t t' c.backing c'.backing) (hs : c'.strategy = c.strategy) :
    c'.Knows t' handle := by
  intro hp hid
  have hold := (hturn.fresh _ hid).resolve_right (Nat.not_le_of_lt hlt)
  obtain ⟨hb, hw⟩ := h (hs.symm.trans hp) hold
  exact ⟨hturn.keeps _ hb hid, hw⟩

theorem Knows.keeps {handle : CarveOut} (h : c.Knows t handle) (hk : t.Keeps t' c.backing) :
    c.Knows t' handle := by
  intro hp hid
  obtain ⟨hb, hw⟩ := h hp hid
  exact ⟨hk _ hb hid, hw⟩

/-! ## Operations -/

/-- A handle that comes back, or is only looked at. -/
theorem Sound.release (h : c.Sound t out) (hn : t.Numbered) {handle : CarveOut}
    (hk : c.Knows t handle) :
    (c.release t handle).2.1.Sound t (c.afterRelease (c.release t handle).1 handle out) ∧
      Tracker.Turnover t t c.backing (c.release t handle).2.1.backing := by
  cases c with
  | buddy b =>
    refine ⟨Buddy.Sound.release h handle, ?_⟩
    show Tracker.Turnover t t b.backing (b.release handle).2.backing
    rw [Buddy.backing_release]
    exact .refl _ _
  | slab s =>
    obtain ⟨hs, hback⟩ := SlabCarver.Sound.release h handle
    refine ⟨hs, ?_⟩
    show Tracker.Turnover t t s.backing (s.release handle).2.backing
    rw [hback]
    exact .refl _ _
  | arena a =>
    have hsame : (a.release handle).2 = a := by
      fun_cases Arena.release a handle <;> rfl
    show (a.release handle).2.Sound t out ∧ Tracker.Turnover t t a.backing (a.release handle).2.backing
    rw [hsame]
    exact ⟨h, .refl _ _⟩
  | ringBuffer r =>
    have hsame : (r.release handle).2 = r := by
      fun_cases RingBuffer.release r handle
      rfl
    show (r.release handle).2.Sound t out ∧ Tracker.Turnover t t r.backing (r.release handle).2.backing
    rw [hsame]
    exact ⟨h, .refl _ _⟩
  | objectPool p =>
    obtain ⟨hs, hback⟩ := ObjectPool.Sound.release h hn handle fun hid =>
      ⟨(hk rfl hid).1, hid, (hk rfl hid).2⟩
    refine ⟨hs, ?_⟩
    show Tracker.Turnover t t p.owned (p.release t handle).2.owned
    rw [hback]
    exact .refl _ _
  | hybrid h' =>
    obtain ⟨hs, hturn⟩ := Hybrid.Sound.release h hn handle
    refine ⟨?_, hturn⟩
    show (h'.release handle).2.Sound t _
    by_cases hl : Tier.ofSize handle.requestedSize = .large
    · have ht : (hybrid h').takesBack handle = false := by simp [takesBack, hl]
      rw [if_pos hl] at hs
      rw [afterRelease, ht]
      exact hs
    · have ht : (hybrid h').takesBack handle = true := by simp [takesBack, hl]
      rw [if_neg hl] at hs
      rw [afterRelease, ht]
      exact hs

theorem strategy_release (c : Carver) (t : Tracker H) (handle : CarveOut) :
    (c.release t handle).2.1.strategy = c.strategy := by
  cases c <;> rfl

variable [Heap H]

/-- A request that is granted adds a range to what clients have. -/
theorem Sound.allocate (h : c.Sound t out) (hn : t.Numbered) (size : Nat) :
    (c.allocate t size).2.1.Sound (c.allocate t size).2.2
        (CarveOut.taken (c.allocate t size).1 out) ∧
      Tracker.Turnover t (c.allocate t size).2.2 c.backing (c.allocate t size).2.1.backing := by
  cases c with
  | buddy b =>
    refine ⟨Buddy.Sound.allocate h size, ?_⟩
    show Tracker.Turnover t t b.backing (b.allocate size).2.backing
    rw [Buddy.backing_allocate]
    exact .refl _ _
  | slab s => exact SlabCarver.Sound.allocate h hn size
  | arena a => exact Arena.Sound.allocate h hn size
  | ringBuffer r =>
    refine ⟨RingBuffer.Sound.allocate h size, ?_⟩
    show Tracker.Turnover t t r.backing (r.allocate size).2.backing
    rw [RingBuffer.backing_allocate]
    exact .refl _ _
  | objectPool p => exact ObjectPool.Sound.allocate h hn size
  | hybrid h' => exact Hybrid.Sound.allocate h hn size

theorem strategy_allocate (c : Carver) (t : Tracker H) (size : Nat) :
    (c.allocate t size).2.1.strategy = c.strategy := by
  cases c <;> rfl

/-- Clients keep what they have of an object pool, and nothing of others. -/
theorem Sound.reset (h : c.Sound t out) (hn : t.Numbered) :
    (c.reset t).2.1.Sound (c.reset t).2.2 (if c.strategy = .objectPool then out else []) ∧
      Tracker.Turnover t (c.reset t).2.2 c.backing (c.reset t).2.1.backing := by
  cases c with
  | buddy b =>
    refine ⟨Buddy.Sound.reset h, ?_⟩
    show Tracker.Turnover t t b.backing b.reset.backing
    rw [Buddy.backing_reset]
    exact .refl _ _
  | slab s => exact SlabCarver.Sound.reset s t
  | arena a => exact Arena.Sound.reset h
  | ringBuffer r => exact ⟨RingBuffer.Sound.reset h, .refl _ _⟩
  | objectPool p => exact ObjectPool.Sound.reset h
  | hybrid h' => exact Hybrid.Sound.reset h hn

/-- A reset is never refused. -/
theorem Sound.reset_ok (h : c.Sound t out) : (c.reset t).1 = .ok () := by
  cases c with
  | buddy b => rfl
  | slab s => rfl
  | arena a => exact Arena.Sound.reset_ok h
  | ringBuffer r => rfl
  | objectPool p => exact ObjectPool.Sound.reset_ok h
  | hybrid h' => exact Hybrid.Sound.reset_ok h

theorem strategy_reset (c : Carver) (t : Tracker H) : (c.reset t).2.1.strategy = c.strategy := by
  cases c <;> rfl

/-- Nobody else's block goes back to the tracker with the carver. -/
theorem Sound.turnover_dispose (h : c.Sound t out) : Tracker.Turnover t (c.dispose t) c.backing [] := by
  cases c with
  | buddy b => exact t.turnover_free b.base
  | slab s => exact s.turnover_dispose t
  | arena a => exact a.turnover_dispose t
  | ringBuffer r => exact t.turnover_free r.base
  | objectPool p =>
    have hturn := (ObjectPool.Sound.reset h).2
    exact ⟨hturn.issued, fun b hb hid => hturn.kept b hb (.inl (hid.resolve_right List.not_mem_nil)),
      by simp⟩
  | hybrid h' => exact h'.turnover_dispose t

/-! ## New carvers -/

theorem built_ok {σ τ : Type} {wrap : σ → Carver} {o : Outcome σ τ} {s : τ}
    (h : built wrap o = (.ok c, s)) : ∃ x, o = (.ok x, s) ∧ c = wrap x := by
  obtain ⟨_ | x, s'⟩ := o
  · cases h
  · cases h
    exact ⟨x, rfl, rfl⟩

theorem built_error {σ τ : Type} {wrap : σ → Carver} {o : Outcome σ τ} {s : τ} {e : MemoryError}
    (h : built wrap o = (.error e, s)) : o = (.error e, s) := by
  obtain ⟨_ | x, s'⟩ := o
  · cases h
    rfl
  · cases h

/-- Clients have nothing of a new carver, and its blocks are new. -/
theorem sound_of_build {strategy : Strategy} {total : Nat} {alignment : Alignment} (hn : t.Numbered)
    (hb : Carver.build t strategy total alignment = (.ok c, t')) :
    c.Sound t' [] ∧ Tracker.Turnover t t' [] c.backing := by
  cases strategy with
  | buddy =>
    obtain ⟨b, hm, rfl⟩ := built_ok hb
    exact Buddy.sound_of_make hm
  | slab =>
    obtain ⟨s, hm, rfl⟩ := built_ok hb
    obtain ⟨hs, rfl⟩ := Prod.mk.inj hm
    have hnil := SlabCarver.slabs_of_make hs
    refine ⟨SlabCarver.sound_nil t hnil, ?_⟩
    show Tracker.Turnover t t [] s.backing
    rw [SlabCarver.backing, hnil]
    exact .refl _ _
  | arena =>
    obtain ⟨a, hm, rfl⟩ := built_ok hb
    exact Arena.sound_of_make hm
  | ringBuffer =>
    obtain ⟨r, hm, rfl⟩ := built_ok hb
    exact RingBuffer.sound_of_make hm
  | objectPool =>
    obtain ⟨p, hm, rfl⟩ := built_ok hb
    obtain ⟨hp, rfl⟩ := Prod.mk.inj hm
    obtain ⟨hs, hnil⟩ := ObjectPool.sound_of_make hp t
    refine ⟨hs, ?_⟩
    show Tracker.Turnover t t [] p.owned
    rw [hnil]
    exact .refl _ _
  | hybrid =>
    obtain ⟨h, hm, rfl⟩ := built_ok hb
    exact Hybrid.sound_of_make hn hm

/-- A carver that was refused leaves all blocks as they were. -/
theorem turnover_build_error {strategy : Strategy} {total : Nat} {alignment : Alignment}
    {e : MemoryError} (hn : t.Numbered)
    (hb : Carver.build t strategy total alignment = (.error e, t')) :
    Tracker.Turnover t t' [] [] := by
  cases strategy with
  | buddy => exact Buddy.turnover_make_error (built_error hb)
  | slab => exact (Prod.mk.inj (built_error hb)).2 ▸ .refl _ _
  | arena => exact Arena.turnover_make_error (built_error hb)
  | ringBuffer => exact RingBuffer.turnover_make_error (built_error hb)
  | objectPool => exact (Prod.mk.inj (built_error hb)).2 ▸ .refl _ _
  | hybrid => exact Hybrid.turnover_make_error hn (built_error hb)

end TrackedHeap.Carver
