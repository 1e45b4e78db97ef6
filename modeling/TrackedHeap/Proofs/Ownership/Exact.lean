import TrackedHeap.Proofs.Carver.Construction
import TrackedHeap.Proofs.Ownership.Release

/-!
# What any carver says of its clients

For a carver of any strategy, the bytes that it reports as allocated are those of the ranges that clients have
(`Carver.Exact.allocated_eq`), whatever is asked of it; a hybrid's are those of its parts, each of which has
the ranges of its tier. A carver takes back what a client has of it (`Carver.Exact.release_outstanding`), and
refuses what is in blocks of others (`Carver.refuses_foreign`) or, if it knows its ranges one by one, what no
client has (`Carver.Exact.refuses_absent`).
-/

namespace TrackedHeap

open CarveOut (grantedBytes)

variable {H : Type} {t t' : Tracker H} {out : List CarveOut} {handle : CarveOut}

/-! ## Hybrids -/

namespace Hybrid

variable {h : Hybrid}

/-- Every range is of one tier. -/
theorem grantedBytes_ofTier (out : List CarveOut) :
    grantedBytes (ofTier .small out) + (grantedBytes (ofTier .medium out) +
      grantedBytes (ofTier .large out)) = grantedBytes out := by
  induction out with
  | nil => rfl
  | cons c out ih =>
    rw [CarveOut.grantedBytes_cons, ← ih]
    unfold ofTier
    cases hc : Tier.ofSize c.requestedSize <;>
      simp only [List.filter_cons, hc, decide_true, decide_false, reduceCtorEq, if_true, Bool.false_eq_true,
        if_false, CarveOut.grantedBytes_cons] <;> omega

namespace Exact

theorem allocated_eq (hx : h.Exact out) : h.stats.allocated = grantedBytes out := by
  rw [← grantedBytes_ofTier out, ← hx.small.allocated_eq, ← hx.medium.allocated_eq, ← hx.large]
  rfl

/-- Ranges of other tiers stay with clients. -/
theorem ofTier_returned (hs : h.Sound t out) {tier : Tier} (ht : tier ≠ Tier.ofSize handle.requestedSize) :
    ofTier tier (CarveOut.returned (h.release handle).1 handle out) = ofTier tier out := by
  rw [ofTier, CarveOut.filter_returned]
  refine (h.judges_release handle).returned_eq fun c hc => ?_
  exact hs.disjoint _ _ ht _ ((hs.part tier).owned.backed c hc)

theorem release (hx : h.Exact out) (hs : h.Sound t out) (handle : CarveOut) :
    (h.release handle).2.Exact (if Tier.ofSize handle.requestedSize = .large then out
      else CarveOut.returned (h.release handle).1 handle out) := by
  have hother {tier : Tier} (ht : tier ≠ Tier.ofSize handle.requestedSize) :
      ofTier tier (CarveOut.returned (h.release handle).1 handle out) = ofTier tier out := ofTier_returned hs ht
  cases htier : Tier.ofSize handle.requestedSize with
  | small =>
    simp only [htier] at hother
    rw [if_neg (by decide)]
    refine ⟨?_, ?_, ?_⟩
    · rw [ofTier, CarveOut.filter_returned, release_small htier]
      exact hx.small.release (hs.part .small) handle
    · rw [hother (by decide), release_small htier]
      exact hx.medium
    · rw [hother (by decide), release_small htier]
      exact hx.large
  | medium =>
    simp only [htier] at hother
    rw [if_neg (by decide)]
    refine ⟨?_, ?_, ?_⟩
    · rw [hother (by decide), release_medium htier]
      exact hx.small
    · rw [ofTier, CarveOut.filter_returned, release_medium htier]
      exact hx.medium.release (hs.part .medium) handle
    · rw [hother (by decide), release_medium htier]
      exact hx.large
  | large =>
    rw [if_pos rfl, release_large htier]
    exact hx

theorem allocate [Heap H] (hx : h.Exact out) (hs : h.Sound t out) (hn : t.Numbered) (size : Nat) :
    (h.allocate t size).2.1.Exact (CarveOut.taken (h.allocate t size).1 out) := by
  by_cases hsize : size = 0
  · rw [Hybrid.allocate, if_pos hsize]
    exact hx
  cases htier : Tier.ofSize size with
  | small =>
    have hreq : ∀ c, (h.small.allocate t size).1 = .ok c → Tier.ofSize c.requestedSize = .small :=
      fun c hc => by rw [SlabCarver.requestedSize_of_carve hc, htier]
    have hpart := hx.small.allocate (hs.part .small) hn size
    rw [allocate_small hsize htier]
    refine ⟨by rwa [ofTier_taken hreq], ?_, ?_⟩
    · rw [ofTier_taken_other hreq (by decide)]
      exact hx.medium
    · rw [ofTier_taken_other hreq (by decide)]
      exact hx.large
  | medium =>
    have hreq : ∀ c, (h.medium.allocate size).1 = .ok c → Tier.ofSize c.requestedSize = .medium :=
      fun c hc => by rw [Buddy.requestedSize_of_carve hc, htier]
    have hpart := hx.medium.allocate size
    rw [allocate_medium hsize htier]
    refine ⟨?_, by rwa [ofTier_taken hreq], ?_⟩
    · rw [ofTier_taken_other hreq (by decide)]
      exact hx.small
    · rw [ofTier_taken_other hreq (by decide)]
      exact hx.large
  | large =>
    have hreq : ∀ c, (h.large.allocate t size).1 = .ok c → Tier.ofSize c.requestedSize = .large :=
      fun c hc => by rw [Arena.requestedSize_of_carve hc, htier]
    have hpart := hx.large.allocate t size
    rw [allocate_large hsize htier]
    refine ⟨?_, ?_, by rwa [ofTier_taken hreq]⟩
    · rw [ofTier_taken_other hreq (by decide)]
      exact hx.small
    · rw [ofTier_taken_other hreq (by decide)]
      exact hx.medium

end Exact

theorem exact_reset [Heap H] (h : Hybrid) (t : Tracker H) : (h.reset t).2.1.Exact [] :=
  ⟨h.small.exact_reset t, h.medium.exact_reset, rfl⟩

theorem exact_of_make [Heap H] {total : Nat} {alignment : Alignment}
    (hm : make t total alignment = (.ok h, t')) : h.Exact [] := by
  obtain ⟨hsmall, t₁, hmedium, hlarge⟩ := make_ok hm
  refine ⟨SlabCarver.exact_of_make hsmall, ?_, ?_⟩
  · rw [(Buddy.make_ok hmedium).1]
    exact Buddy.exact_ofBase _ _
  · rw [(Arena.make_ok hlarge).1]
    rfl

end Hybrid

/-! ## Any strategy -/

namespace Carver

variable {c : Carver}

/-- What the carver counts and shows as taken is what clients have. -/
def Exact (c : Carver) (out : List CarveOut) : Prop :=
  match c with
  | buddy b => b.Exact out
  | slab s => s.Exact out
  | arena a => a.Exact out
  | ringBuffer r => r.Exact out
  | objectPool p => p.Exact out
  | hybrid h => h.Exact out

/-- What a carver reports when clients have some ranges of it. The capacity of an arena or a hybrid is no
bound, since an arena takes further blocks when it needs them. -/
structure Reports (c : Carver) (out : List CarveOut) : Prop where
  allocated : c.stats.allocated = grantedBytes out
  free : c.strategy ≠ .arena → c.strategy ≠ .hybrid → c.stats.free + c.stats.allocated = c.stats.total
  /-- All slabs have one size, and fit into the capacity. -/
  slabs : ∀ s, c = slab s → (∀ slab ∈ s.slabs, slab.base.requestedSize = s.slabSize) ∧
    s.reserved = s.slabs.length * s.slabSize ∧ s.reserved ≤ c.stats.total
  /-- The blocks of an object pool are with clients or wait, and fit into the capacity. -/
  queued : ∀ p, c = objectPool p →
    p.used = c.stats.allocated + (p.queued.map fun o => o.block.requestedSize).sum ∧ p.used ≤ c.stats.total
  /-- A ring has room for what clients do not have. -/
  room : ∀ r, c = ringBuffer r → ∀ size, 0 < size →
    ((∃ o, (r.allocate size).1 = .ok o) ↔ size ≤ c.stats.total - c.stats.allocated)

namespace Exact

theorem allocated_eq (h : c.Exact out) : c.stats.allocated = grantedBytes out := by
  cases c with
  | buddy b => exact Buddy.Exact.allocated_eq h
  | slab s => exact SlabCarver.Exact.allocated_eq h
  | arena a => exact h
  | ringBuffer r => exact RingBuffer.Exact.allocated_eq h
  | objectPool p => exact ObjectPool.Exact.allocated_eq h
  | hybrid h' => exact Hybrid.Exact.allocated_eq h

/-- What is left of the capacity is shown to the byte. -/
theorem free_add_allocated (h : c.Exact out) (hs : c.Sound t out) (ha : c.strategy ≠ .arena)
    (hh : c.strategy ≠ .hybrid) : c.stats.free + c.stats.allocated = c.stats.total := by
  have hfree : c.stats.free = c.stats.total - c.stats.allocated := by
    cases c <;> rfl
  rw [hfree]
  refine Nat.sub_add_cancel ?_
  cases c with
  | buddy b => exact Buddy.Exact.le_total h hs
  | slab s => exact Nat.le_trans (SlabCarver.Exact.le_reserved h hs) (SlabCarver.Exact.reserved_le h)
  | ringBuffer r => exact RingBuffer.Exact.le_capacity h
  | objectPool p => exact ObjectPool.Exact.le_total h
  | arena | hybrid => simp [strategy] at ha hh

/-- The carver's figures are exact: clients have these ranges of it. -/
theorem reports (h : c.Exact out) (hs : c.Sound t out) : c.Reports out where
  allocated := h.allocated_eq
  free := h.free_add_allocated hs
  slabs s hc := by
    subst hc
    exact ⟨fun slab hslab => ((SlabCarver.Sound.cut hs) slab hslab).base_size, SlabCarver.Exact.reserved_eq h,
      SlabCarver.Exact.reserved_le h⟩
  queued p hc := by
    subst hc
    exact ⟨ObjectPool.Exact.used_eq_queued h hs, ObjectPool.Exact.used_le h⟩
  room r hc size hsize := by
    subst hc
    exact RingBuffer.Exact.allocate_ok_iff h hsize

theorem release (h : c.Exact out) (hs : c.Sound t out) (hn : t.Numbered) (hk : c.Knows t handle) :
    (c.release t handle).2.1.Exact (c.afterRelease (c.release t handle).1 handle out) := by
  cases c with
  | buddy b => exact Buddy.Exact.release h hs handle
  | slab s => exact SlabCarver.Exact.release h hs handle
  | arena a =>
    have hsame : (a.release handle).2 = a := by
      fun_cases Arena.release a handle <;> rfl
    show (a.release handle).2.Exact out
    rwa [hsame]
  | ringBuffer r => exact h
  | objectPool p =>
    exact ObjectPool.Exact.release h hs hn fun hid => ⟨(hk rfl hid).1, hid, (hk rfl hid).2⟩
  | hybrid h' =>
    have hr := Hybrid.Exact.release h hs handle
    show (h'.release handle).2.Exact _
    by_cases hl : Tier.ofSize handle.requestedSize = .large
    · have ht : (hybrid h').takesBack handle = false := by simp [takesBack, hl]
      rw [if_pos hl] at hr
      rw [afterRelease, ht]
      exact hr
    · have ht : (hybrid h').takesBack handle = true := by simp [takesBack, hl]
      rw [if_neg hl] at hr
      rw [afterRelease, ht]
      exact hr

variable [Heap H]

theorem allocate (h : c.Exact out) (hs : c.Sound t out) (hn : t.Numbered) (size : Nat) :
    (c.allocate t size).2.1.Exact (CarveOut.taken (c.allocate t size).1 out) := by
  cases c with
  | buddy b => exact Buddy.Exact.allocate h size
  | slab s => exact SlabCarver.Exact.allocate h hs hn size
  | arena a => exact Arena.Exact.allocate h t size
  | ringBuffer r => exact RingBuffer.Exact.allocate h size
  | objectPool p => exact ObjectPool.Exact.allocate h hs size
  | hybrid h' => exact Hybrid.Exact.allocate h hs hn size

theorem reset (h : c.Exact out) (hs : c.Sound t out) :
    (c.reset t).2.1.Exact (if c.strategy = .objectPool then out else []) := by
  cases c with
  | buddy b => exact b.exact_reset
  | slab s => exact s.exact_reset t
  | arena a => rfl
  | ringBuffer r => exact r.exact_reset
  | objectPool p => exact ObjectPool.Exact.reset h hs
  | hybrid h' => exact h'.exact_reset t

end Exact

/-- Clients have nothing of a new carver. -/
theorem exact_of_build [Heap H] {strategy : Strategy} {total : Nat} {alignment : Alignment}
    (hb : Carver.build t strategy total alignment = (.ok c, t')) : c.Exact [] := by
  cases strategy with
  | buddy =>
    obtain ⟨b, hm, rfl⟩ := built_ok hb
    rw [(Buddy.make_ok hm).1]
    exact Buddy.exact_ofBase _ _
  | slab =>
    obtain ⟨s, hm, rfl⟩ := built_ok hb
    exact SlabCarver.exact_of_make (Prod.mk.inj hm).1
  | arena =>
    obtain ⟨a, hm, rfl⟩ := built_ok hb
    rw [(Arena.make_ok hm).1]
    rfl
  | ringBuffer =>
    obtain ⟨r, hm, rfl⟩ := built_ok hb
    exact RingBuffer.exact_of_make hm
  | objectPool =>
    obtain ⟨p, hm, rfl⟩ := built_ok hb
    exact ObjectPool.exact_of_make (Prod.mk.inj hm).1
  | hybrid =>
    obtain ⟨h, hm, rfl⟩ := built_ok hb
    exact Hybrid.exact_of_make hm

/-! ## Handles -/

/-- A handle that is taken back is of a block behind the carver, for a hybrid behind the part of its tier. -/
theorem judges_release (c : Carver) (t : Tracker H) (handle : CarveOut) :
    Judges c.backing handle (c.release t handle).1 := by
  cases c with
  | buddy b => exact b.judges_release handle
  | slab s => exact s.judges_release handle
  | arena a => exact a.judges_release handle
  | ringBuffer r => exact judges_requireOwned handle r.base
  | objectPool p => exact p.judges_release t handle
  | hybrid h => exact (h.judges_release handle).mono fun id hid => Hybrid.mem_backing.mpr ⟨_, hid⟩

/-- A handle is refused for the state of things, and nothing changes. -/
def Refuses (c : Carver) (t : Tracker H) (handle : CarveOut) : Prop :=
  ∃ e, c.release t handle = (.error e, c, t) ∧ e.kind = .illegalState

/-- What is not taken back is refused. -/
theorem refuses_of_ne_ok (h : (c.release t handle).1 ≠ .ok ()) : c.Refuses t handle := by
  have hjudge := c.judges_release t handle
  rcases hr : c.release t handle with ⟨e | u, c', t'⟩
  · rw [hr] at hjudge
    obtain ⟨rfl, rfl⟩ := release_refused hr
    exact ⟨e, hr, hjudge⟩
  · exact absurd (congrArg Prod.fst hr) h

/-- A range of a block that is not behind the carver is refused. -/
theorem refuses_foreign (h : handle.block.id ∉ c.backing) : c.Refuses t handle := by
  refine refuses_of_ne_ok fun hok => h ?_
  have hjudge := c.judges_release t handle
  rwa [hok] at hjudge

namespace Exact

/-- What a client has is taken back; by a hybrid, because the size leads to the part that it is of. -/
theorem release_outstanding (h : c.Exact out) (hs : c.Sound t out) (ho : handle ∈ out) :
    (c.release t handle).1 = .ok () := by
  cases c with
  | buddy b => exact Buddy.Sound.release_ok hs ho
  | slab s => exact SlabCarver.Sound.release_ok hs h ho
  | arena a => exact Arena.Sound.release_ok hs ho
  | ringBuffer r => exact RingBuffer.Sound.release_ok hs ho
  | objectPool p => exact ObjectPool.Sound.release_ok hs ho
  | hybrid h' => exact (Hybrid.Sound.release_ok hs h ho).2

/-- A carver that knows its ranges one by one refuses what no client has. -/
theorem refuses_absent (h : c.Exact out) (hs : c.Sound t out) (hn : t.Numbered) (hk : c.Knows t handle)
    (hc : c.strategy = .buddy ∨ c.strategy = .slab ∨ c.strategy = .objectPool)
    (hno : ∀ o ∈ out, ¬ o.sameStart handle = true) : c.Refuses t handle := by
  refine refuses_of_ne_ok fun hok => ?_
  cases c with
  | buddy b =>
    obtain ⟨o, ho, hsame, -⟩ := Buddy.Exact.release_ok h hs (Prod.ext hok rfl)
    exact hno o ho hsame
  | slab s =>
    obtain ⟨-, -, -, -, -, o, ho, hsame, -⟩ := SlabCarver.Exact.release_ok h (Prod.ext hok rfl)
    exact hno o ho hsame
  | objectPool p =>
    have hmem := (ObjectPool.Exact.release_ok h hs hn
      (fun hid => ⟨(hk rfl hid).1, hid, (hk rfl hid).2⟩) (Prod.ext hok rfl)).1
    exact hno handle hmem (CarveOut.sameStart_iff.mpr ⟨rfl, rfl⟩)
  | arena | ringBuffer | hybrid => simp [strategy] at hc

end Exact

end Carver

end TrackedHeap
