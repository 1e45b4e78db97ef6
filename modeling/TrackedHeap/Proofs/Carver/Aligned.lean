import TrackedHeap.Proofs.Carver.Hybrid
import TrackedHeap.Proofs.Pool.Shape
import TrackedHeap.Proofs.Twin.Blank

/-!
# Where carve-outs lie

The blocks that a carver takes from its tracker have the alignment that it was built with
(`Carver.Seated`). A strategy places a range in a block by a rule of its own, at a multiple of some number
(`Strategy.grain`): buddies of their size, cells of the size that was asked for, and only the ranges of an arena of
the alignment. So a carve-out has the alignment exactly if its offset has (`Carver.run_laid`), and it has it always
where that number is a multiple of it.

An object pool gives out what came back as the handle described it. It has the alignment as long as the handles
have that come back.
-/

namespace TrackedHeap

/-- What the offset of a range for a request is a multiple of; an object pool has no offsets but 0. -/
def Strategy.grain (strategy : Strategy) (alignment : Alignment) (size : Nat) : Nat :=
  match strategy with
  | .buddy => 1 <<< Chunk.orderFor size
  | .slab => size
  | .arena => alignment.bytes
  | .ringBuffer => 1
  | .objectPool => 0
  | .hybrid =>
    match Tier.ofSize size with
    | .small => size
    | .medium => 1 <<< Chunk.orderFor size
    | .large => alignment.bytes

/-- The block of a range has an alignment, and its offset is a multiple of a number. -/
structure CarveOut.Lies (alignment : Alignment) (grain : Nat) (c : CarveOut) : Prop where
  block : alignment.bytes ∣ c.block.address
  offset : grain ∣ c.offset

open CarveOut (Lies)

variable {H : Type} [Heap H] {t t' : Tracker H} {alignment : Alignment} {Returned : CarveOut → Prop}

/-! ## Each strategy -/

namespace Buddy

variable {b : Buddy}

/-- The region has an alignment. -/
def Seated (alignment : Alignment) (b : Buddy) : Prop :=
  alignment.bytes ∣ b.base.address

omit [Heap H] in
theorem Seated.allocate (h : b.Seated alignment) (size : Nat) : (b.allocate size).2.Seated alignment := by
  show alignment.bytes ∣ (b.carve size).2.base.address
  fun_cases Buddy.carve b size <;> exact h

theorem Seated.release (h : b.Seated alignment) (handle : CarveOut) : (b.release handle).2.Seated alignment := by
  unfold Seated
  rwa [(b.release_fixed handle).2]

theorem Seated.reset (h : b.Seated alignment) : b.reset.Seated alignment := by
  unfold Seated
  rwa [show b.reset.base = b.base from base_giveBack b.live]

theorem Seated.lies (h : b.Seated alignment) {size : Nat} {c : CarveOut} (hc : (b.allocate size).1 = .ok c) :
    c.Lies alignment (1 <<< Chunk.orderFor size) := by
  have hcarve : b.carve size = (.ok c, (b.carve size).2) := Prod.ext hc rfl
  obtain ⟨d, horder, -, rfl, -⟩ := exists_chunk_of_carve hcarve
  refine ⟨h, ?_⟩
  rw [← horder]
  exact Nat.dvd_mul_left _ _

end Buddy

namespace SlabCarver

variable {s s' : SlabCarver}

/-- The slabs have an alignment, and so will those to come. -/
structure Seated (alignment : Alignment) (s : SlabCarver) : Prop where
  alignment_eq : s.alignment = alignment
  base : ∀ slab ∈ s.slabs, alignment.bytes ∣ slab.base.address

namespace Seated

theorem carveFrom (h : s.Seated alignment) {slab : Slab} (hs : slab ∈ s.slabs) :
    (s.carveFrom slab).2.Seated alignment ∧
      ∀ c, (s.carveFrom slab).1 = .ok c → c.Lies alignment slab.objectSize := by
  fun_cases SlabCarver.carveFrom s slab
  case case1 => exact ⟨h, fun c hc => by cases hc⟩
  case case2 index hclear =>
    refine ⟨⟨h.alignment_eq, fun y hy => ?_⟩, fun c hc => ?_⟩
    · obtain ⟨x, hx, rfl⟩ := mem_update.mp hy
      split <;> exact h.base x hx
    · cases hc
      exact ⟨h.base slab hs, Nat.dvd_mul_left _ _⟩

theorem release (h : s.Seated alignment) (handle : CarveOut) : (s.release handle).2.Seated alignment := by
  fun_cases SlabCarver.release s handle
  case case4 =>
    refine ⟨h.alignment_eq, fun y hy => ?_⟩
    obtain ⟨x, hx, rfl⟩ := mem_update.mp hy
    split <;> exact h.base x hx
  all_goals exact h

theorem newSlab (h : s.Seated alignment) {size : Nat} {slab : Slab} (hnew : s.newSlab t size = (.ok slab, s', t')) :
    s'.Seated alignment ∧ slab ∈ s'.slabs ∧ slab.objectSize = size := by
  revert hnew
  fun_cases SlabCarver.newSlab s t size
  case case4 cells hcells hroom base t₁ ha new =>
    intro hnew
    obtain ⟨hslab, hrest⟩ := Prod.mk.inj hnew
    obtain ⟨rfl, -⟩ := Prod.mk.inj hrest
    obtain rfl := Except.ok.inj hslab
    refine ⟨⟨h.alignment_eq, List.forall_mem_append.mpr ⟨h.base, fun x hx => ?_⟩⟩,
      List.mem_append_right _ (List.mem_singleton_self _), rfl⟩
    obtain rfl := List.mem_singleton.mp hx
    exact h.alignment_eq ▸ (Tracker.dvd_address_of_allocate (congrArg Prod.fst ha)).1
  all_goals exact fun hnew => by cases hnew

theorem carve (h : s.Seated alignment) (t : Tracker H) (size : Nat) :
    (s.carve t size).2.1.Seated alignment ∧
      ∀ c, (s.carve t size).1 = .ok c → c.Lies alignment size := by
  fun_cases SlabCarver.carve s t size
  case case1 => exact ⟨h, fun c hc => by cases hc⟩
  case case2 hsize slab hfind result s₁ hcarve =>
    obtain ⟨hslab, hof⟩ := slabFor?_eq_some hfind
    have hfrom := h.carveFrom hslab
    rwa [hcarve, hof] at hfrom
  case case3 hnew =>
    rw [(newSlab_refused hnew).1]
    exact ⟨h, fun c hc => by cases hc⟩
  case case4 hsize hnone slab s₁ t₁ hnew result s₂ hcarve =>
    obtain ⟨hs₁, hslab, hof⟩ := h.newSlab hnew
    have hfrom := hs₁.carveFrom hslab
    rwa [hcarve, hof] at hfrom

theorem allocate (h : s.Seated alignment) (t : Tracker H) (size : Nat) :
    (s.allocate t size).2.1.Seated alignment ∧
      ∀ c, (s.allocate t size).1 = .ok c → c.Lies alignment size := by
  obtain ⟨hs, hc⟩ := h.carve t size
  exact ⟨⟨hs.alignment_eq, hs.base⟩, hc⟩

end Seated

end SlabCarver

namespace Arena

variable {a : Arena}

/-- The blocks have an alignment, and so will those to come. -/
structure Seated (alignment : Alignment) (a : Arena) : Prop where
  alignment_eq : a.alignment = alignment
  block : ∀ b ∈ a.blocks, alignment.bytes ∣ b.address

namespace Seated

omit [Heap H] in
theorem release (h : a.Seated alignment) (handle : CarveOut) : (a.release handle).2.Seated alignment := by
  fun_cases Arena.release a handle <;> exact h

theorem reset (h : a.Seated alignment) (t : Tracker H) : (a.reset t).2.1.Seated alignment where
  alignment_eq := h.alignment_eq
  block b hb := h.block b (List.mem_append_right _ hb)

omit [Heap H] in
theorem grant (h : a.Seated alignment) {start : Nat} (hstart : alignment.bytes ∣ start) (size : Nat) :
    (a.grant start size).2.Seated alignment ∧
      ∀ c, (a.grant start size).1 = .ok c → c.Lies alignment alignment.bytes := by
  refine ⟨⟨h.alignment_eq, h.block⟩, fun c hc => ?_⟩
  cases hc
  exact ⟨h.block _ a.current_mem, hstart⟩

theorem carve (h : a.Seated alignment) (t : Tracker H) (size : Nat) :
    (a.carve t size).2.1.Seated alignment ∧
      ∀ c, (a.carve t size).1 = .ok c → c.Lies alignment alignment.bytes := by
  fun_cases Arena.carve a t size
  case case4 hsize hle start hfull block t₁ ha result a₁ hgrant =>
    have hopened : { a with later := block :: a.later }.Seated alignment :=
      ⟨h.alignment_eq, List.forall_mem_cons.mpr
        ⟨h.alignment_eq ▸ (Tracker.dvd_address_of_allocate (congrArg Prod.fst ha)).1, h.block⟩⟩
    have hlies := hopened.grant (Nat.dvd_zero _) size
    rwa [hgrant] at hlies
  case case5 hsize hle start hroom result a₁ hgrant =>
    have hstart : alignment.bytes ∣ start := by
      rw [← h.alignment_eq]
      exact a.alignment.dvd_alignUp a.offset
    have hlies := h.grant hstart size
    rwa [hgrant] at hlies
  all_goals exact ⟨h, fun c hc => by cases hc⟩

theorem allocate (h : a.Seated alignment) (t : Tracker H) (size : Nat) :
    (a.allocate t size).2.1.Seated alignment ∧
      ∀ c, (a.allocate t size).1 = .ok c → c.Lies alignment alignment.bytes := by
  obtain ⟨hs, hc⟩ := h.carve t size
  exact ⟨⟨hs.alignment_eq, hs.block⟩, hc⟩

end Seated

end Arena

namespace RingBuffer

variable {r : RingBuffer}

/-- The ring has an alignment. -/
def Seated (alignment : Alignment) (r : RingBuffer) : Prop :=
  alignment.bytes ∣ r.base.address

omit [Heap H] in
theorem Seated.allocate (h : r.Seated alignment) (size : Nat) :
    (r.allocate size).2.Seated alignment ∧ ∀ c, (r.allocate size).1 = .ok c → c.Lies alignment 1 := by
  show alignment.bytes ∣ (r.carve size).2.base.address ∧ ∀ c, (r.carve size).1 = .ok c → _
  fun_cases RingBuffer.carve r size
  case case3 =>
    refine ⟨h, fun c hc => ?_⟩
    cases hc
    exact ⟨h, Nat.one_dvd _⟩
  all_goals exact ⟨h, fun c hc => by cases hc⟩

end RingBuffer

namespace ObjectPool

variable {p : ObjectPool}

/-- What waits are whole blocks that were given back, and new blocks will have an alignment. -/
structure Seated (alignment : Alignment) (Returned : CarveOut → Prop) (p : ObjectPool) : Prop where
  alignment_eq : p.alignment = alignment
  queued : ∀ c ∈ p.queued, c.offset = 0 ∧ Returned c

namespace Seated

theorem allocate (h : p.Seated alignment Returned) (t : Tracker H) (size : Nat) :
    (p.allocate t size).2.1.Seated alignment Returned ∧
      ∀ c, (p.allocate t size).1 = .ok c → c.offset = 0 ∧ (alignment.bytes ∣ c.block.address ∨ Returned c) := by
  suffices hcarve : (p.carve t size).2.1.Seated alignment Returned ∧
      ∀ c, (p.carve t size).1 = .ok c → c.offset = 0 ∧ (alignment.bytes ∣ c.block.address ∨ Returned c) from
    ⟨⟨hcarve.1.alignment_eq, hcarve.1.queued⟩, hcarve.2⟩
  fun_cases ObjectPool.carve p t size
  case case2 hsize c hfind =>
    obtain ⟨hoffset, hreturned⟩ := h.queued c (List.mem_of_find?_eq_some hfind)
    refine ⟨⟨h.alignment_eq, fun d hd => h.queued d (List.mem_of_mem_erase hd)⟩, fun d hd => ?_⟩
    cases hd
    exact ⟨hoffset, .inr hreturned⟩
  case case5 hsize hnone hroom block t₁ ha =>
    refine ⟨⟨h.alignment_eq, h.queued⟩, fun d hd => ?_⟩
    cases hd
    exact ⟨rfl, .inl (h.alignment_eq ▸ (Tracker.dvd_address_of_allocate (congrArg Prod.fst ha)).1)⟩
  all_goals exact ⟨h, fun c hc => by cases hc⟩

omit [Heap H] in
theorem release (h : p.Seated alignment Returned) (t : Tracker H) {handle : CarveOut} (hr : Returned handle) :
    (p.release t handle).2.Seated alignment Returned := by
  fun_cases ObjectPool.release p t handle
  case case5 id howned hsize hlive hholds =>
    refine ⟨h.alignment_eq, List.forall_mem_append.mpr ⟨h.queued, fun c hc => ?_⟩⟩
    rw [List.mem_singleton.mp hc]
    exact ⟨Decidable.not_not.mp (not_or.mp howned).1, hr⟩
  all_goals exact h

theorem reset (h : p.Seated alignment Returned) (t : Tracker H) : (p.reset t).2.1.Seated alignment Returned where
  alignment_eq := (p.drain_fixed t p.queued).1.trans h.alignment_eq
  queued _ hc := absurd hc List.not_mem_nil

end Seated

end ObjectPool

/-! ## Any strategy -/

namespace Carver

/-- The blocks behind a carver have an alignment, and so will those to come; what waits in an object pool was given
back. -/
def Seated (alignment : Alignment) (Returned : CarveOut → Prop) : Carver → Prop
  | buddy b => b.Seated alignment
  | slab s => s.Seated alignment
  | arena a => a.Seated alignment
  | ringBuffer r => r.Seated alignment
  | objectPool p => p.Seated alignment Returned
  | hybrid h => h.Each (SlabCarver.Seated alignment) (Buddy.Seated alignment) (Arena.Seated alignment)

theorem seated_of_build {strategy : Strategy} {total : Nat} {new : Carver}
    (hb : Carver.build t strategy total alignment = (.ok new, t')) : new.Seated alignment Returned := by
  have hbase {t t' : Tracker H} {size : Nat} {block : Block} (ha : t.allocate size alignment = (.ok block, t')) :
      alignment.bytes ∣ block.address := (Tracker.dvd_address_of_allocate (congrArg Prod.fst ha)).1
  have hslab {s : SlabCarver} {total : Nat} (hm : SlabCarver.make total alignment = .ok s) : s.Seated alignment := by
    rw [SlabCarver.make_ok hm]
    exact ⟨rfl, fun _ hs => absurd hs List.not_mem_nil⟩
  have harena {t t' : Tracker H} {a : Arena} {total : Nat} (hm : Arena.make t total alignment = (.ok a, t')) :
      a.Seated alignment := by
    obtain ⟨heq, ha⟩ := Arena.make_ok hm
    rw [heq]
    exact ⟨rfl, fun b hb => List.mem_singleton.mp hb ▸ hbase ha⟩
  cases strategy with
  | buddy =>
    obtain ⟨b, hm, rfl⟩ := built_ok hb
    exact hbase (Buddy.make_ok hm).2
  | slab =>
    obtain ⟨s, hm, rfl⟩ := built_ok hb
    exact hslab (Prod.mk.inj hm).1
  | arena =>
    obtain ⟨a, hm, rfl⟩ := built_ok hb
    exact harena hm
  | ringBuffer =>
    obtain ⟨r, hm, rfl⟩ := built_ok hb
    exact hbase (RingBuffer.make_ok hm).2
  | objectPool =>
    obtain ⟨p, hm, rfl⟩ := built_ok hb
    rw [ObjectPool.make_ok (Prod.mk.inj hm).1]
    exact ⟨rfl, fun _ hc => absurd hc List.not_mem_nil⟩
  | hybrid =>
    obtain ⟨h, hm, rfl⟩ := built_ok hb
    obtain ⟨hsmall, t₁, hmedium, hlarge⟩ := Hybrid.make_ok hm
    exact ⟨hslab hsmall, hbase (Buddy.make_ok hmedium).2, harena hlarge⟩

theorem lasting_seated : Lasting H Returned (Seated alignment Returned) where
  allocate {c} t size h := by
    cases c with
    | buddy b => exact Buddy.Seated.allocate h size
    | slab s => exact (SlabCarver.Seated.allocate h t size).1
    | arena a => exact (Arena.Seated.allocate h t size).1
    | ringBuffer r => exact (RingBuffer.Seated.allocate h size).1
    | objectPool p => exact (ObjectPool.Seated.allocate h t size).1
    | hybrid h' =>
      exact Hybrid.Each.allocate h (fun hs => (hs.allocate t size).1) (fun hb => hb.allocate size)
        fun ha => (ha.allocate t size).1
  release {c} t handle hr h := by
    cases c with
    | buddy b => exact Buddy.Seated.release h handle
    | slab s => exact SlabCarver.Seated.release h handle
    | arena a => exact Arena.Seated.release h handle
    | ringBuffer r => exact h
    | objectPool p => exact ObjectPool.Seated.release h t hr
    | hybrid h' => exact Hybrid.Each.release h (fun hs => hs.release handle) fun hb => hb.release handle
  reset {c} t h := by
    cases c with
    | buddy b => exact Buddy.Seated.reset h
    | slab s => exact ⟨h.alignment_eq, fun _ hs => absurd hs List.not_mem_nil⟩
    | arena a => exact Arena.Seated.reset h t
    | ringBuffer r => exact h
    | objectPool p => exact ObjectPool.Seated.reset h t
    | hybrid h' =>
      exact ⟨⟨h.small.alignment_eq, fun _ hs => absurd hs List.not_mem_nil⟩, h.medium.reset,
        h.large.reset (h'.small.reset t).2⟩

/-- A range lies in a block of the carver, where the rule of the strategy puts it, or it was given back before. -/
theorem Seated.lies {c : Carver} (h : c.Seated alignment Returned) {size : Nat} {range : CarveOut}
    (hr : (c.allocate t size).1 = .ok range) :
    c.strategy.grain alignment size ∣ range.offset ∧
      (alignment.bytes ∣ range.block.address ∨ c.strategy = .objectPool ∧ Returned range) := by
  suffices hlies : c.strategy ≠ .objectPool → range.Lies alignment (c.strategy.grain alignment size) by
    by_cases hs : c.strategy = .objectPool
    · cases c with
      | objectPool p =>
        obtain ⟨hoffset, hblock⟩ := (ObjectPool.Seated.allocate h t size).2 range hr
        exact ⟨Nat.zero_dvd.mpr hoffset, hblock.imp_right fun hreturned => ⟨rfl, hreturned⟩⟩
      | _ => cases hs
    · exact ⟨(hlies hs).offset, .inl (hlies hs).block⟩
  intro hs
  cases c with
  | buddy b => exact Buddy.Seated.lies h hr
  | slab s => exact (SlabCarver.Seated.allocate h t size).2 range hr
  | arena a => exact (Arena.Seated.allocate h t size).2 range hr
  | ringBuffer r => exact (RingBuffer.Seated.allocate h size).2 range hr
  | objectPool p => exact absurd rfl hs
  | hybrid h' =>
    replace hr : (h'.allocate t size).1 = .ok range := hr
    have hsize : size ≠ 0 := by
      rintro rfl
      cases hr
    show range.Lies alignment (match Tier.ofSize size with
      | .small => size
      | .medium => 1 <<< Chunk.orderFor size
      | .large => alignment.bytes)
    cases htier : Tier.ofSize size with
    | small =>
      rw [Hybrid.allocate_small hsize htier] at hr
      exact (h.small.allocate t size).2 range hr
    | medium =>
      rw [Hybrid.allocate_medium hsize htier] at hr
      exact h.medium.lies hr
    | large =>
      rw [Hybrid.allocate_large hsize htier] at hr
      exact (h.large.allocate t size).2 range hr

/-! ## Runs -/

/-- Where a range for a request lies that a carver gives out after a run. -/
structure Laid (strategy : Strategy) (alignment : Alignment) (acts : List Act) (size : Nat) (c : CarveOut) :
    Prop where
  offset : strategy.grain alignment size ∣ c.offset
  aligned_iff : strategy ≠ .objectPool → (alignment.bytes ∣ c.address ↔ alignment.bytes ∣ c.offset)
  aligned_of_grain : strategy ≠ .objectPool → alignment.bytes ∣ strategy.grain alignment size →
    alignment.bytes ∣ c.address
  /-- What an object pool gives out again lies where the handle said. -/
  pooled : strategy = .objectPool → alignment.bytes ∣ c.address ∨ .release c ∈ acts

/-- In every run of a carver of any strategy, over whatever tracker and with whatever handles, a carve-out has the
alignment of the carver exactly if its offset has; in an object pool, if it is new or was given back with it. -/
theorem run_laid {strategy : Strategy} {total : Nat} {new : Carver}
    (hb : Carver.build t strategy total alignment = (.ok new, t')) (acts : List Act) {size : Nat} {c : CarveOut}
    (hc : (act (run (new, t') acts) (.allocate size)).1 = .ok (.range c)) :
    Laid strategy alignment acts size c := by
  have hseated : (run (new, t') acts).1.Seated alignment fun handle => .release handle ∈ acts :=
    lasting_seated.run (s := (new, t')) (seated_of_build hb) fun _ hm => hm
  have hstrategy : (run (new, t') acts).1.strategy = strategy :=
    (strategy_run (new, t') acts).trans (strategy_of_build hb)
  obtain ⟨hoffset, hblock⟩ := hseated.lies (act_allocate_eq_ok.mp hc)
  rw [hstrategy] at hoffset hblock
  have hiff (hs : strategy ≠ .objectPool) : alignment.bytes ∣ c.address ↔ alignment.bytes ∣ c.offset :=
    Nat.dvd_add_right (hblock.resolve_right fun h => hs h.1)
  refine ⟨hoffset, hiff, fun hs hg => (hiff hs).mpr (hg.trans hoffset), fun hs => ?_⟩
  rw [hs] at hoffset
  have hzero : c.offset = 0 := Nat.zero_dvd.mp hoffset
  have haddress : c.address = c.block.address := by rw [CarveOut.address, hzero, Nat.add_zero]
  rw [haddress]
  exact hblock.imp_right And.right

/-- The second range of an arena is moved to the next multiple of 64. -/
theorem run_laid_rounded :
    let c : CarveOut :=
      { block := .place 1 65536 4096 4159 .cacheLine 0, offset := 128, grantedSize := 10, requestedSize := 10 }
    ∃ new t', Carver.build (.ofHeap (BumpHeap.ofPlan {}) none) .arena 4096 .cacheLine = (.ok new, t') ∧
      (act (run (new, t') [.allocate 100]) (.allocate 10)).1 = .ok (.range c) ∧
      Laid .arena .cacheLine [.allocate 100] 10 c ∧ Alignment.cacheLine.bytes ∣ c.address := by
  intro c
  obtain ⟨new, t', hb, hc⟩ : ∃ new t',
      Carver.build (.ofHeap (BumpHeap.ofPlan {}) none) .arena 4096 .cacheLine = (.ok new, t') ∧
        (act (run (new, t') [.allocate 100]) (.allocate 10)).1 = .ok (.range c) := by
    refine ⟨_, _, rfl, ?_⟩
    decide +kernel
  have hlaid := run_laid hb [.allocate 100] hc
  exact ⟨new, t', hb, hc, hlaid, hlaid.aligned_of_grain (by decide) (Nat.dvd_refl _)⟩

/-- The second cell of a slab for requests of 12 bytes lies 12 bytes after a multiple of 8. -/
theorem run_misplaced :
    let c : CarveOut :=
      { block := .place 1 65536 64 71 .word 0, offset := 12, grantedSize := 12, requestedSize := 12 }
    ∃ new t', Carver.build (.ofHeap (BumpHeap.ofPlan {}) none) .slab 640 .word = (.ok new, t') ∧
      (act (run (new, t') [.allocate 12]) (.allocate 12)).1 = .ok (.range c) ∧
      ¬ Alignment.word.bytes ∣ c.address := by
  intro c
  refine ⟨_, _, rfl, ?_⟩
  decide +kernel

end Carver

end TrackedHeap
