import TrackedHeap.Carver.Arena
import TrackedHeap.Carver.RingBuffer
import TrackedHeap.Proofs.Ownership.Basic

/-!
# What clients have of arenas and rings

Both grant ranges that follow one another. In an arena, the ranges of the newest block end before the place
for the next one; in a ring, all ranges do as long as it is not full. Ranges come back only all together.
-/

namespace TrackedHeap

variable {H : Type} {t t' : Tracker H} {out : List CarveOut}

namespace RingBuffer

variable {r r' : RingBuffer}

/-- The block behind the ring. -/
def backing (r : RingBuffer) : List Nat :=
  [r.base.id]

/-- The ring lies in a live block, and unless it is full the place for the next range is after all that
clients have. -/
structure Sound (r : RingBuffer) (t : Tracker H) (out : List CarveOut) : Prop where
  base_mem : r.base ∈ t.blocks
  base_size : r.base.requestedSize = r.capacity
  block : ∀ c ∈ out, c.block = r.base
  fits : ∀ c ∈ out, c.offset + c.grantedSize ≤ r.capacity
  before : r.full = false → ∀ c ∈ out, c.offset + c.grantedSize ≤ r.writePosition
  enough : ∀ c ∈ out, c.requestedSize ≤ c.grantedSize
  apart : out.Pairwise CarveOut.Apart

namespace Sound

theorem owned (h : r.Sound t out) : Owned t r.backing out where
  live id hid := ⟨r.base, h.base_mem, (List.mem_singleton.mp hid).symm⟩
  mem c hc := h.block c hc ▸ h.base_mem
  backed c hc := by rw [h.block c hc]; exact List.mem_singleton_self _
  fits c hc := by rw [h.block c hc, h.base_size]; exact h.fits c hc
  enough := h.enough
  apart := h.apart

theorem keeps (h : r.Sound t out) (hk : t.Keeps t' r.backing) : r.Sound t' out :=
  { h with base_mem := hk _ h.base_mem (List.mem_singleton_self _) }

theorem sublist {out' : List CarveOut} (h : r.Sound t out) (hs : out'.Sublist out) :
    r.Sound t out' where
  base_mem := h.base_mem
  base_size := h.base_size
  block c hc := h.block c (hs.subset hc)
  fits c hc := h.fits c (hs.subset hc)
  before hf c hc := h.before hf c (hs.subset hc)
  enough c hc := h.enough c (hs.subset hc)
  apart := h.apart.sublist hs

theorem carve (h : r.Sound t out) (size : Nat) :
    (r.carve size).2.Sound t (CarveOut.taken (r.carve size).1 out) := by
  fun_cases RingBuffer.carve r size
  case case1 => exact h
  case case2 => exact h
  case case3 hsize hroom stop =>
    have hfull : r.full = false := by
      by_contra hf
      rw [Bool.not_eq_false] at hf
      simp only [available, hf, if_true] at hroom
      omega
    have hle : stop ≤ r.capacity := by
      simp only [available, hfull, Bool.false_eq_true, if_false] at hroom
      omega
    have hbefore := h.before hfull
    refine ⟨h.base_mem, h.base_size, ?_, ?_, fun hnot => ?_, ?_, ?_⟩
    · exact List.forall_mem_cons.mpr ⟨rfl, h.block⟩
    · exact List.forall_mem_cons.mpr ⟨hle, h.fits⟩
    · have hne : stop ≠ r.capacity := by simpa using hnot
      rw [if_neg hne]
      refine List.forall_mem_cons.mpr ⟨Nat.le_refl _, fun c hc => ?_⟩
      exact Nat.le_trans (hbefore c hc) (Nat.le_add_right _ _)
    · exact List.forall_mem_cons.mpr ⟨Nat.le_refl _, h.enough⟩
    · exact List.pairwise_cons.mpr ⟨fun c hc _ => .inr (hbefore c hc), h.apart⟩

theorem allocate (h : r.Sound t out) (size : Nat) :
    (r.allocate size).2.Sound t (CarveOut.taken (r.allocate size).1 out) :=
  have hc := h.carve size
  ⟨hc.base_mem, hc.base_size, hc.block, hc.fits, hc.before, hc.enough, hc.apart⟩

theorem reset (h : r.Sound t out) : r.reset.Sound t [] where
  base_mem := h.base_mem
  base_size := h.base_size
  block := by simp
  fits := by simp
  before := by simp
  enough := by simp
  apart := List.Pairwise.nil

end Sound

theorem backing_allocate (r : RingBuffer) (size : Nat) :
    (r.allocate size).2.backing = r.backing := by
  show (r.carve size).2.backing = r.backing
  fun_cases RingBuffer.carve r size <;> rfl

/-- A new ring, behind which is a new block. -/
theorem sound_of_make [Heap H] {total : Nat} {alignment : Alignment}
    (hm : make t total alignment = (.ok r, t')) :
    r.Sound t' [] ∧ Tracker.Turnover t t' [] r.backing := by
  revert hm
  fun_cases RingBuffer.make t total alignment
  case case3 base t₁ ha =>
    intro hm
    cases hm
    obtain ⟨hblocks, -, -, hsize⟩ := Tracker.allocate_ok ha
    refine ⟨⟨?_, hsize, by simp, by simp, by simp, by simp, List.Pairwise.nil⟩,
      Tracker.turnover_allocate_ok ha []⟩
    rw [hblocks]
    exact List.mem_append_right _ (List.mem_singleton_self _)
  all_goals exact fun hm => by cases hm

/-- A ring that was refused leaves all blocks as they were. -/
theorem turnover_make_error [Heap H] {total : Nat} {alignment : Alignment} {e : MemoryError}
    (hm : make t total alignment = (.error e, t')) : Tracker.Turnover t t' [] [] := by
  revert hm
  fun_cases RingBuffer.make t total alignment
  case case2 ha =>
    intro hm
    obtain ⟨-, rfl⟩ := Prod.mk.inj hm
    exact Tracker.turnover_allocate_error ha []
  case case3 => exact fun hm => by cases hm
  all_goals exact fun hm => (Prod.mk.inj hm).2 ▸ .refl _ _

end RingBuffer

namespace Arena

variable {a a' : Arena}

/-- The blocks behind the arena. -/
def backing (a : Arena) : List Nat :=
  a.blocks.map Block.id

/-- The blocks of the arena are live and of one size, and in the newest one the place for the next range is
after all that clients have. -/
structure Sound (a : Arena) (t : Tracker H) (out : List CarveOut) : Prop where
  block_mem : ∀ b ∈ a.blocks, b ∈ t.blocks
  block_size : ∀ b ∈ a.blocks, b.requestedSize = a.arenaSize
  ids : a.backing.Nodup
  block : ∀ c ∈ out, c.block ∈ a.blocks
  fits : ∀ c ∈ out, c.offset + c.grantedSize ≤ a.arenaSize
  before : ∀ c ∈ out, c.block = a.current → c.offset + c.grantedSize ≤ a.offset
  enough : ∀ c ∈ out, c.requestedSize ≤ c.grantedSize
  apart : out.Pairwise CarveOut.Apart

theorem current_mem (a : Arena) : a.current ∈ a.blocks := by
  unfold current blocks
  cases a.later <;> simp

namespace Sound

theorem eq_of_id (h : a.Sound t out) {b c : Block} (hb : b ∈ a.blocks) (hc : c ∈ a.blocks)
    (he : b.id = c.id) : b = c :=
  List.inj_on_of_nodup_map h.ids hb hc he

theorem owned (h : a.Sound t out) : Owned t a.backing out where
  live id hid := by
    obtain ⟨b, hb, rfl⟩ := List.mem_map.mp hid
    exact ⟨b, h.block_mem b hb, rfl⟩
  mem c hc := h.block_mem _ (h.block c hc)
  backed c hc := List.mem_map_of_mem (h.block c hc)
  fits c hc := by rw [h.block_size _ (h.block c hc)]; exact h.fits c hc
  enough := h.enough
  apart := h.apart

theorem keeps (h : a.Sound t out) (hk : t.Keeps t' a.backing) : a.Sound t' out :=
  { h with block_mem := fun b hb => hk b (h.block_mem b hb) (List.mem_map_of_mem hb) }

theorem sublist {out' : List CarveOut} (h : a.Sound t out) (hs : out'.Sublist out) :
    a.Sound t out' where
  block_mem := h.block_mem
  block_size := h.block_size
  ids := h.ids
  block c hc := h.block c (hs.subset hc)
  fits c hc := h.fits c (hs.subset hc)
  before c hc := h.before c (hs.subset hc)
  enough c hc := h.enough c (hs.subset hc)
  apart := h.apart.sublist hs

theorem with_tally (h : a.Sound t out) (tally : Tally) : { a with tally }.Sound t out :=
  ⟨h.block_mem, h.block_size, h.ids, h.block, h.fits, h.before, h.enough, h.apart⟩

/-- A range in the newest block, after all that clients have there. -/
theorem grant (h : a.Sound t out) (start size : Nat) (hle : start + size ≤ a.arenaSize)
    (hstart : ∀ c ∈ out, c.block = a.current → c.offset + c.grantedSize ≤ start) :
    (a.grant start size).2.Sound t (CarveOut.taken (a.grant start size).1 out) where
  block_mem := h.block_mem
  block_size := h.block_size
  ids := h.ids
  block := List.forall_mem_cons.mpr ⟨a.current_mem, h.block⟩
  fits := List.forall_mem_cons.mpr ⟨hle, h.fits⟩
  before := List.forall_mem_cons.mpr
    ⟨fun _ => Nat.le_refl _, fun c hc he => Nat.le_trans (hstart c hc he) (Nat.le_add_right _ _)⟩
  enough := List.forall_mem_cons.mpr ⟨Nat.le_refl _, h.enough⟩
  apart := by
    refine List.pairwise_cons.mpr ⟨fun c hc hid => .inr (hstart c hc ?_), h.apart⟩
    exact h.eq_of_id (h.block c hc) a.current_mem hid.symm

variable [Heap H]

/-- One more block, in which clients have nothing yet. -/
theorem opened (h : a.Sound t out) (hn : t.Numbered) {block : Block}
    (ha : t.allocate a.arenaSize a.alignment = (.ok block, t')) :
    { a with later := block :: a.later }.Sound t' out ∧
      (∀ c ∈ out, c.block ≠ block) ∧ Tracker.Turnover t t' a.backing (block.id :: a.backing) := by
  obtain ⟨hblocks, -, -, hsize⟩ := Tracker.allocate_ok ha
  have hnew : ∀ b ∈ a.blocks, b.id ≠ block.id := fun b hb => hn.ne_of_allocate ha (h.block_mem b hb)
  refine ⟨⟨?_, ?_, ?_, ?_, h.fits, ?_, h.enough, h.apart⟩, ?_, Tracker.turnover_allocate_ok ha _⟩
  · refine List.forall_mem_cons.mpr ⟨?_, fun b hb => ?_⟩ <;> rw [hblocks]
    · exact List.mem_append_right _ (List.mem_singleton_self _)
    · exact List.mem_append_left _ (h.block_mem b hb)
  · exact List.forall_mem_cons.mpr ⟨hsize, h.block_size⟩
  · refine List.nodup_cons.mpr ⟨fun hm => ?_, h.ids⟩
    obtain ⟨b, hb, he⟩ := List.mem_map.mp hm
    exact hnew b hb he
  · exact fun c hc => List.mem_cons_of_mem _ (h.block c hc)
  · exact fun c hc he => absurd (congrArg Block.id he) (hnew _ (h.block c hc))
  · exact fun c hc he => hnew _ (h.block c hc) (congrArg Block.id he)

theorem carve (h : a.Sound t out) (hn : t.Numbered) (size : Nat) :
    (a.carve t size).2.1.Sound (a.carve t size).2.2 (CarveOut.taken (a.carve t size).1 out) ∧
      Tracker.Turnover t (a.carve t size).2.2 a.backing (a.carve t size).2.1.backing := by
  fun_cases Arena.carve a t size
  case case1 => exact ⟨h, .refl _ _⟩
  case case2 => exact ⟨h, .refl _ _⟩
  case case3 ha =>
    have hturn := Tracker.turnover_allocate_error ha a.backing
    exact ⟨h.keeps hturn.keeps, hturn⟩
  case case4 hsize hle start hfull block t₁ ha result a₁ hgrant =>
    obtain ⟨h₁, hnone, hturn⟩ := h.opened hn ha
    have hg := h₁.grant 0 size (by simp only; omega) fun c hc he => absurd he (hnone c hc)
    rw [hgrant] at hg
    obtain ⟨-, rfl⟩ := Prod.mk.inj hgrant
    exact ⟨hg, hturn⟩
  case case5 hsize hle start hroom result a₁ hgrant =>
    have hg := h.grant start size (by omega) fun c hc he =>
      Nat.le_trans (h.before c hc he) (a.alignment.le_alignUp a.offset)
    rw [hgrant] at hg
    obtain ⟨-, rfl⟩ := Prod.mk.inj hgrant
    exact ⟨hg, .refl _ _⟩

theorem allocate (h : a.Sound t out) (hn : t.Numbered) (size : Nat) :
    (a.allocate t size).2.1.Sound (a.allocate t size).2.2
        (CarveOut.taken (a.allocate t size).1 out) ∧
      Tracker.Turnover t (a.allocate t size).2.2 a.backing (a.allocate t size).2.1.backing :=
  ⟨(h.carve hn size).1.with_tally _, (h.carve hn size).2⟩

end Sound

variable [Heap H]

theorem freeBlocks_eq (t : Tracker H) (blocks : List Block) :
    (freeBlocks t blocks).2 = t.returnAll blocks := by
  refine (List.foldl_hom Prod.snd fun s block => ?_).symm
  obtain ⟨result, t⟩ := s
  simp only
  split <;> next h => rw [h]

theorem Sound.reset (h : a.Sound t out) :
    (a.reset t).2.1.Sound (a.reset t).2.2 [] ∧
      Tracker.Turnover t (a.reset t).2.2 a.backing (a.reset t).2.1.backing := by
  have hids := h.ids
  rw [backing, blocks, List.map_append, List.nodup_append] at hids
  have hturn : Tracker.Turnover t (a.reset t).2.2 a.backing (a.reset t).2.1.backing := by
    show Tracker.Turnover t (freeBlocks t a.later.reverse).2 a.backing [a.first.id]
    rw [freeBlocks_eq]
    refine t.turnover_returnAll (fun b hb => ?_) (fun id hid => ?_) fun b hb hid => ?_
    · exact List.mem_map_of_mem (List.mem_append_left _ (List.mem_reverse.mp hb))
    · rw [List.mem_singleton.mp hid]
      exact List.mem_map_of_mem (List.mem_append_right _ (List.mem_singleton_self _))
    · refine hids.2.2 b.id (List.mem_map_of_mem (List.mem_reverse.mp hb)) a.first.id (by simp) ?_
      exact List.mem_singleton.mp hid
  refine ⟨⟨fun b hb => ?_, fun b hb => ?_, List.nodup_singleton _, by simp, by simp, by simp, by simp,
    List.Pairwise.nil⟩, hturn⟩
  · obtain rfl : b = a.first := List.mem_singleton.mp hb
    exact hturn.keeps _ (h.block_mem _ (List.mem_append_right _ hb)) (List.mem_singleton_self _)
  · obtain rfl : b = a.first := List.mem_singleton.mp hb
    exact h.block_size _ (List.mem_append_right _ hb)

theorem freeBlocks_ok {blocks : List Block} (h : t.Returnable blocks) :
    (freeBlocks t blocks).1 = .ok () := by
  induction blocks generalizing t with
  | nil => rfl
  | cons block blocks ih =>
    obtain ⟨b, hfree⟩ := Tracker.free_of_live (h.live block List.mem_cons_self)
    have htail := h.tail
    generalize (t.free block).2 = t' at hfree htail
    have hstep : freeBlocks t (block :: blocks) = freeBlocks t' blocks := by
      simp only [freeBlocks, List.foldl_cons, hfree]
    rw [hstep]
    exact ih htail

/-- A reset is never refused. -/
theorem Sound.reset_ok (h : a.Sound t out) : (a.reset t).1 = .ok () := by
  refine freeBlocks_ok ⟨fun b hb => ?_, ?_⟩
  · exact ⟨b, h.block_mem b (List.mem_append_left _ (List.mem_reverse.mp hb)), rfl⟩
  · have hids := h.ids
    rw [backing, blocks, List.map_append, List.nodup_append] at hids
    rw [List.map_reverse]
    exact List.nodup_reverse.mpr hids.1

/-- All blocks go back to the tracker. -/
theorem turnover_dispose (a : Arena) (t : Tracker H) :
    Tracker.Turnover t (a.dispose t) a.backing [] := by
  rw [dispose, freeBlocks_eq]
  refine t.turnover_returnAll (fun b hb => ?_) (by simp) (by simp)
  exact List.mem_map_of_mem (List.mem_reverse.mp hb)

/-- A new arena, behind which is a new block. -/
theorem sound_of_make {total : Nat} {alignment : Alignment}
    (hm : make t total alignment = (.ok a, t')) :
    a.Sound t' [] ∧ Tracker.Turnover t t' [] a.backing := by
  revert hm
  fun_cases Arena.make t total alignment
  case case3 size first t₁ ha =>
    intro hm
    cases hm
    obtain ⟨hblocks, -, -, hsize⟩ := Tracker.allocate_ok ha
    refine ⟨⟨fun b hb => ?_, fun b hb => ?_, List.nodup_singleton _, by simp, by simp, by simp,
      by simp, List.Pairwise.nil⟩, Tracker.turnover_allocate_ok ha []⟩
    · obtain rfl : b = first := List.mem_singleton.mp hb
      rw [hblocks]
      exact List.mem_append_right _ (List.mem_singleton_self _)
    · obtain rfl : b = first := List.mem_singleton.mp hb
      exact hsize
  all_goals exact fun hm => by cases hm

/-- An arena that was refused leaves all blocks as they were. -/
theorem turnover_make_error {total : Nat} {alignment : Alignment} {e : MemoryError}
    (hm : make t total alignment = (.error e, t')) : Tracker.Turnover t t' [] [] := by
  revert hm
  fun_cases Arena.make t total alignment
  case case2 ha =>
    intro hm
    obtain ⟨-, rfl⟩ := Prod.mk.inj hm
    exact Tracker.turnover_allocate_error ha []
  case case3 => exact fun hm => by cases hm
  all_goals exact fun hm => (Prod.mk.inj hm).2 ▸ .refl _ _

end Arena

end TrackedHeap
