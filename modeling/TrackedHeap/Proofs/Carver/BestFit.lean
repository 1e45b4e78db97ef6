import Mathlib.Data.Nat.Log
import TrackedHeap.Heap.Bump
import TrackedHeap.Proofs.Carver.Outstanding
import TrackedHeap.Proofs.Ownership.Usage
import TrackedHeap.Proofs.Twin.Blank

/-!
# Best fit

A region of buddies serves a request whenever it can: if any range of the right size at a multiple of that size is
clear of what clients have, one is found, and it is taken from the start of the lowest of the smallest free chunks
that are large enough (`Buddy.run_decides`). Requests are decided by the free chunks, and what is clear by what was
answered before; that the two agree after any history is because free chunks are joined as far as they can be
(`Chunk.Coalesced.exists_free`).
-/

namespace TrackedHeap

namespace Chunk

variable {c d : Chunk} {cs : List Chunk}

theorem pow_clog_lt_double {size : Nat} (h : 0 < size) : 2 ^ Nat.clog 2 size < 2 * size := by
  rcases Nat.lt_or_ge 1 size with hlt | hle
  · have hpred := Nat.pow_pred_clog_lt_self Nat.one_lt_two hlt
    have hpos := Nat.clog_pos Nat.one_lt_two hlt
    rw [← Nat.succ_pred_eq_of_pos hpos, Nat.pow_succ]
    omega
  · obtain rfl : size = 1 := by omega
    decide

/-- The least order for a size is its logarithm, rounded up. -/
theorem orderFor_eq_clog (size : Nat) : orderFor size = Nat.clog 2 size := by
  refine Nat.le_antisymm ?_ ?_
  · rw [orderFor_le_iff, Nat.one_shiftLeft]
    exact Nat.le_pow_clog Nat.one_lt_two size
  · rw [Nat.clog_le_iff_le_pow Nat.one_lt_two, ← Nat.one_shiftLeft]
    exact orderFor_le_iff.mp (Nat.le_refl _)

/-- The first chunk of a sorted list that passes comes before all others that do. -/
theorem Sorted.first_of_find? {p : Chunk → Bool} (h : Sorted cs) (hf : cs.find? p = some c) (hd : d ∈ cs)
    (hp : p d = true) : d = c ∨ c.precedes d = true := by
  obtain ⟨-, before, after, rfl, hbefore⟩ := List.find?_eq_some_iff_append.mp hf
  rcases List.mem_append.mp hd with hd | hd
  · exact absurd hp (by simpa using hbefore d hd)
  · rcases List.mem_cons.mp hd with rfl | hd
    · exact .inl rfl
    · have hafter := (List.pairwise_append.mp h).2.1
      exact .inr ((List.pairwise_cons.mp hafter).1 d hd)

theorem offset_lower (h : 0 < c.order) : c.lower.offset = c.offset := by
  obtain ⟨k, hk⟩ : ∃ k, c.order = k + 1 := ⟨c.order - 1, by omega⟩
  rw [offset, offset, size_eq, size_eq, lower, hk, Nat.add_sub_cancel, Nat.pow_succ]
  simp only
  rw [Nat.mul_comm 2, Nat.mul_assoc, Nat.mul_comm 2]

/-- What is kept in halving is the start of the chunk. -/
theorem offset_split {n : Nat} (h : n ≤ c.order) (cs : List Chunk) : (split n c cs).1.offset = c.offset := by
  induction n generalizing c cs with
  | zero => rfl
  | succ n ih =>
    have hpos : 0 < c.order := by omega
    refine (ih (c := c.lower) ?_ _).trans (offset_lower hpos)
    simp only [lower]
    omega

end Chunk

namespace Buddy

variable {H : Type} {t t' : Tracker H} {b b' : Buddy} {out : List CarveOut} {size : Nat} {c : CarveOut}

/-- A range for a request, at a multiple of its size, that is clear of what clients have. -/
structure Clear (b : Buddy) (out : List CarveOut) (size start : Nat) : Prop where
  dvd : 2 ^ Nat.clog 2 size ∣ start
  inside : start + 2 ^ Nat.clog 2 size ≤ b.total
  apart : ∀ l ∈ out, Extent.Apart ⟨start, 2 ^ Nat.clog 2 size⟩ l.span

/-- What a request is served with. -/
structure Serves (b : Buddy) (out : List CarveOut) (size : Nat) (c : CarveOut) : Prop where
  block : c.block = b.base
  requested : c.requestedSize = size
  granted : c.grantedSize = 2 ^ Nat.clog 2 size
  enough : size ≤ c.grantedSize
  /-- Less than half of what is granted is not needed. -/
  lt_double : c.grantedSize < 2 * size
  clear : b.Clear out size c.offset
  /-- It starts at the lowest of the smallest free chunks that are large enough. -/
  first : ∃ order, Nat.clog 2 size ≤ order ∧ b.isFreeAt order c.offset = true ∧
    (∀ k, Nat.clog 2 size ≤ k → k < order → b.freeAt k = 0) ∧
    ∀ o, b.isFreeAt order o = true → c.offset ≤ o

/-! ## Where a request is served from -/

/-- A request that is granted gets the start of the first free chunk that is large enough. -/
theorem exists_first_of_carve (h : b.carve size = (.ok c, b')) :
    0 < size ∧ ∃ e d : Chunk, (b.free.find? fun c => Chunk.orderFor size ≤ c.order) = some e ∧
      d.order = Chunk.orderFor size ∧ d.offset = e.offset ∧ c = b.carveOut d size := by
  revert h
  fun_cases Buddy.carve b size
  case case3 hsize order e hfind chunk free hsplit =>
    intro h
    cases h
    have hle : order ≤ e.order := by simpa using List.find?_some hfind
    have horder := Chunk.order_split (e.order - order) e (b.free.erase e)
    have hoffset := Chunk.offset_split (Nat.sub_le e.order order) (b.free.erase e)
    rw [hsplit] at horder hoffset
    exact ⟨Nat.pos_of_ne_zero hsize, e, chunk, hfind, by simp only at horder; omega, hoffset, rfl⟩
  all_goals exact fun h => by cases h

/-- A request that is refused finds no free chunk that is large enough. -/
theorem find?_of_carve_error {e : MemoryError} (hsize : 0 < size) (h : b.carve size = (.error e, b')) :
    (b.free.find? fun c => Chunk.orderFor size ≤ c.order) = none ∧ e = .outOfMemory size (b.total - b.allocated) := by
  revert h
  fun_cases Buddy.carve b size
  case case1 hzero => exact absurd hzero (Nat.ne_of_gt hsize)
  case case2 hnone => exact fun h => ⟨hnone, (Except.error.inj (Prod.mk.inj h).1).symm⟩
  case case3 => exact fun h => by cases h

/-- The first free chunk that is large enough is the lowest of the smallest. -/
theorem Coalesced.first (h : b.Coalesced) {least : Nat} {e : Chunk}
    (hf : (b.free.find? fun c => least ≤ c.order) = some e) :
    least ≤ e.order ∧ b.isFreeAt e.order e.offset = true ∧ (∀ k, least ≤ k → k < e.order → b.freeAt k = 0) ∧
      ∀ o, b.isFreeAt e.order o = true → e.offset ≤ o := by
  have hmem := List.mem_of_find?_eq_some hf
  have hbefore {f : Chunk} (hfm : f ∈ b.free) (hle : least ≤ f.order) : f = e ∨ e.precedes f = true :=
    Chunk.Sorted.first_of_find? (Chunk.Coalesced.sorted h) hf hfm (by simpa using hle)
  refine ⟨by simpa using List.find?_some hf, ?_, fun k hk hlt => ?_, fun o ho => ?_⟩
  · simp only [isFreeAt, List.any_eq_true, Bool.and_eq_true, beq_iff_eq]
    exact ⟨e, hmem, rfl, rfl⟩
  · -- a smaller chunk that is large enough would have been found before
    rw [freeAt, List.length_eq_zero_iff, List.filter_eq_nil_iff]
    intro f hfm hfk
    obtain rfl : f.order = k := by simpa using hfk
    rcases hbefore hfm hk with rfl | hp
    · exact Nat.lt_irrefl _ hlt
    · rw [Chunk.precedes_iff] at hp
      omega
  · simp only [isFreeAt, List.any_eq_true, Bool.and_eq_true, beq_iff_eq] at ho
    obtain ⟨f, hfm, horder, rfl⟩ := ho
    have hle : least ≤ f.order := by
      rw [horder]
      simpa using List.find?_some hf
    rcases hbefore hfm hle with rfl | hp
    · exact Nat.le_refl _
    · rw [Chunk.precedes_iff] at hp
      have hindex : e.index ≤ f.index := by omega
      rw [Chunk.offset, Chunk.offset, Chunk.size, Chunk.size, horder]
      exact Nat.mul_le_mul_right _ hindex

/-! ## Requests -/

theorem Sound.serves (hs : b.Sound t out) (hc : (b.allocate size).1 = .ok c) : b.Serves out size c := by
  have hcarve : b.carve size = (.ok c, (b.carve size).2) := Prod.ext hc rfl
  obtain ⟨hpos, e, d, hfind, horder, hoffset, rfl⟩ := exists_first_of_carve hcarve
  have hgranted : (b.carveOut d size).grantedSize = 2 ^ Nat.clog 2 size := by
    show d.size = _
    rw [Chunk.size_eq, horder, Chunk.orderFor_eq_clog]
  have hafter := hs.carve size
  rw [hcarve] at hafter
  have hin := hafter.owned.fits _ List.mem_cons_self
  have hapart := (List.pairwise_cons.mp hafter.apart).1
  obtain ⟨hleast, hfree, hsmaller, hlowest⟩ := hs.coalesced.first hfind
  rw [Chunk.orderFor_eq_clog] at hleast hsmaller
  refine ⟨rfl, rfl, hgranted, ?_, ?_, ⟨?_, ?_, fun l hl => ?_⟩, e.order, hleast, ?_, hsmaller, ?_⟩
  · rw [hgranted]
    exact Nat.le_pow_clog Nat.one_lt_two size
  · rw [hgranted]
    exact Chunk.pow_clog_lt_double hpos
  · rw [← hgranted]
    exact Nat.dvd_mul_left _ _
  · rw [← hgranted, total_eq, ← hs.base_size]
    exact hin
  · rw [← hgranted]
    exact hapart l hl (by rw [hs.block l hl]; rfl)
  · show b.isFreeAt e.order d.offset = true
    rwa [hoffset]
  · intro o ho
    show d.offset ≤ o
    rw [hoffset]
    exact hlowest o ho

/-- Whatever is clear lies in a free chunk, so there is one that is large enough. -/
theorem Sound.find?_ne_none (hs : b.Sound t out) (he : b.Exact out) {start : Nat} (hc : b.Clear out size start) :
    (b.free.find? fun c => Chunk.orderFor size ≤ c.order) ≠ none := by
  let q : Chunk := ⟨Nat.clog 2 size, start / 2 ^ Nat.clog 2 size⟩
  have hoffset : q.offset = start := by
    rw [Chunk.offset_mk, Nat.div_mul_cancel hc.dvd]
  have hextent : q.extent = ⟨start, 2 ^ Nat.clog 2 size⟩ := by
    rw [Chunk.extent, hoffset, Chunk.size_mk]
  have hinside : q.Inside b.maxOrder := by
    rw [Chunk.Inside, hoffset, Chunk.size_mk, ← total_eq]
    exact hc.inside
  obtain ⟨f, hf, horder, -⟩ := Chunk.Coalesced.exists_free hs.coalesced hinside fun l hl => by
    obtain ⟨c, hmem, hspan⟩ := he.filled l hl
    rw [hextent, ← hspan]
    exact hc.apart c hmem
  intro hnone
  have hsmall := List.find?_eq_none.mp hnone f hf
  rw [Chunk.orderFor_eq_clog, decide_eq_true_eq] at hsmall
  exact hsmall horder

/-- A request is decided by what is clear, and granted in one place only. -/
structure Decides (b : Buddy) (out : List CarveOut) (size : Nat) : Prop where
  granted_iff : (∃ c, (b.allocate size).1 = .ok c) ↔
    Nat.clog 2 size ≤ b.maxOrder ∧ ∃ start, b.Clear out size start
  serves : ∀ c, (b.allocate size).1 = .ok c → b.Serves out size c
  refused : ∀ e, (b.allocate size).1 = .error e → e = .outOfMemory size (b.total - b.allocated)

theorem Sound.decides (hs : b.Sound t out) (he : b.Exact out) (hsize : 0 < size) : b.Decides out size where
  granted_iff := by
    constructor
    · rintro ⟨c, hc⟩
      have hclear := (hs.serves hc).clear
      refine ⟨?_, c.offset, hclear⟩
      have hle : 2 ^ Nat.clog 2 size ≤ 2 ^ b.maxOrder := by
        rw [← total_eq]
        exact Nat.le_trans (Nat.le_add_left _ _) hclear.inside
      exact (Nat.pow_le_pow_iff_right Nat.one_lt_two).mp hle
    · rintro ⟨-, start, hclear⟩
      rcases hc : (b.allocate size).1 with e | c
      · exact absurd (find?_of_carve_error hsize (Prod.ext hc rfl)).1 (hs.find?_ne_none he hclear)
      · exact ⟨c, rfl⟩
  serves c hc := hs.serves hc
  refused e hc := (find?_of_carve_error hsize (Prod.ext hc rfl)).2

/-! ## Runs -/

/-- A region and what clients have of it. What becomes of the blocks of the tracker does not concern it, so they
are those that it was made over. -/
def Held (t : Tracker H) (s : Carver × Tracker H) (out : List CarveOut) : Prop :=
  ∃ b, s.1 = .buddy b ∧ b.Sound t out ∧ b.Exact out

variable [Heap H]

theorem Held.act {s : Carver × Tracker H} (h : Held t s out) (a : Carver.Act) :
    Held t (Carver.act s a).2 (Carver.outAfter s out a) := by
  obtain ⟨c, u⟩ := s
  obtain ⟨b, rfl, hs, he⟩ := h
  cases a with
  | tracker a => exact ⟨b, rfl, hs, he⟩
  | allocate size => exact ⟨_, rfl, hs.allocate size, he.allocate size⟩
  | release handle => exact ⟨_, rfl, hs.release handle, he.release hs handle⟩
  | reset => exact ⟨_, rfl, hs.reset, exact_reset b⟩

theorem held_run {total : Nat} {alignment : Alignment} {new : Carver}
    (hb : Carver.build t .buddy total alignment = (.ok new, t')) (acts : List Carver.Act) :
    Held t' (Carver.run (new, t') acts) (Carver.outstanding (new, t') acts) := by
  obtain ⟨b, hm, rfl⟩ := Carver.built_ok hb
  refine Carver.outstanding_run (fun s out a h => h.act a) ⟨b, rfl, (sound_of_make hm).1, ?_⟩ acts
  rw [(make_ok hm).1]
  exact exact_ofBase _ _

/-- After every run, with whatever handles, a request is granted exactly if some range of the least power of two
that holds it, at a multiple of its size, is clear of all that clients have. It gets such a range, at the start of
the lowest of the smallest free chunks that are large enough. -/
theorem run_decides {total : Nat} {alignment : Alignment} {new : Carver}
    (hb : Carver.build t .buddy total alignment = (.ok new, t')) (acts : List Carver.Act) :
    ∃ b, (Carver.run (new, t') acts).1 = .buddy b ∧ b.maxOrder = Nat.clog 2 total ∧
      ∀ size, 0 < size → b.Decides (Carver.outstanding (new, t') acts) size := by
  obtain ⟨b, hrun, hs, he⟩ := held_run hb acts
  refine ⟨b, hrun, ?_, fun size hsize => hs.decides he hsize⟩
  obtain ⟨b₀, hm, rfl⟩ := Carver.built_ok hb
  have hblank : b.blank = b₀.blank := by
    simpa [hrun, Carver.blank] using Carver.blank_run (c := .buddy b₀) nofun t' acts
  have horder := congrArg maxOrder hblank
  refine horder.trans ?_
  rw [(make_ok hm).1]
  exact Chunk.orderFor_eq_clog total

/-- Of 64 bytes, 16 are with a client, at 16: though 48 are left, 33 do not fit anywhere, and 20 are served from the
second half. -/
theorem decides_around_sixteen :
    let base := Block.place 1 65536 64 64 .byte 0
    let t := (Tracker.allocate (.ofHeap (BumpHeap.ofPlan { }) none) 64 .byte).2
    let acts : List Carver.Act := [.allocate 5, .allocate 16, .release ⟨base, 0, 8, 5⟩]
    let out := Carver.outstanding (.buddy (ofBase base 6), t) acts
    let b := (((ofBase base 6).allocate 5).2.allocate 16).2.release ⟨base, 0, 8, 5⟩ |>.2
    (Carver.run (.buddy (ofBase base 6), t) acts).1 = .buddy b ∧ out = [⟨base, 16, 16, 16⟩] ∧
      (b.allocate 33).1 = .error (.outOfMemory 33 48) ∧ (∀ start, ¬ b.Clear out 33 start) ∧
      b.Serves out 20 ⟨base, 32, 32, 20⟩ := by
  intro base t acts out b
  have hb : Carver.build (.ofHeap (BumpHeap.ofPlan { }) none) .buddy 64 .byte = (.ok (.buddy (ofBase base 6)), t) :=
    rfl
  obtain ⟨b', hrun, -, hall⟩ := run_decides hb acts
  obtain rfl : b = b' := Carver.buddy.inj hrun
  have hrefused : (b.allocate 33).1 = .error (.outOfMemory 33 48) := by decide +kernel
  refine ⟨hrun, by decide +kernel, hrefused, fun start hclear => ?_, (hall 20 (by decide)).serves _ (by decide +kernel)⟩
  obtain ⟨c, hc⟩ := (hall 33 (by decide)).granted_iff.mpr ⟨by decide, start, hclear⟩
  rw [hrefused] at hc
  cases hc

end Buddy

end TrackedHeap
