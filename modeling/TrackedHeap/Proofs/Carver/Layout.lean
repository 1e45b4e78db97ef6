import TrackedHeap.Heap.Bump
import TrackedHeap.Proofs.Carver.Aligned
import TrackedHeap.Proofs.Carver.Detached
import TrackedHeap.Proofs.Ownership.Usage
import TrackedHeap.Proofs.Tracker.Stale

/-!
# The layout of arenas

Since the last reset, ranges of one block follow one another in the order in which they were granted, each at a
multiple of the alignment and inside the block (`Arena.LaidOut`). A request is served from the newest block, and
another one is asked for exactly if the rest of that is too short (`Arena.Bumps`). A reset leaves the first block
alone, in the arena and in the tracker, also if it reports that some block was gone (`Arena.Rewinds`). All this holds
after every run, whatever is done to the blocks meanwhile (`Arena.run_laid_out`).
-/

namespace TrackedHeap

open CarveOut (Lies grantedBytes)

/-- In one block, the range comes after another one. -/
def CarveOut.Follows (c d : CarveOut) : Prop :=
  c.block.id = d.block.id → d.offset < c.offset ∧ d.offset + d.grantedSize ≤ c.offset

namespace Arena

variable {H : Type} {t t' : Tracker H} {a : Arena} {alignment : Alignment} {out : List CarveOut} {size : Nat}
  {c : CarveOut}

/-- How what clients have lies in the blocks, the last range that was granted first. -/
structure LaidOut (a : Arena) (out : List CarveOut) : Prop where
  follows : out.Pairwise CarveOut.Follows
  stop_le : ∀ c ∈ out, c.offset + c.grantedSize ≤ a.arenaSize
  offset : ∀ c ∈ out, a.alignment.bytes ∣ c.offset
  address : ∀ c ∈ out, a.alignment.bytes ∣ c.address
  /-- The next range comes after the last one. -/
  top : ∀ c ∈ out.head?, c.block = a.current ∧ c.offset + c.grantedSize = a.offset
  start : out = [] → a.offset = 0
  allocated_eq : a.allocated = grantedBytes out

/-- The arena and what clients have of it, whatever became of the blocks. -/
structure Held (alignment : Alignment) (a : Arena) (t : Tracker H) (out : List CarveOut) : Prop where
  sound : a.Sound (t.withBlocks a.blocks) out
  issued : ∀ b ∈ a.blocks, b.id < t.nextId
  seated : a.Seated alignment
  exact : a.Exact out
  pos : ∀ c ∈ out, 0 < c.grantedSize
  lies : ∀ c ∈ out, c.Lies alignment alignment.bytes
  top : ∀ c ∈ out.head?, c.block = a.current ∧ c.offset + c.grantedSize = a.offset
  start : out = [] → a.offset = 0
  follows : out.Pairwise CarveOut.Follows

/-- Only the blocks of the arena count. -/
theorem Sound.withBlocks (h : a.Sound t out) (t' : Tracker H) : a.Sound (t'.withBlocks a.blocks) out :=
  { h with block_mem := fun _ hb => hb }

/-- A range that ends where the next one may start comes after all others of its block. -/
theorem Sound.follows (h : a.Sound t (c :: out)) (hpos : ∀ d ∈ c :: out, 0 < d.grantedSize)
    (hblock : c.block = a.current) (hstop : c.offset + c.grantedSize = a.offset) : ∀ d ∈ out, c.Follows d := by
  intro d hd hid
  have hd' : d ∈ c :: out := List.mem_cons_of_mem _ hd
  have hsame : d.block = a.current :=
    (h.eq_of_id (h.block c List.mem_cons_self) (h.block d hd') hid).symm.trans hblock
  have hbefore := h.before d hd' hsame
  have hapart := (List.pairwise_cons.mp h.apart).1 d hd hid
  have hpos := hpos d hd'
  simp only [Extent.Apart, CarveOut.span] at hapart
  omega

namespace Held

theorem numbered (h : Held alignment a t out) : (t.withBlocks a.blocks).Numbered :=
  Tracker.numbered_withBlocks h.issued h.sound.ids

theorem laidOut (h : Held alignment a t out) : a.LaidOut out where
  follows := h.follows
  stop_le := h.sound.fits
  offset c hc := by
    rw [h.seated.alignment_eq]
    exact (h.lies c hc).offset
  address c hc := by
    rw [h.seated.alignment_eq]
    exact Nat.dvd_add (h.lies c hc).block (h.lies c hc).offset
  top := h.top
  start := h.start
  allocated_eq := h.exact

end Held

/-! ## Requests -/

variable [Heap H]

/-- What is granted is what was asked for, in the newest block up to the place for the next range. -/
theorem allocate_ok (hc : (a.allocate t size).1 = .ok c) :
    0 < size ∧ c.requestedSize = size ∧ c.grantedSize = size ∧ c.block = (a.allocate t size).2.1.current ∧
      c.offset + c.grantedSize = (a.allocate t size).2.1.offset := by
  revert hc
  show (a.carve t size).1 = .ok c →
    _ ∧ _ ∧ _ ∧ _ = (a.carve t size).2.1.current ∧ _ = (a.carve t size).2.1.offset
  fun_cases Arena.carve a t size
  case case4 hsize hle start hfull block t₁ ha result a₁ hgrant =>
    intro hc
    cases hgrant
    cases hc
    exact ⟨Nat.pos_of_ne_zero hsize, rfl, rfl, rfl, rfl⟩
  case case5 hsize hle start hroom result a₁ hgrant =>
    intro hc
    cases hgrant
    cases hc
    exact ⟨Nat.pos_of_ne_zero hsize, rfl, rfl, rfl, rfl⟩
  all_goals exact fun hc => by cases hc

/-- A request that is refused changes neither the blocks nor the place for the next range. -/
theorem allocate_error {e : MemoryError} (he : (a.allocate t size).1 = .error e) :
    (a.allocate t size).2.1.current = a.current ∧ (a.allocate t size).2.1.offset = a.offset := by
  revert he
  show (a.carve t size).1 = .error e → (a.carve t size).2.1.current = _ ∧ (a.carve t size).2.1.offset = _
  fun_cases Arena.carve a t size
  case case4 hgrant =>
    cases hgrant
    exact fun he => by cases he
  case case5 hgrant =>
    cases hgrant
    exact fun he => by cases he
  all_goals exact fun _ => ⟨rfl, rfl⟩

namespace Held

theorem allocate (h : Held alignment a t out) (size : Nat) :
    Held alignment (a.allocate t size).2.1 (a.allocate t size).2.2 (CarveOut.taken (a.allocate t size).1 out) := by
  obtain ⟨hanswer, harena, hnext⟩ := a.allocate_withBlocks t a.blocks size
  have hsound := (h.sound.allocate h.numbered size).1
  have hnumbered := Tracker.Steps.numbered (a.steps_carve (t.withBlocks a.blocks) size) h.numbered
  rw [hanswer, harena] at hsound
  obtain ⟨hseated, hlies⟩ := h.seated.allocate t size
  have hexact := h.exact.allocate t size
  have hissued : ∀ b ∈ (a.allocate t size).2.1.blocks, b.id < (a.allocate t size).2.2.nextId := fun b hb =>
    hnext ▸ hnumbered.issued b (hsound.block_mem b hb)
  rcases hr : (a.allocate t size).1 with e | c
  · rw [hr] at hsound hexact
    obtain ⟨hcurrent, hoffset⟩ := allocate_error hr
    exact
      { h with
        sound := hsound.withBlocks _
        issued := hissued
        seated := hseated
        exact := hexact
        top := by rw [hcurrent, hoffset]; exact h.top
        start := by rw [hoffset]; exact h.start }
  · rw [hr] at hsound hexact
    obtain ⟨hsize, -, hgranted, hblock, hstop⟩ := allocate_ok hr
    have hpos : ∀ d ∈ c :: out, 0 < d.grantedSize := List.forall_mem_cons.mpr ⟨hgranted ▸ hsize, h.pos⟩
    exact
      { sound := hsound.withBlocks _
        issued := hissued
        seated := hseated
        exact := hexact
        pos := hpos
        lies := List.forall_mem_cons.mpr ⟨hlies c hr, h.lies⟩
        top := fun d hd => by
          cases hd
          exact ⟨hblock, hstop⟩
        start := fun hnil => absurd hnil (List.cons_ne_nil _ _)
        follows := List.pairwise_cons.mpr ⟨hsound.follows hpos hblock hstop, h.follows⟩ }

omit [Heap H] in
/-- What happens to blocks does not concern the arena. -/
theorem tracker (h : Held alignment a t out) (hn : t.nextId ≤ t'.nextId) : Held alignment a t' out :=
  { h with
    sound := h.sound.withBlocks t'
    issued := fun b hb => Nat.lt_of_lt_of_le (h.issued b hb) hn }

omit [Heap H] in
/-- Clients have nothing, and there is the first block alone. -/
theorem nil (hseated : a.Seated alignment) (hblock : a.first.requestedSize = a.arenaSize)
    (hissued : a.first.id < t.nextId) (hlater : a.later = []) (hoffset : a.offset = 0)
    (hallocated : a.allocated = 0) : Held alignment a t [] := by
  have hblocks : a.blocks = [a.first] := by rw [blocks, hlater, List.nil_append]
  have hsound : a.Sound (t.withBlocks a.blocks) [] := by
    refine ⟨fun _ hb => hb, ?_, ?_, by simp, by simp, by simp, by simp, List.Pairwise.nil⟩
    · simpa [hblocks] using hblock
    · simp [backing, hblocks]
  exact
    { sound := hsound
      issued := by simpa [hblocks] using hissued
      seated := hseated
      exact := hallocated
      pos := by simp
      lies := by simp
      top := by simp
      start := fun _ => hoffset
      follows := List.Pairwise.nil }

theorem reset (h : Held alignment a t out) : Held alignment (a.reset t).2.1 (a.reset t).2.2 [] := by
  have hfirst : a.first ∈ a.blocks := List.mem_append_right _ (List.mem_singleton_self _)
  have hnext : (a.reset t).2.2.nextId = t.nextId := by
    show (freeBlocks t a.later.reverse).2.nextId = _
    rw [freeBlocks_eq, Tracker.nextId_returnAll]
  refine nil (h.seated.reset t) (h.sound.block_size _ hfirst) ?_ rfl rfl rfl
  rw [hnext]
  exact h.issued _ hfirst

theorem act {s : Carver × Tracker H} (h : ∃ a, s.1 = .arena a ∧ Held alignment a s.2 out) (x : Carver.Act) :
    ∃ a, (Carver.act s x).2.1 = .arena a ∧ Held alignment a (Carver.act s x).2.2 (Carver.outAfter s out x) := by
  obtain ⟨c, t⟩ := s
  obtain ⟨a, rfl, h⟩ := h
  cases x with
  | tracker x => exact ⟨a, rfl, h.tracker (Tracker.Steps.nextId_le (t.steps_act x))⟩
  | allocate size => exact ⟨_, rfl, h.allocate size⟩
  | release handle =>
    have hsame : (a.release handle).2 = a := by fun_cases Arena.release a handle <;> rfl
    refine ⟨(a.release handle).2, rfl, ?_⟩
    show Held alignment (a.release handle).2 t out
    rwa [hsame]
  | reset => exact ⟨_, rfl, h.reset⟩

end Held

/-- Where a request is served from, and when another block is asked for. -/
structure Bumps (a : Arena) (t : Tracker H) (size : Nat) : Prop where
  /-- All that was asked for is granted, in the newest block. -/
  granted : ∀ c, (a.allocate t size).1 = .ok c →
    c.requestedSize = size ∧ c.grantedSize = size ∧ c.block = (a.allocate t size).2.1.current
  /-- The tracker is asked exactly if the rest of the newest block is too short for a request that fits into a
  block. -/
  asked : (a.allocate t size).2.2 =
    if 0 < size ∧ size ≤ a.arenaSize ∧ a.arenaSize < a.alignment.alignUp a.offset + size
    then (t.allocate a.arenaSize a.alignment).2 else t
  /-- What the tracker grants then is the newest block. -/
  opened : 0 < size → size ≤ a.arenaSize → a.arenaSize < a.alignment.alignUp a.offset + size → ∀ block,
    (t.allocate a.arenaSize a.alignment).1 = .ok block → (a.allocate t size).2.1.blocks = block :: a.blocks
  /-- A request that fits into a block fails only as that of the tracker. -/
  refused : 0 < size → size ≤ a.arenaSize → ∀ e, (a.allocate t size).1 = .error e →
    a.arenaSize < a.alignment.alignUp a.offset + size ∧ (t.allocate a.arenaSize a.alignment).1 = .error e

theorem asks_eq (a : Arena) (size : Nat) :
    a.asks size = if 0 < size ∧ size ≤ a.arenaSize ∧ a.arenaSize < a.alignment.alignUp a.offset + size
      then some (a.arenaSize, a.alignment) else none := by
  unfold asks
  split <;> split <;> first | rfl | omega

theorem asks_of_full (hpos : 0 < size) (hle : size ≤ a.arenaSize)
    (hfull : a.arenaSize < a.alignment.alignUp a.offset + size) :
    a.asks size = some (a.arenaSize, a.alignment) := by
  rw [asks_eq, if_pos ⟨hpos, hle, hfull⟩]

theorem bumps (a : Arena) (t : Tracker H) (size : Nat) : a.Bumps t size where
  granted c hc := by
    obtain ⟨-, hrequested, hgranted, hblock, -⟩ := allocate_ok hc
    exact ⟨hrequested, hgranted, hblock⟩
  asked := by
    rw [allocate_tracker, asks_eq]
    split <;> rfl
  opened hpos hle hfull block hblock := by
    show (a.carve t size).2.1.blocks = _
    rw [(carve_of_asks_eq_some (asks_of_full hpos hle hfull) t).2 block _ (Prod.ext hblock rfl)]
    rfl
  refused hpos hle e he := by
    revert he
    show (a.carve t size).1 = .error e → _
    by_cases hfull : a.arenaSize < a.alignment.alignUp a.offset + size
    · have ha := asks_of_full hpos hle hfull
      rcases hx : t.allocate a.arenaSize a.alignment with ⟨e' | block, u⟩
      · rw [(carve_of_asks_eq_some ha t).1 e' u hx]
        exact fun he => ⟨hfull, congrArg Except.error (Except.error.inj he)⟩
      · rw [(carve_of_asks_eq_some ha t).2 block u hx]
        exact fun he => by cases he
    · have ha : a.asks size = none := by rw [asks_eq, if_neg fun h => hfull h.2.2]
      rw [carve_of_asks_eq_none (Nat.ne_of_gt hpos) (Nat.not_lt.mpr hle) ha]
      exact fun he => by cases he

/-! ## Resets -/

/-- What a reset leaves, whatever it answers. -/
structure Rewinds (a : Arena) (first : Block) (t : Tracker H) : Prop where
  blocks : (a.reset t).2.1.blocks = [first]
  dead : ∀ b ∈ a.blocks, b ≠ first → (a.reset t).2.2.isLive b = false
  first : (a.reset t).2.2.isLive first = t.isLive first

theorem Held.rewinds (h : Held alignment a t out) : a.Rewinds a.first t := by
  have htracker : (a.reset t).2.2 = t.returnAll a.later.reverse := freeBlocks_eq t _
  have hids := h.sound.ids
  rw [backing, Arena.blocks, List.map_append, List.nodup_append] at hids
  have hlater (id : Nat) : id ∈ a.later.reverse.map Block.id ↔ id ∈ a.later.map Block.id := by simp
  refine ⟨rfl, fun b hb hne => ?_, ?_⟩
  · have hmem : b ∈ a.later := (List.mem_append.mp hb).resolve_right fun hf => hne (List.mem_singleton.mp hf)
    rw [htracker, Tracker.isLive, Option.isSome_eq_false_iff, Option.isNone_iff_eq_none, Tracker.lookup_eq_none_iff]
    intro c hc he
    refine (Tracker.mem_returnAll.mp hc).2 ((hlater _).mpr ?_)
    rw [he]
    exact List.mem_map_of_mem hmem
  · have hfirst : a.first.id ∉ a.later.map Block.id := fun hm => hids.2.2 _ hm _ (by simp) rfl
    rw [htracker, Tracker.isLive, Tracker.isLive, Bool.eq_iff_iff, Tracker.lookup, Tracker.lookup, List.find?_isSome,
      List.find?_isSome]
    refine exists_congr fun b => ?_
    rw [Tracker.mem_returnAll, beq_iff_eq, hlater, and_assoc]
    refine and_congr_right fun _ => ⟨And.right, fun he => ⟨?_, he⟩⟩
    rwa [he]

/-- After every run, with whatever handles and whatever is done to the tracker, what clients have since the last reset
lies in the blocks one after another, requests bump the newest block, and a reset keeps the first block alone. -/
theorem run_laid_out {total : Nat} {alignment : Alignment} {new : Carver}
    (hb : Carver.build t .arena total alignment = (.ok new, t')) (acts : List Carver.Act) :
    let state := Carver.run (new, t') acts
    ∃ a₀ a, new = .arena a₀ ∧ state.1 = .arena a ∧ a.alignment = alignment ∧ a.arenaSize = min total sizeLimit ∧
      a.LaidOut (Carver.outstanding (new, t') acts) ∧ (∀ size, a.Bumps state.2 size) ∧ a.Rewinds a₀.first state.2 := by
  intro state
  obtain ⟨a₀, hm, rfl⟩ := Carver.built_ok hb
  obtain ⟨ha₀, ha⟩ := make_ok hm
  have hseated : (Carver.arena a₀).Seated alignment fun _ => True := Carver.seated_of_build hb
  obtain ⟨-, hnext, hid, hrequested⟩ := Tracker.allocate_ok ha
  have hsize : a₀.arenaSize = min total sizeLimit := by rw [ha₀]
  have hstart : Held alignment a₀ t' [] := by
    refine .nil hseated (hrequested.trans hsize.symm) (by omega) ?_ ?_ ?_
    all_goals rw [ha₀]
  obtain ⟨a, hstate, h⟩ : ∃ a, state.1 = .arena a ∧
      Held alignment a state.2 (Carver.outstanding (.arena a₀, t') acts) :=
    Carver.outstanding_run (P := fun s out => ∃ a, s.1 = .arena a ∧ Held alignment a s.2 out)
      (fun _ _ x h => Held.act h x) ⟨a₀, rfl, hstart⟩ acts
  have hblank : a.blank = a₀.blank := by
    simpa [state, hstate, Carver.blank] using Carver.blank_run (c := .arena a₀) nofun t' acts
  have harena := congrArg arenaSize hblank
  refine ⟨a₀, a, rfl, hstate, h.seated.alignment_eq, harena.trans hsize, h.laidOut, fun size => a.bumps _ size, ?_⟩
  show a.Rewinds a₀.blank.first state.2
  rw [← hblank]
  exact h.rewinds

/-- In blocks of 64 bytes, 60 bytes do not fit after 13 of them. The block that they opened is freed by somebody else,
so the reset is refused, and leaves the first block alone all the same. -/
theorem run_laid_out_second_block :
    let t := Tracker.ofHeap (BumpHeap.ofPlan { }) none
    let first := Block.place 1 65536 64 71 .word 0
    let second := Block.place 2 65616 64 71 .word 0
    let a₀ : Arena := { alignment := .word, total := 64, arenaSize := 64, first }
    let t' := (Tracker.allocate t 64 .word).2
    let acts : List Carver.Act := [.allocate 5, .allocate 5, .allocate 60, .tracker (.free second)]
    let state := Carver.run (.arena a₀, t') acts
    ∃ a, state.1 = .arena a ∧ a.LaidOut [⟨second, 0, 60, 60⟩, ⟨first, 8, 5, 5⟩, ⟨first, 0, 5, 5⟩] ∧
      (a.reset state.2).1 = .error (.notAllocated 2) ∧ a.Rewinds first state.2 := by
  intro t first second a₀ t' acts state
  have hb : Carver.build t .arena 64 .word = (.ok (.arena a₀), t') := rfl
  have hout : Carver.outstanding (.arena a₀, t') acts = [⟨second, 0, 60, 60⟩, ⟨first, 8, 5, 5⟩, ⟨first, 0, 5, 5⟩] := by
    decide +kernel
  have hreset : (state.1.reset state.2).1 = .error (.notAllocated 2) := by decide +kernel
  obtain ⟨b, a, hnew, hstate, -, -, hlaid, -, hrewinds⟩ := run_laid_out hb acts
  rw [hout] at hlaid
  obtain rfl := Carver.arena.inj hnew
  rw [hstate] at hreset
  exact ⟨a, hstate, hlaid, hreset, hrewinds⟩

end Arena

end TrackedHeap
