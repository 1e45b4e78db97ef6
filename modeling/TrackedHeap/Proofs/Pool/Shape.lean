import Mathlib.Data.List.Induction
import TrackedHeap.Heap.Bump
import TrackedHeap.Proofs.Pool.Run

/-!
# The shape of the blocks that a pool hands out

A new block has the size and the alignment of the pool, for the tracker was asked for that. A block that is
released is looked at for its size only, so what a pool keeps, and hands out again, has its size but lies
wherever it lay before. Hence all blocks that a pool hands out have its size, and they have its alignment
exactly if all that were kept did (`Pool.run_shaped`).
-/

namespace TrackedHeap

/-- A new block lies where its alignment asks. -/
theorem Tracker.dvd_address_of_allocate {H : Type} [Heap H] {t : Tracker H} {size : Nat}
    {alignment : Alignment} {block : Block} (h : (t.allocate size alignment).1 = .ok block) :
    alignment.bytes ∣ block.address ∧ block.requestedSize = size := by
  revert h
  fun_cases Tracker.allocate t size alignment
  case case5 =>
    intro h
    rw [← Except.ok.inj h]
    exact ⟨alignment.dvd_alignUp _, rfl⟩
  all_goals exact fun h => by cases h

namespace Pool

variable {H : Type} [Heap H]

/-- The handle was released in a run, and the pool kept it. -/
def KeptIn (s : Pool × Tracker H) (acts : List Act) (handle : Block) : Prop :=
  ∃ past, past ++ [.release handle] <+: acts ∧ handle ∈ (run s (past ++ [.release handle])).1.queue

theorem KeptIn.mono {s : Pool × Tracker H} {acts acts' : List Act} {handle : Block}
    (h : KeptIn s acts handle) (hp : acts <+: acts') : KeptIn s acts' handle := by
  obtain ⟨past, hpast, hkept⟩ := h
  exact ⟨past, hpast.trans hp, hkept⟩

/-- Requests keep no block. -/
theorem KeptIn.of_append_acquire {s : Pool × Tracker H} {past : List Act} {handle : Block} (n : Nat)
    (h : KeptIn s (past ++ List.replicate n .acquire) handle) : KeptIn s past handle := by
  induction n with
  | zero => rwa [List.replicate_zero, List.append_nil] at h
  | succ n ih =>
    rw [List.replicate_succ', ← List.append_assoc] at h
    obtain ⟨earlier, hearlier, hkept⟩ := h
    rcases List.prefix_concat_iff.mp hearlier with heq | hearlier
    · cases (List.append_inj' heq rfl).2
    · exact ih ⟨earlier, hearlier, hkept⟩

/-- What a pool keeps was released to it, and has its size. -/
theorem kept_of_mem_queue {s : Pool × Tracker H} (hs : s.1.queue = []) {acts : List Act} {b : Block}
    (hb : b ∈ (run s acts).1.queue) : KeptIn s acts b ∧ b.requestedSize = s.1.blockSize := by
  induction acts using List.reverseRecOn with
  | nil => exact absurd (hs ▸ hb : b ∈ []) List.not_mem_nil
  | append_singleton acts a ih =>
    have hold (h : b ∈ (run s acts).1.queue) :
        KeptIn s (acts ++ [a]) b ∧ b.requestedSize = s.1.blockSize :=
      (ih h).imp_left fun h => h.mono (List.prefix_append _ _)
    have hafter := hb
    rw [run_concat] at hb
    cases change_act (run s acts) a with
    | same hq => exact hold (hq ▸ hb)
    | reused block hq => exact hold (hq ▸ List.mem_cons_of_mem _ hb)
    | kept handle hsize hlive hq =>
      rw [hq, List.mem_append, List.mem_singleton] at hb
      rcases hb with hb | rfl
      · exact hold hb
      · exact ⟨⟨acts, List.prefix_refl _, hafter⟩, hsize.trans (shape_run s acts).1⟩
    | cleared hq => exact absurd (hq ▸ hb : b ∈ []) List.not_mem_nil

/-- The blocks that a pool hands out in a run, however it may go on. -/
structure Shaped (s : Pool × Tracker H) (acts : List Act) : Prop where
  /-- Each has the size of the pool. -/
  size : ∀ past block, past <+: acts → (act (run s past) .acquire).1 = .ok (.block block) →
    block.requestedSize = s.1.blockSize
  /-- Each has the alignment of the pool, or was released to it. -/
  aligned : ∀ past block, past <+: acts → (act (run s past) .acquire).1 = .ok (.block block) →
    s.1.alignment.bytes ∣ block.address ∨ KeptIn s past block
  /-- All have the alignment of the pool, those included that are taken later, exactly if all do that were
  released to it and kept. -/
  aligned_iff : (∀ past n block, past <+: acts →
      (act (run s (past ++ List.replicate n .acquire)) .acquire).1 = .ok (.block block) →
        s.1.alignment.bytes ∣ block.address) ↔
    ∀ handle, KeptIn s acts handle → s.1.alignment.bytes ∣ handle.address

/-- A pool hands out what was kept, or a block of its shape. -/
theorem acquire_shaped {s : Pool × Tracker H} (hs : s.1.queue = []) {acts : List Act} {block : Block}
    (h : (act (run s acts) .acquire).1 = .ok (.block block)) :
    block.requestedSize = s.1.blockSize ∧
      (s.1.alignment.bytes ∣ block.address ∨ KeptIn s acts block) := by
  obtain ⟨hsize, halign⟩ := shape_run s acts
  rcases acquire_ok (act_acquire_eq_ok.mp h) with ⟨hkept, -⟩ | hnew
  · obtain ⟨hin, hreq⟩ := kept_of_mem_queue hs hkept
    exact ⟨hreq, .inr hin⟩
  · obtain ⟨hdvd, hreq⟩ := Tracker.dvd_address_of_allocate (congrArg Prod.fst hnew)
    exact ⟨hreq.trans hsize, .inl (halign ▸ hdvd)⟩

/-- Whatever the tracker and whatever is released, blocks have the size of the pool; they have its alignment
as long as what is released has. -/
theorem run_shaped {blockSize limit : Nat} {alignment : Alignment} {p : Pool}
    (hm : make blockSize alignment limit = .ok p) (t : Tracker H) (acts : List Act) :
    Shaped (p, t) acts := by
  have hqueue : p.queue = [] := List.map_eq_nil_iff.mp (kept_of_make hm)
  have hshaped (acts : List Act) {block : Block}
      (h : (act (run (p, t) acts) .acquire).1 = .ok (.block block)) :=
    acquire_shaped (s := (p, t)) hqueue h
  refine ⟨fun past block _ h => (hshaped past h).1, fun past block _ h => (hshaped past h).2, ?_⟩
  constructor
  · rintro hall handle ⟨past, hpast, hmem⟩
    obtain ⟨n, hn⟩ := exists_acquire_of_mem _ hmem
    rw [← run_append] at hn
    exact hall _ n handle hpast hn
  · intro hkept past n block hpast h
    rcases (hshaped _ h).2 with hdvd | hin
    · exact hdvd
    · exact hkept block (hin.of_append_acquire.mono hpast)

/-- A block with the alignment of the pool is kept and comes back, one of another size is passed over. -/
theorem run_shaped_mixed :
    let p : Pool := { blockSize := 64, alignment := .cacheLine, limit := 1 }
    let t : Tracker BumpHeap := .ofHeap (.ofPlan {}) none
    let acts : List Act :=
      [.acquire, .tracker (.allocate 32 .byte), .release (.place 2 65664 32 32 .byte 0),
        .release (.place 1 65536 64 127 .cacheLine 0), .acquire]
    Shaped (p, t) acts ∧ (run (p, t) acts).1.reused = 1 := by
  refine ⟨run_shaped (show make 64 .cacheLine 1 = .ok _ from rfl) _ _, ?_⟩
  decide +kernel

/-- A block that lies one byte after a multiple of 64, as its own alignment allows, is kept by a pool of blocks
at multiples of 64, and is what the pool hands out next. -/
theorem run_misaligned :
    let p : Pool := { blockSize := 64, alignment := .cacheLine, limit := 4 }
    let t : Tracker BumpHeap := .ofHeap (.ofPlan { base := 65537 }) none
    let block : Block := .place 1 65537 64 64 .byte 0
    let s := run (p, t) [.tracker (.allocate 64 .byte), .release block]
    make 64 .cacheLine 4 = .ok p ∧ (t.allocate 64 .byte).1 = .ok block ∧
      (act s .acquire).1 = .ok (.block block) ∧ ¬ p.alignment.bytes ∣ block.address := by
  refine ⟨rfl, ?_⟩
  decide +kernel

end Pool

end TrackedHeap
