import TrackedHeap.Proofs.Heap.Budgeted
import TrackedHeap.Proofs.Tracker.Accounting
import TrackedHeap.Proofs.Tracker.NonNull

/-!
# Trackers of heaps with a budget

The heap counts the bytes it has charged and the tracker counts those that live blocks hold. Each block
stands on the list of the heap with its padded size, so what an operation gives back is what was charged for
it (`Tracker.Backed`). One request tells the two counts apart: a new range at the address 0 is charged by the
heap, is no block to the tracker, and is never given back. So the bytes charged are those held and those of
all requests answered so (`Tracker.run_metered`), and the two counts agree throughout a run exactly if there
is none.
-/

namespace TrackedHeap

open LawfulHeap (Sound Granted)

/-- The ranges of some blocks are on a list, each with the bytes that the block takes. -/
def Extent.Lists (sizes : List Extent) (blocks : List Block) : Prop :=
  ∀ b ∈ blocks, sizeAt? sizes b.rawAddress = some b.paddedSize

namespace Layout

variable {blocks : List Block} {nextId : Nat} {sizes : List Extent} {b : Block}

/-- The other blocks stay on the list when the range of one goes. -/
theorem lists_others (h : Layout blocks nextId) (hb : b ∈ blocks) (hs : Extent.Lists sizes blocks) :
    Extent.Lists (Extent.without sizes b.rawAddress) (blocks.filter fun c => c.id != b.id) := by
  intro c hc
  obtain ⟨hm, hne⟩ := List.mem_filter.mp hc
  have hapart := h.extent_apart hm hb (bne_iff_ne.mp hne)
  have hraw := hapart.start_ne (h.placed c hm).padded_pos (h.placed b hb).padded_pos
  exact (Extent.sizeAt?_without_ne _ hraw).trans (hs c hm)

/-- A new block joins the list, apart from those before it. -/
theorem lists_concat (h : Layout (blocks ++ [b]) nextId) (hs : Extent.Lists sizes blocks) :
    Extent.Lists (Extent.insert sizes b.rawAddress b.paddedSize) (blocks ++ [b]) := by
  have hlast : b ∈ blocks ++ [b] := List.mem_append_right _ (List.mem_singleton_self b)
  intro c hc
  rcases List.mem_append.mp hc with hm | hm
  · have hapart := (List.pairwise_append.mp h.apart).2.2 c hm b (List.mem_singleton_self b)
    have hraw := hapart.start_ne (h.placed c hc).padded_pos (h.placed b hlast).padded_pos
    exact (Extent.sizeAt?_insert_ne _ _ hraw).trans (hs c hm)
  · rw [List.mem_singleton.mp hm]
    exact Extent.sizeAt?_insert _ _ _

end Layout

namespace Tracker

variable {H : Type} [Heap H]

/-- The bytes of a request for a block that the heap answers with the address 0. -/
def voided (t : Tracker H) : Act → Nat
  | .allocate size alignment =>
    if size = 0 then 0
    else
      match alignment.paddedSize size with
      | .error _ => 0
      | .ok padded =>
        match (Heap.alloc t.heap padded).1 with
        | .ok raw => if raw = 0 then padded else 0
        | .error _ => 0
  | _ => 0

/-- The bytes of all requests of a run that the heap answers with the address 0. -/
def voidedIn (t : Tracker H) : List Act → Nat
  | [] => 0
  | a :: acts => t.voided a + (t.act a).2.voidedIn acts

theorem voidedIn_concat (t : Tracker H) (acts : List Act) (a : Act) :
    t.voidedIn (acts ++ [a]) = t.voidedIn acts + (t.run acts).voided a := by
  induction acts generalizing t with
  | nil => simp [voidedIn, run]
  | cons b acts ih =>
    rw [List.cons_append, voidedIn, voidedIn, ih, Nat.add_assoc]
    rfl

theorem voided_lt (t : Tracker H) (a : Act) : t.voided a < Word.limit := by
  have hpos : 0 < Word.limit := by decide
  fun_cases voided t a
  case case3 size alignment hsize padded hp ha => exact (Alignment.paddedSize_eq_ok.mp hp).2
  all_goals exact hpos

/-- One request has less than a word of bytes, so what words show of a sum is 0 throughout only if the sum
is. -/
theorem voidedIn_eq_zero_iff {t : Tracker H} {acts : List Act} :
    (∀ past, past <+: acts → Word.limit ∣ t.voidedIn past) ↔ t.voidedIn acts = 0 := by
  induction acts using List.reverseRecOn with
  | nil =>
    refine ⟨fun _ => rfl, fun _ past hpast => ?_⟩
    rw [List.prefix_nil.mp hpast]
    exact Nat.dvd_zero _
  | append_singleton acts a ih =>
    rw [voidedIn_concat]
    constructor
    · intro hdvd
      have hpast : t.voidedIn acts = 0 :=
        ih.mp fun past hpast => hdvd past (hpast.trans (List.prefix_append _ _))
      have hlast := hdvd _ (List.prefix_refl _)
      rw [voidedIn_concat, hpast, Nat.zero_add] at hlast
      rw [hpast, Nat.eq_zero_of_dvd_of_lt hlast (voided_lt _ a)]
    · intro hzero past hpast
      rcases List.prefix_concat_iff.mp hpast with rfl | hpast
      · rw [voidedIn_concat, hzero]
        exact Nat.dvd_zero _
      · exact ih.mpr (by omega) past hpast

/-- Bringing bytes to their place changes nothing above the heap below a budget. -/
theorem realign_budgeted (heap : Budgeted H) (old resized : Block) :
    ∃ inner, realign heap old resized = { heap with inner } := by
  unfold realign
  split
  · exact ⟨heap.inner, rfl⟩
  · exact ⟨_, rfl⟩

/-- The heap has charged what live blocks hold and some bytes more, and lists the range of each live block. -/
structure Backed (t : Tracker (Budgeted H)) (bytes lost : Nat) : Prop where
  charged : t.heap.Charged bytes (t.held + lost)
  listed : Extent.Lists t.heap.sizes t.blocks

namespace Backed

variable {t : Tracker (Budgeted H)} {bytes lost : Nat}

omit [Heap H] in
/-- A heap that charges and lists the same. -/
theorem with_heap (hb : t.Backed bytes lost) {heap : Budgeted H}
    (hc : heap.Charged bytes (t.held + lost)) (hs : heap.sizes = t.heap.sizes) :
    { t with heap }.Backed bytes lost where
  charged := hc
  listed b hm := hs ▸ hb.listed b hm

omit [Heap H] in
/-- The heap below the budget may change as it will. -/
theorem with_inner (hb : t.Backed bytes lost) (inner : H) :
    { t with heap := { t.heap with inner } }.Backed bytes lost :=
  hb.with_heap (hb.charged.congr rfl rfl) rfl

variable [LawfulHeap (NonNull H)]

/-! ## Taking, returning and resizing blocks -/

theorem allocate (hb : t.Backed bytes lost) (h : t.nonNull.WellFormed) (size : Nat)
    (alignment : Alignment) :
    (t.allocate size alignment).2.Backed bytes (lost + t.voided (.allocate size alignment)) := by
  have h' := h.allocate size alignment
  rw [allocate_nonNull] at h'
  revert h'
  fun_cases Tracker.allocate t size alignment
  case case1 hsize =>
    intro _
    simpa only [voided, if_pos hsize, Nat.add_zero] using hb
  case case2 hsize e hp =>
    intro _
    simpa only [voided, if_neg hsize, hp, Nat.add_zero] using hb
  case case3 hsize padded hp e heap ha =>
    intro _
    obtain ⟨hc, hs⟩ := hb.charged.alloc_error ha
    simpa only [voided, if_neg hsize, hp, ha, Nat.add_zero] using hb.with_heap hc hs
  case case4 hsize padded hp heap ha =>
    -- the range at the address 0 is charged and listed, and no block is there
    intro _
    obtain ⟨hc, hs⟩ := hb.charged.alloc_ok ha
    simp only [voided, if_neg hsize, hp, ha, if_true]
    refine ⟨Nat.add_assoc .. ▸ hc, fun b hm => ?_⟩
    have hraw : b.rawAddress ≠ 0 := Nat.ne_of_gt (h.layout.placed b hm).raw_pos
    rw [hs, Extent.sizeAt?_insert_ne _ _ hraw]
    exact hb.listed b hm
  case case5 hsize padded hp raw heap ha hraw block =>
    intro h'
    obtain ⟨hc, hs⟩ := hb.charged.alloc_ok ha
    have hvoided : t.voided (.allocate size alignment) = 0 := by
      simp only [voided, if_neg hsize, hp, ha, if_neg hraw]
    rw [hvoided]
    refine ⟨?_, hs ▸ h'.layout.lists_concat hb.listed⟩
    rw [held_concat rfl]
    exact Nat.add_right_comm .. ▸ hc

theorem free (hb : t.Backed bytes lost) (h : t.nonNull.WellFormed) (handle : Block) :
    (t.free handle).2.Backed bytes lost := by
  fun_cases Tracker.free t handle
  case case1 => exact hb
  case case2 live hl =>
    obtain ⟨hm, -⟩ := mem_of_lookup hl
    have hc := hb.charged
    rw [show t.held = _ from h.held_eq hm, Nat.add_assoc, Nat.add_comm] at hc
    obtain ⟨hc, hs⟩ := hc.release (hb.listed live hm)
    exact ⟨hc, hs ▸ h.layout.lists_others hm hb.listed⟩

theorem reallocate (hb : t.Backed bytes lost) (h : t.nonNull.WellFormed) (handle : Block) (size : Nat) :
    (t.reallocate handle size).2.Backed bytes lost := by
  have h' := h.reallocate handle size
  rw [reallocate_nonNull] at h'
  revert h'
  fun_cases Tracker.reallocate t handle size
  case case4 hsize old hl padded hp e heap ha =>
    intro _
    obtain ⟨hc, hs⟩ := hb.charged.realloc_error ha
    exact hb.with_heap hc hs
  case case5 hsize old hl padded hp raw heap ha resized =>
    intro h'
    obtain ⟨hm, -⟩ := mem_of_lookup hl
    have hc := hb.charged
    rw [show t.held = _ from h.held_eq hm, Nat.add_assoc, Nat.add_comm] at hc
    obtain ⟨hc, hs⟩ := hc.realloc_ok (hb.listed old hm) ha
    obtain ⟨inner, heq⟩ := realign_budgeted heap old resized
    rw [heq]
    refine ⟨?_, ?_⟩
    · rw [held_concat rfl, Nat.add_right_comm]
      exact hc.congr rfl rfl
    · exact hs ▸ h'.layout.lists_concat (h.layout.lists_others hm hb.listed)
  all_goals exact fun _ => hb

theorem returnAll (hb : t.Backed bytes lost) (h : t.nonNull.WellFormed) (blocks : List Block) :
    (t.returnAll blocks).Backed bytes lost := by
  induction blocks generalizing t with
  | nil => exact hb
  | cons block blocks ih =>
    have h' := h.free block
    rw [free_nonNull] at h'
    exact ih (hb.free h block) h'

/-! ## Any operations -/

/-- An operation adds the bytes of a request that is answered with the address 0, and nothing else. -/
theorem act (hb : t.Backed bytes lost) (h : t.nonNull.WellFormed) (a : Act) :
    (t.act a).2.Backed bytes (lost + t.voided a) := by
  cases a with
  | advance n => exact ⟨hb.charged, hb.listed⟩
  | allocate size alignment => exact hb.allocate h size alignment
  | free handle => exact hb.free h handle
  | reallocate handle size => exact hb.reallocate h handle size
  | freeAll =>
    show t.freeAll.2.Backed bytes lost
    rw [freeAll_eq_returnAll]
    exact hb.returnAll h t.blocks
  | fill handle offset length byte =>
    show (t.fill handle offset length byte).2.Backed bytes lost
    fun_cases Tracker.fill t handle offset length byte
    case case1 => exact hb
    case case2 => exact hb.with_inner _
  | write handle offset data =>
    show (t.write handle offset data).2.Backed bytes lost
    fun_cases Tracker.write t handle offset data
    case case1 => exact hb
    case case2 => exact hb.with_inner _
  | copy source offset target offset' length mode =>
    show (t.copy source offset target offset' length mode).2.Backed bytes lost
    fun_cases Tracker.copy t source offset target offset' length mode
    case case4 => exact hb.with_inner _
    case case5 => exact hb.with_inner _
    all_goals exact hb

theorem run (hb : t.Backed bytes lost) (h : t.nonNull.WellFormed) (acts : List Act) :
    (t.run acts).Backed bytes (lost + t.voidedIn acts) := by
  induction acts generalizing t lost with
  | nil => exact hb
  | cons a acts ih =>
    have h' := (steps_act t.nonNull a).wellFormed h
    rw [act_nonNull] at h'
    have hrest := ih (hb.act h a) h'
    rw [Nat.add_assoc] at hrest
    exact hrest

end Backed

/-- The bytes charged to the budget below a tracker, beside what the tracker reports, after a run of
operations. -/
structure Metered (start : Tracker (Budgeted H)) (acts : List Act) : Prop where
  /-- What live blocks hold is charged, and what requests answered with the address 0 asked for. -/
  used : (start.run acts).heap.used =
    Word.addWrap (start.run acts).report.current (start.voidedIn acts)
  used_le : (start.run acts).heap.used ≤ start.heap.budget
  /-- The two counts agree throughout exactly if no request was answered so. -/
  agree : (∀ past, past <+: acts → (start.run past).heap.used = (start.run past).report.current) ↔
    start.voidedIn acts = 0
  /-- A request that fails keeps a charge only if it is answered so. -/
  failed : ∀ size alignment e, ((start.run acts).allocate size alignment).1 = .error e →
    ((start.run acts).allocate size alignment).2.heap.used =
      Word.addWrap (start.run acts).heap.used ((start.run acts).voided (.allocate size alignment))
  /-- The budget refuses only what exceeds the rest of it. -/
  refused : ∀ size e, (start.run acts).heap.reserve size = .error e →
    start.heap.budget < (start.run acts).held + start.voidedIn acts + size

variable [LawfulHeap (NonNull H)]

theorem backed_run {inner : H} (hs : Sound (NonNull.mk inner)) (hg : ∀ e, ¬ Granted (NonNull.mk inner) e)
    (bytes : Nat) (budget : Option Nat) (acts : List Act) :
    let start : Tracker (Budgeted H) := .ofHeap { inner, budget := bytes } budget
    (start.run acts).Backed bytes (start.voidedIn acts) := by
  intro start
  have hstart : start.nonNull.WellFormed := wellFormed_ofHeap hs hg
  have hb : start.Backed bytes 0 := ⟨.start inner bytes, fun b hb => absurd hb List.not_mem_nil⟩
  have hrun := hb.run hstart acts
  rwa [Nat.zero_add] at hrun

/-- Whatever the heap below the budget does at each call, the two counts differ by the bytes of the requests
that it answered with the address 0. -/
theorem run_metered {inner : H} (hs : Sound (NonNull.mk inner))
    (hg : ∀ e, ¬ Granted (NonNull.mk inner) e) (bytes : Nat) (budget : Option Nat) (acts : List Act) :
    let start : Tracker (Budgeted H) := .ofHeap { inner, budget := bytes } budget
    start.Metered acts := by
  intro start
  have hbacked past : (start.run past).Backed bytes (start.voidedIn past) :=
    backed_run hs hg bytes budget past
  have hcurrent past : (start.run past).report.current = (start.run past).held :=
    (tallies_run (H := Budgeted H) hs hg budget past).current
  have hlt past : (start.run past).held < Word.limit :=
    ((steps_run start past).wellFormed_nonNull hs hg).held_lt
  have hcharged := (hbacked acts).charged
  refine ⟨?_, hcharged.used_le, ?_, fun size alignment e hfail => ?_, fun _ _ => hcharged.lt_of_reserve⟩
  · rw [hcurrent, Word.addWrap]
    exact hcharged.used_eq
  · rw [← voidedIn_eq_zero_iff]
    refine forall₂_congr fun past _ => ?_
    rw [hcurrent]
    exact (hbacked past).charged.used_eq_iff (hlt past)
  · have hnext := hbacked (acts ++ [.allocate size alignment])
    rw [voidedIn_concat, run_concat] at hnext
    have ha : (start.run acts).allocate size alignment = (.error e, _) := Prod.ext hfail rfl
    have hblocks := (allocate_error ha).1
    have hheld : ((start.run acts).allocate size alignment).2.held = (start.run acts).held :=
      congrArg (fun blocks => (blocks.map Block.paddedSize).sum) hblocks
    have hused := hnext.charged.used_eq
    rw [Word.addWrap, hcharged.used_eq, Nat.mod_add_mod, Nat.add_assoc, ← hheld]
    exact hused

/-- One request is answered with the address 0, one is refused by the heap below and one by the budget. -/
theorem run_metered_mixed :
    let start : Tracker (Budgeted BumpHeap) :=
      .ofHeap { inner := .ofPlan { null := [2], failing := [3] }, budget := 500 } none
    let acts : List Act :=
      [.allocate 100 .byte, .allocate 10 .byte, .allocate 20 .byte,
        .reallocate (.place 1 0 0 0 .byte 0) 300, .allocate 30 .word, .allocate 200 .byte,
        .free (.place 3 0 0 0 .byte 0)]
    start.Metered acts ∧ start.voidedIn acts = 10 ∧ (start.run acts).heap.used = 310 := by
  intro start acts
  refine ⟨run_metered ?_ ?_ 500 none acts, by decide +kernel⟩
  · exact BumpHeap.orderly_plain_ofPlan (by decide)
  · exact fun _ => List.not_mem_nil

/-- A heap of which 100 bytes may be in use answers a request for 60 with the address 0. No block is live then,
but the 60 bytes stay charged, and a second request for 60 is refused by the budget. -/
theorem run_keeps_charge :
    let start : Tracker (Budgeted BumpHeap) :=
      .ofHeap { inner := .ofPlan { null := [1] }, budget := 100 } none
    let t := start.run [.allocate 60 .byte]
    (start.allocate 60 .byte).1 = .error (.outOfMemory 60 0) ∧ t.held = 0 ∧
      t.heap.used ≠ t.report.current ∧ (t.allocate 60 .byte).1 = .error (.outOfMemory 60 40) := by
  decide +kernel

end Tracker

end TrackedHeap
