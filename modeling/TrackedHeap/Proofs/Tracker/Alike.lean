import TrackedHeap.Proofs.Heap.Oblivious
import TrackedHeap.Proofs.Tracker.Stored

/-!
# Runs that differ in the bytes they write

A tracker decides by its books and asks a heap that does not look at bytes. So two trackers that were told the same
but for the bytes answer the same and differ in nothing but bytes (`Tracker.Alike`, `Alike.act`). A block that
holds the same in both goes on to do so, as long as what is copied into it from elsewhere is the same in both
(`Tracker.Fed`, `Alike.readsSame_act`).
-/

namespace TrackedHeap.Tracker

open Heap (Oblivious)

/-- The same operation, or one that writes as many other bytes to the same place. -/
inductive Act.SameButBytes : Act → Act → Prop where
  | refl (a : Act) : SameButBytes a a
  | fill (handle : Block) (offset length : Nat) (byte byte' : UInt8) :
    SameButBytes (.fill handle offset length byte) (.fill handle offset length byte')
  | write (handle : Block) (offset : Nat) {bytes bytes' : List UInt8} (length_eq : bytes'.length = bytes.length) :
    SameButBytes (.write handle offset bytes) (.write handle offset bytes')

variable {H : Type}

/-- All but the heap is the same, and the heaps are so related. -/
structure Alike (Same : H → H → Prop) (t t' : Tracker H) : Prop where
  books : t' = { t with heap := t'.heap }
  heaps : Same t.heap t'.heap

/-- The same answer, and trackers that are alike. -/
structure AlikeOutcomes {α : Type} (Same : H → H → Prop) (o o' : Outcome α (Tracker H)) : Prop where
  answer : o'.1 = o.1
  trackers : Alike Same o.2 o'.2

theorem AlikeOutcomes.answered {α : Type} {Same : H → H → Prop} {o o' : Outcome α (Tracker H)}
    (h : AlikeOutcomes Same o o') (answer : α → Answer) :
    AlikeOutcomes Same (answered answer o) (Tracker.answered answer o') :=
  ⟨congrArg (Except.map answer) h.answer, h.trackers⟩

theorem AlikeOutcomes.exists_eq {α : Type} {Same : H → H → Prop} {o o' : Outcome α (Tracker H)}
    (h : AlikeOutcomes Same o o') : ∃ answer u u', o = (answer, u) ∧ o' = (answer, u') ∧ Alike Same u u' :=
  ⟨o.1, o.2, o'.2, rfl, Prod.ext h.answer rfl, h.trackers⟩

namespace Alike

variable {Same : H → H → Prop} {t t' : Tracker H}

theorem lookup_eq (h : Alike Same t t') (id : Nat) : t'.lookup id = t.lookup id := by
  rw [h.books]
  rfl

theorem locate_eq (h : Alike Same t t') (handle : Block) (offset length : Nat) :
    t'.locate handle offset length = t.locate handle offset length :=
  locate_congr (h.lookup_eq _)

/-- Heaps that stay related leave the trackers alike. -/
theorem with_heap (h : Alike Same t t') {heap heap' : H} (hs : Same heap heap') :
    Alike Same { t with heap } { t' with heap := heap' } where
  books := by rw [h.books]
  heaps := hs

theorem exists_heap (h : Alike Same t t') : ∃ heap', Same t.heap heap' ∧ t' = { t with heap := heap' } :=
  ⟨t'.heap, h.heaps, h.books⟩

variable [Heap H]

/-! ## One operation -/

theorem allocate (ho : Oblivious Same) (h : Alike Same t t') (size : Nat) (alignment : Alignment) :
    AlikeOutcomes Same (t.allocate size alignment) (t'.allocate size alignment) := by
  obtain ⟨heap', hheaps, rfl⟩ := h.exists_heap
  unfold Tracker.allocate
  by_cases hsize : size = 0
  · simp only [if_pos hsize]
    exact ⟨rfl, rfl, hheaps⟩
  · simp only [if_neg hsize]
    cases hp : alignment.paddedSize size with
    | error e => exact ⟨rfl, rfl, hheaps⟩
    | ok padded =>
      obtain ⟨hanswer, hsame⟩ := ho.alloc padded hheaps
      rcases ha : Heap.alloc t.heap padded with ⟨answer, heap₁⟩
      rcases ha' : Heap.alloc heap' padded with ⟨answer', heap₁'⟩
      rw [ha, ha'] at hanswer hsame
      obtain rfl : answer' = answer := hanswer
      simp only [ha, ha']
      cases answer' with
      | error e => exact ⟨rfl, rfl, hsame⟩
      | ok raw =>
        by_cases hraw : raw = 0
        · simp only [if_pos hraw]
          exact ⟨rfl, rfl, hsame⟩
        · simp only [if_neg hraw]
          exact ⟨rfl, rfl, hsame⟩

theorem free (ho : Oblivious Same) (h : Alike Same t t') (handle : Block) :
    AlikeOutcomes Same (t.free handle) (t'.free handle) := by
  obtain ⟨heap', hheaps, rfl⟩ := h.exists_heap
  have hlookup : { t with heap := heap' }.lookup handle.id = t.lookup handle.id := rfl
  unfold Tracker.free
  rw [hlookup]
  cases t.lookup handle.id with
  | none => exact ⟨rfl, rfl, hheaps⟩
  | some live => exact ⟨rfl, rfl, ho.release _ hheaps⟩

theorem realign (ho : Oblivious Same) {heap heap' : H} (hs : Same heap heap') (old resized : Block) :
    Same (realign heap old resized) (Tracker.realign heap' old resized) := by
  unfold Tracker.realign
  split
  · exact hs
  · exact ho.copy _ _ _ hs

theorem reallocate (ho : Oblivious Same) (h : Alike Same t t') (handle : Block) (size : Nat) :
    AlikeOutcomes Same (t.reallocate handle size) (t'.reallocate handle size) := by
  obtain ⟨heap', hheaps, rfl⟩ := h.exists_heap
  have hlookup : { t with heap := heap' }.lookup handle.id = t.lookup handle.id := rfl
  unfold Tracker.reallocate
  rw [hlookup]
  by_cases hsize : size = 0
  · simp only [if_pos hsize]
    exact ⟨rfl, rfl, hheaps⟩
  · simp only [if_neg hsize]
    cases t.lookup handle.id with
    | none => exact ⟨rfl, rfl, hheaps⟩
    | some old =>
      cases hp : old.alignment.paddedSize size with
      | error e =>
        simp only [hp]
        exact ⟨rfl, rfl, hheaps⟩
      | ok padded =>
        obtain ⟨hanswer, hsame⟩ := ho.realloc old.rawAddress padded hheaps
        rcases ha : Heap.realloc t.heap old.rawAddress padded with ⟨answer, heap₁⟩
        rcases ha' : Heap.realloc heap' old.rawAddress padded with ⟨answer', heap₁'⟩
        rw [ha, ha'] at hanswer hsame
        obtain rfl : answer' = answer := hanswer
        simp only [hp, ha, ha']
        cases answer' with
        | error e => exact ⟨rfl, rfl, hsame⟩
        | ok raw => exact ⟨rfl, rfl, realign ho hsame _ _⟩

theorem fill (ho : Oblivious Same) (h : Alike Same t t') (handle : Block) (offset length : Nat) (byte byte' : UInt8) :
    AlikeOutcomes Same (t.fill handle offset length byte) (t'.fill handle offset length byte') := by
  unfold Tracker.fill
  rw [h.locate_eq]
  cases t.locate handle offset length with
  | error e => exact ⟨rfl, h⟩
  | ok start => exact ⟨rfl, h.with_heap (ho.fill _ _ _ _ h.heaps)⟩

theorem write (ho : Oblivious Same) (h : Alike Same t t') (handle : Block) (offset : Nat) {bytes bytes' : List UInt8}
    (hl : bytes'.length = bytes.length) :
    AlikeOutcomes Same (t.write handle offset bytes) (t'.write handle offset bytes') := by
  unfold Tracker.write
  rw [h.locate_eq, hl]
  cases t.locate handle offset bytes.length with
  | error e => exact ⟨rfl, h⟩
  | ok start => exact ⟨rfl, h.with_heap (ho.store _ hl h.heaps)⟩

theorem copy (ho : Oblivious Same) (h : Alike Same t t') (source : Block) (offset : Nat) (target : Block)
    (offset' length : Nat) (mode : CopyMode) :
    AlikeOutcomes Same (t.copy source offset target offset' length mode)
      (t'.copy source offset target offset' length mode) := by
  unfold Tracker.copy
  rw [h.locate_eq, h.locate_eq]
  cases mode.validate length with
  | error e => exact ⟨rfl, h⟩
  | ok =>
    cases t.locate source offset length with
    | error e => exact ⟨rfl, h⟩
    | ok start =>
      cases t.locate target offset' length with
      | error e => exact ⟨rfl, h⟩
      | ok stop =>
        cases mode with
        | plain => exact ⟨rfl, h.with_heap (ho.copy _ _ _ h.heaps)⟩
        | byteSwap width => exact ⟨rfl, h.with_heap (ho.copySwapped _ _ _ _ h.heaps)⟩

/-- The count that is made while one block after another is returned is the same, too. -/
theorem foldl_free (ho : Oblivious Same) (blocks : List Block) (count : Nat) (h : Alike Same t t') :
    let f := fun ((count, t) : Nat × Tracker H) (block : Block) =>
      match t.free block with
      | (.ok _, t) => (count + 1, t)
      | (.error _, t) => (count, t)
    (blocks.foldl f (count, t')).1 = (blocks.foldl f (count, t)).1 ∧
      Alike Same (blocks.foldl f (count, t)).2 (blocks.foldl f (count, t')).2 := by
  intro f
  induction blocks generalizing count t t' with
  | nil => exact ⟨rfl, h⟩
  | cons block blocks ih =>
    obtain ⟨answer, t₁, t₁', hf, hf', halike⟩ := (h.free ho block).exists_eq
    simp only [List.foldl_cons, f, hf, hf']
    cases answer with
    | error e => exact ih count halike
    | ok b => exact ih (count + 1) halike

theorem act (ho : Oblivious Same) (h : Alike Same t t') {a a' : Act} (ha : a.SameButBytes a') :
    AlikeOutcomes Same (t.act a) (t'.act a') := by
  cases ha with
  | fill handle offset length byte byte' => exact (h.fill ho handle offset length byte byte').answered _
  | write handle offset hl => exact (h.write ho handle offset hl).answered _
  | refl =>
    cases a with
    | advance n =>
      refine ⟨rfl, ?_, h.heaps⟩
      show t'.advance n = _
      rw [h.books]
      rfl
    | allocate size alignment => exact (h.allocate ho size alignment).answered _
    | free handle => exact (h.free ho handle).answered _
    | reallocate handle size => exact (h.reallocate ho handle size).answered _
    | freeAll =>
      have hblocks : t'.blocks = t.blocks := by rw [h.books]
      obtain ⟨hcount, halike⟩ := h.foldl_free ho t.blocks 0
      have hfreeAll : t'.freeAll.1 = t.freeAll.1 ∧ Alike Same t.freeAll.2 t'.freeAll.2 := by
        unfold freeAll
        rw [hblocks]
        exact ⟨hcount, halike⟩
      exact ⟨congrArg (fun n => Except.ok (Answer.count n)) hfreeAll.1, hfreeAll.2⟩
    | fill handle offset length byte => exact (h.fill ho handle offset length byte byte).answered _
    | write handle offset bytes => exact (h.write ho handle offset rfl).answered _
    | copy source offset target offset' length mode =>
      exact (h.copy ho source offset target offset' length mode).answered _

end Alike

/-! ## A block that holds the same -/

variable [Heap H] {t t' : Tracker H} {handle : Block}

/-- What the operation copies into the block from another one is the same in both states. -/
def Fed (t t' : Tracker H) (handle : Block) : Act → Prop
  | .copy source offset target _ length _ =>
    target.id = handle.id → source.id ≠ handle.id → t'.read source offset length = t.read source offset length
  | _ => True

theorem readsSame_of_lookup_eq_none (h : t.lookup handle.id = none) (h' : t'.lookup handle.id = none) :
    t.ReadsSame t' handle := by
  refine fun offset length => read_congr (h'.trans h.symm) fun address hl => ?_
  obtain ⟨b, hb, hid, -⟩ := locate_eq_ok hl
  exact absurd hid (lookup_eq_none_iff.mp h b hb)

omit [Heap H] in
theorem exists_ok_of_answered {α : Type} {answer : α → Answer} {o : Outcome α (Tracker H)}
    (h : ∀ e, (answered answer o).1 ≠ .error e) : ∃ result, o = (.ok result, (answered answer o).2) := by
  obtain ⟨e | result, t⟩ := o
  · exact absurd rfl (h e)
  · exact ⟨result, rfl⟩

/-- One operation in two states that answer it alike. -/
theorem WellFormed.readsSame_act_act [LawfulBytes H] (h : t.WellFormed) (h' : t'.WellFormed)
    (hl : t'.lookup handle.id = t.lookup handle.id) {a : Act} (hanswer : (t'.act a).1 = (t.act a).1)
    (hafter : (t'.act a).2.lookup handle.id = (t.act a).2.lookup handle.id) (hissued : handle.id < t.nextId)
    (hs : t.ReadsSame t' handle) (hfed : Fed t t' handle a) : (t.act a).2.ReadsSame (t'.act a).2 handle := by
  by_cases hgone : (t.act a).2.lookup handle.id = none
  · exact readsSame_of_lookup_eq_none hgone (hafter.trans hgone)
  -- a block that is live afterwards was live before, and the operation did not take it out of use
  have hstays : ¬ t.Retires handle.id a := fun hr => hgone (hr.gone h.numbered.issued).unknown
  have hlive : t.isLive handle = true := by
    cases hlookup : t.lookup handle.id with
    | none => exact absurd ((t.steps_act a).gone ⟨hissued, hlookup⟩).unknown hgone
    | some live => rw [isLive, hlookup, Option.isSome_some]
  have hlive' : t'.isLive handle = true := by rwa [isLive, hl]
  by_cases hspared : t.Spares handle.id a
  · have hspared' : t'.Spares handle.id a := fun hn => hanswer ▸ hspared hn
    exact fun o l => ((h'.readsSame_act hlive' hspared' o l).trans (hs o l)).trans
      (h.readsSame_act hlive hspared o l).symm
  obtain ⟨hnames, hok⟩ := Classical.not_imp.mp hspared
  have hok : ∀ e, (t.act a).1 ≠ .error e := fun e he => hok ⟨e, he⟩
  have hok' : ∀ e, (t'.act a).1 ≠ .error e := hanswer ▸ hok
  cases a with
  | advance n => exact absurd hnames id
  | allocate size alignment => exact absurd hnames id
  | free victim =>
    obtain ⟨block, hb⟩ := exists_ok_of_answered hok
    exact absurd ⟨hnames, block, congrArg Prod.fst hb⟩ hstays
  | reallocate victim size =>
    obtain ⟨block, hb⟩ := exists_ok_of_answered hok
    exact absurd ⟨hnames, block, congrArg Prod.fst hb⟩ hstays
  | freeAll => exact absurd hlive hstays
  | fill target offset length byte =>
    obtain ⟨_, hf⟩ := exists_ok_of_answered hok
    obtain ⟨_, hf'⟩ := exists_ok_of_answered hok'
    exact (h.stored_fill hf).readsSame (h'.stored_fill hf') hnames hl hs
  | write target offset bytes =>
    obtain ⟨_, hw⟩ := exists_ok_of_answered hok
    obtain ⟨_, hw'⟩ := exists_ok_of_answered hok'
    exact (h.stored_write hw).readsSame (h'.stored_write hw') hnames hl hs
  | copy source offset target offset' length mode =>
    obtain ⟨_, hc⟩ := exists_ok_of_answered hok
    obtain ⟨_, hc'⟩ := exists_ok_of_answered hok'
    -- what arrives is the same, whether it comes from the block or from elsewhere
    have hsource : t'.read source offset length = t.read source offset length := by
      by_cases hid : source.id = handle.id
      · exact hs.of_id_eq hid.symm offset length
      · exact hfed hnames hid
    have hcopied := h.copied hc
    have hcopied' := h'.copied hc'
    obtain ⟨bytes, hread, -⟩ := hcopied.arrived
    exact (hcopied.stored hread).readsSame (hcopied'.stored (hsource.trans hread)) hnames hl hs

/-- Trackers that are alike, over heaps that may answer with the address 0, go on to hold the same in a block. -/
theorem Alike.readsSame_act [LawfulBytes (NonNull H)] {Same : H → H → Prop} (ho : Oblivious Same)
    (h : Alike Same t t') (hw : t.nonNull.WellFormed) (hw' : t'.nonNull.WellFormed) {a : Act}
    (hissued : handle.id < t.nextId) (hs : t.ReadsSame t' handle) (hfed : Fed t t' handle a) :
    (t.act a).2.ReadsSame (t'.act a).2 handle := by
  obtain ⟨hanswer, hafter⟩ := h.act ho (.refl a)
  have hview := t.act_nonNull a
  have hview' := t'.act_nonNull a
  have hsame : (t.nonNull.act a).2.ReadsSame (t'.nonNull.act a).2 handle := by
    refine hw.readsSame_act_act hw' (h.lookup_eq _) ?_ ?_ hissued hs (by cases a <;> exact hfed)
    · rw [hview, hview']
      exact hanswer
    · rw [hview, hview']
      exact hafter.lookup_eq _
  rw [hview, hview'] at hsame
  exact hsame

/-- Operations that copy nothing into the block, whatever the state. -/
theorem Alike.readsSame_run [LawfulBytes (NonNull H)] {Same : H → H → Prop} (ho : Oblivious Same)
    (h : Alike Same t t') (hw : t.nonNull.WellFormed) (hw' : t'.nonNull.WellFormed) {acts : List Act}
    (hissued : handle.id < t.nextId) (hs : t.ReadsSame t' handle)
    (hfed : ∀ a ∈ acts, ∀ u u' : Tracker H, Fed u u' handle a) : (t.run acts).ReadsSame (t'.run acts) handle := by
  induction acts generalizing t t' with
  | nil => exact hs
  | cons a acts ih =>
    have hsteps := t.steps_act a
    have hafter := h.readsSame_act ho hw hw' hissued hs (hfed a List.mem_cons_self t t')
    exact ih (h.act ho (.refl a)).trackers (hsteps.view_wellFormed hw) ((t'.steps_act a).view_wellFormed hw')
      (Nat.lt_of_lt_of_le hissued hsteps.nextId_le) hafter fun b hb => hfed b (List.mem_cons_of_mem _ hb)

end TrackedHeap.Tracker
