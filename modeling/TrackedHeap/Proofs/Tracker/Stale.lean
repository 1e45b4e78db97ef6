import TrackedHeap.Proofs.Tracker.Run
import TrackedHeap.Proofs.Tracker.Turnover

/-!
# Handles that have outlived their blocks

Ids are given out in rising order (`Tracker.pairwise_issued`), and every block that is live later was live
before or has an id that was given out since (`Change.origin`). So an id that was given out and names no
live block names none ever after (`Tracker.Gone`, `Steps.gone`), and every use of a handle with that id is
refused and changes nothing (`Tracker.Spent`).

Nothing is asked of the heap here: it may grant the same address again.
-/

namespace TrackedHeap.Tracker

variable {H : Type}

/-! ## Where blocks come from -/

namespace Change

variable {t t' : Tracker H}

theorem nextId_le (h : Change t t') : t.nextId ≤ t'.nextId := by
  cases h <;> omega

/-- A block that is live after a step was live before, or is new under the id that was next. -/
theorem origin (h : Change t t') {b : Block} (hb : b ∈ t'.blocks) :
    b ∈ t.blocks ∨ b.id = t.nextId ∧ t'.nextId = t.nextId + 1 := by
  cases h with
  | same hblocks hnext husage => exact .inl (hblocks ▸ hb)
  | taken block hid hblocks hnext husage =>
    rw [hblocks, List.mem_append, List.mem_singleton] at hb
    rcases hb with hb | rfl
    · exact .inl hb
    · exact .inr ⟨hid, hnext⟩
  | returned block hlive hblocks hnext husage =>
    rw [hblocks, mem_others] at hb
    exact .inl hb.1
  | resized old block hlive hid hblocks hnext husage =>
    rw [hblocks, List.mem_append, List.mem_singleton, mem_others] at hb
    rcases hb with hb | rfl
    · exact .inl hb.1
    · exact .inr ⟨hid, hnext⟩

end Change

/-- Every live block has an id that was given out. -/
def Assigned (t : Tracker H) : Prop :=
  ∀ b ∈ t.blocks, b.id < t.nextId

/-- The id was given out, and names no live block. -/
structure Gone (t : Tracker H) (id : Nat) : Prop where
  issued : id < t.nextId
  unknown : t.lookup id = none

theorem assigned_ofHeap (heap : H) (budget : Option Nat) : (ofHeap heap budget).Assigned :=
  fun _ hb => absurd hb List.not_mem_nil

theorem Change.assigned {t t' : Tracker H} (h : Change t t') (hi : t.Assigned) : t'.Assigned := by
  intro b hb
  rcases h.origin hb with hold | ⟨hid, hnext⟩
  · exact Nat.lt_of_lt_of_le (hi b hold) h.nextId_le
  · omega

theorem numbered_ofHeap (heap : H) (budget : Option Nat) : (ofHeap heap budget).Numbered where
  issued _ hb := absurd hb List.not_mem_nil
  unique _ hb := absurd hb List.not_mem_nil

theorem Change.numbered {t t' : Tracker H} (h : Change t t') (hn : t.Numbered) : t'.Numbered := by
  cases h with
  | same hblocks hnext husage => exact ⟨by rw [hblocks, hnext]; exact hn.issued, by rw [hblocks]; exact hn.unique⟩
  | taken block hid hblocks hnext husage => exact hn.concat (fun _ hb => hb) hblocks hid hnext
  | returned block hlive hblocks hnext husage =>
    have hold {b : Block} (hb : b ∈ t'.blocks) : b ∈ t.blocks := (mem_others.mp (hblocks ▸ hb)).1
    exact ⟨fun b hb => hnext ▸ hn.issued b (hold hb), fun b hb c hc => hn.unique b (hold hb) c (hold hc)⟩
  | resized old block hlive hid hblocks hnext husage =>
    exact hn.concat (fun _ hb => (mem_others.mp hb).1) hblocks hid hnext

/-- The table stays in the order of the ids. -/
theorem Change.rising {t t' : Tracker H} (h : Change t t') (hi : t.Assigned)
    (hr : t.blocks.Pairwise (·.id < ·.id)) : t'.blocks.Pairwise (·.id < ·.id) := by
  have hconcat {rest : List Block} {block : Block} (hrest : rest.Sublist t.blocks) (hid : block.id = t.nextId) :
      (rest ++ [block]).Pairwise (·.id < ·.id) := by
    refine List.pairwise_append.mpr ⟨hr.sublist hrest, List.pairwise_singleton .., fun b hb c hc => ?_⟩
    rw [List.mem_singleton.mp hc, hid]
    exact hi b (hrest.subset hb)
  cases h with
  | same hblocks => exact hblocks ▸ hr
  | taken block hid hblocks => exact hblocks ▸ hconcat (List.Sublist.refl _) hid
  | returned block hlive hblocks => exact hblocks ▸ hr.filter _
  | resized old block hlive hid hblocks => exact hblocks ▸ hconcat List.filter_sublist hid

theorem Change.gone {t t' : Tracker H} (h : Change t t') {id : Nat} (hg : t.Gone id) : t'.Gone id := by
  refine ⟨Nat.lt_of_lt_of_le hg.issued h.nextId_le, lookup_eq_none_iff.mpr fun b hb => ?_⟩
  rcases h.origin hb with hold | ⟨hid, -⟩
  · exact lookup_eq_none_iff.mp hg.unknown b hold
  · have hlt := hg.issued
    omega

variable [Heap H]

namespace Steps

variable {t t' : Tracker H}

theorem nextId_le (s : Steps t t') : t.nextId ≤ t'.nextId := by
  induction s with
  | refl => exact Nat.le_refl _
  | tail _ last ih => exact Nat.le_trans ih last.change.nextId_le

theorem assigned (s : Steps t t') (hi : t.Assigned) : t'.Assigned := by
  induction s with
  | refl => exact hi
  | tail _ last ih => exact last.change.assigned ih

theorem numbered (s : Steps t t') (hn : t.Numbered) : t'.Numbered := by
  induction s with
  | refl => exact hn
  | tail _ last ih => exact last.change.numbered ih

theorem rising (s : Steps t t') (hi : t.Assigned) (hr : t.blocks.Pairwise (·.id < ·.id)) :
    t'.blocks.Pairwise (·.id < ·.id) := by
  induction s with
  | refl => exact hr
  | tail before last ih => exact last.change.rising (assigned before hi) ih

/-- A block that is live later was live before, or has an id that was given out since. -/
theorem origin (s : Steps t t') {b : Block} (hb : b ∈ t'.blocks) :
    b ∈ t.blocks ∨ t.nextId ≤ b.id := by
  induction s with
  | refl => exact .inl hb
  | tail before last ih =>
    rcases last.change.origin hb with hold | ⟨hid, -⟩
    · exact ih hold
    · exact .inr (hid ▸ nextId_le before)

/-- What is gone does not come back. -/
theorem gone (s : Steps t t') {id : Nat} (hg : t.Gone id) : t'.Gone id := by
  induction s with
  | refl => exact hg
  | tail _ last ih => exact last.change.gone ih

/-- A live block that is live no longer is gone. -/
theorem gone_of_lookup (s : Steps t t') (hi : t.Assigned) {id : Nat} (hlive : (t.lookup id).isSome)
    (hdead : t'.lookup id = none) : t'.Gone id := by
  obtain ⟨b, hb⟩ := Option.isSome_iff_exists.mp hlive
  obtain ⟨hmem, rfl⟩ := mem_of_lookup hb
  exact ⟨Nat.lt_of_lt_of_le (hi b hmem) s.nextId_le, hdead⟩

end Steps

/-- No block that was live at any time of a run has the next id or a later one. -/
theorem id_lt_of_mem_run {heap : H} {budget : Option Nat} {past acts : List Act} (hpast : past <+: acts) {b : Block}
    (hb : b ∈ ((ofHeap heap budget).run past).blocks) : b.id < ((ofHeap heap budget).run acts).nextId := by
  obtain ⟨rest, rfl⟩ := hpast
  have hassigned := (steps_run (ofHeap heap budget) past).assigned (assigned_ofHeap heap budget)
  rw [run_append]
  exact Nat.lt_of_lt_of_le (hassigned b hb) (steps_run _ rest).nextId_le

/-! ## The ids that are given out -/

/-- The id of the block that an operation answers as a new one. -/
def issue (t : Tracker H) : Act → Option Nat
  | .allocate size alignment => (t.allocate size alignment).1.toOption.map Block.id
  | .reallocate handle size => (t.reallocate handle size).1.toOption.map Block.id
  | _ => none

/-- The ids that a run gives out, in their order. -/
def issued (t : Tracker H) : List Act → List Nat
  | [] => []
  | a :: acts => (t.issue a).toList ++ issued (t.act a).2 acts

/-- A new block has the id that was next. -/
theorem issue_eq_some {t : Tracker H} {a : Act} {id : Nat} (h : t.issue a = some id) :
    id = t.nextId ∧ (t.act a).2.nextId = t.nextId + 1 := by
  revert h
  cases a with
  | allocate size alignment =>
    simp only [issue, act, answered_snd]
    fun_cases Tracker.allocate t size alignment
    case case5 => exact fun h => ⟨(Option.some.inj h).symm, rfl⟩
    all_goals exact fun h => by cases h
  | reallocate handle size =>
    simp only [issue, act, answered_snd]
    fun_cases Tracker.reallocate t handle size
    case case5 => exact fun h => ⟨(Option.some.inj h).symm, rfl⟩
    all_goals exact fun h => by cases h
  | _ => exact fun h => by cases h

theorem nextId_le_of_mem_issued {t : Tracker H} {acts : List Act} {id : Nat}
    (h : id ∈ t.issued acts) : t.nextId ≤ id := by
  induction acts generalizing t with
  | nil => exact absurd h List.not_mem_nil
  | cons a acts ih =>
    rcases List.mem_append.mp h with h | h
    · exact Nat.le_of_eq (issue_eq_some (Option.mem_toList.mp h)).1.symm
    · exact Nat.le_trans (t.steps_act a).nextId_le (ih h)

/-- Ids rise, so none is given out twice. -/
theorem pairwise_issued (t : Tracker H) (acts : List Act) : (t.issued acts).Pairwise (· < ·) := by
  induction acts generalizing t with
  | nil => exact List.Pairwise.nil
  | cons a acts ih =>
    refine List.pairwise_append.mpr ⟨?_, ih _, fun id hid later hlater => ?_⟩
    · cases t.issue a with
      | none => exact List.Pairwise.nil
      | some id => exact List.pairwise_singleton ..
    · obtain ⟨heq, hnext⟩ := issue_eq_some (Option.mem_toList.mp hid)
      have hle := nextId_le_of_mem_issued hlater
      omega

/-! ## Ids that go out of use -/

/-- The operation takes a live id out of use: it returns or resizes the block, or returns everything. -/
def Retires (t : Tracker H) (id : Nat) : Act → Prop
  | .free handle => handle.id = id ∧ ∃ block, (t.free handle).1 = .ok block
  | .reallocate handle size => handle.id = id ∧ ∃ block, (t.reallocate handle size).1 = .ok block
  | .freeAll => (t.lookup id).isSome
  | _ => False

theorem Retires.gone {t : Tracker H} {id : Nat} {a : Act} (h : t.Retires id a) (hi : t.Assigned) :
    (t.act a).2.Gone id := by
  cases a with
  | free handle =>
    obtain ⟨rfl, block, hok⟩ := h
    refine (t.steps_act (.free handle)).gone_of_lookup hi ?_ ?_
    · cases hl : t.lookup handle.id with
      | none => simp [free, hl] at hok
      | some live => rfl
    · refine lookup_eq_none_iff.mpr fun b hb => ?_
      rw [act, answered_snd, (t.free_blocks handle).1, mem_others] at hb
      exact hb.2
  | reallocate handle size =>
    obtain ⟨rfl, block, hok⟩ := h
    revert hok
    simp only [act, answered_snd]
    fun_cases Tracker.reallocate t handle size
    case case5 hsize old hl padded hp raw heap ha resized =>
      intro _
      obtain ⟨hold, hid⟩ := mem_of_lookup hl
      have hlt := hi old hold
      refine ⟨by show handle.id < t.nextId + 1; omega, lookup_eq_none_iff.mpr fun b hb => ?_⟩
      rcases List.mem_append.mp hb with hb | hb
      · rw [← hid]
        exact (mem_others.mp hb).2
      · have hnew : b.id = t.nextId := by rw [List.mem_singleton.mp hb]; rfl
        omega
    all_goals exact fun hok => by cases hok
  | freeAll =>
    refine (t.steps_act .freeAll).gone_of_lookup hi h (lookup_eq_none_iff.mpr fun b hb => ?_)
    rw [act, freeAll_eq_returnAll] at hb
    obtain ⟨hmem, hnot⟩ := mem_returnAll.mp hb
    exact absurd (List.mem_map_of_mem hmem) hnot
  | _ => exact False.elim h

/-! ## Handles of ids that are gone -/

/-- The handle names nothing: whatever it is used for is refused as a matter of state, and everything is as
before. -/
structure Spent (t : Tracker H) (handle : Block) : Prop where
  dead : t.isLive handle = false
  unknown : t.lookup handle.id = none
  free : ∃ text, t.free handle = (.error (.illegalState text), t)
  reallocate : ∀ size, 0 < size → ∃ text, t.reallocate handle size = (.error (.illegalState text), t)
  read : ∀ offset length, ∃ text, t.read handle offset length = .error (.illegalState text)
  write : ∀ offset bytes, ∃ text, t.write handle offset bytes = (.error (.illegalState text), t)
  fill : ∀ offset length byte,
    ∃ text, t.fill handle offset length byte = (.error (.illegalState text), t)
  zero : ∀ offset length, ∃ text, t.zero handle offset length = (.error (.illegalState text), t)

theorem spent_of_lookup {t : Tracker H} {handle : Block} (h : t.lookup handle.id = none) :
    t.Spent handle := by
  have hlocate (offset length : Nat) :
      t.locate handle offset length = .error (.freedOrUnknown handle.id) := by
    unfold locate
    rw [h]
  have hfill (offset length : Nat) (byte : UInt8) :
      t.fill handle offset length byte = (.error (.freedOrUnknown handle.id), t) := by
    unfold Tracker.fill
    rw [hlocate]
  refine ⟨?_, h, ?_, fun size hsize => ?_, fun offset length => ?_, fun offset bytes => ?_,
    fun offset length byte => ⟨_, hfill offset length byte⟩,
    fun offset length => ⟨_, hfill offset length 0⟩⟩
  · rw [isLive, h, Option.isSome_none]
  · unfold Tracker.free
    rw [h]
    exact ⟨_, rfl⟩
  · unfold Tracker.reallocate
    rw [if_neg (Nat.ne_of_gt hsize), h]
    exact ⟨_, rfl⟩
  · rw [Tracker.read_eq, hlocate]
    exact ⟨_, rfl⟩
  · unfold Tracker.write
    rw [hlocate]
    exact ⟨_, rfl⟩

end TrackedHeap.Tracker
