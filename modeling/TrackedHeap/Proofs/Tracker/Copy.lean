import TrackedHeap.Proofs.Heap.Staged
import TrackedHeap.Proofs.Tracker.Access
import TrackedHeap.Proofs.Tracker.Isolation
import TrackedHeap.Proofs.Tracker.NonNull

/-!
# What a copy leaves

After a copy the target holds what the source held before, whatever the two ranges share, and every other byte that
can be read is as it was (`Tracker.Copied`, `WellFormed.copied`). So to copy a range onto itself twice changes
nothing (`Copied.twice`), and to copy there and back changes the bytes at the other place alone
(`Copied.there_and_back`).

A read of many bytes is as good as reads of each of them (`Tracker.read_eq_of_bytes`, `Tracker.read_byte_of_read`).
-/

namespace TrackedHeap.Tracker

variable {H : Type} [Heap H] {t t' t'' : Tracker H} {handle source target : Block}
  {offset offset' length : Nat} {mode : CopyMode}

/-! ## Reads byte by byte -/

omit [Heap H] in
theorem locate_byte {address i : Nat} (h : t.locate handle offset length = .ok address) (hi : i < length) :
    t.locate handle (offset + i) 1 = .ok (address + i) := by
  revert h
  fun_cases Tracker.locate t handle offset length
  case case3 live hl stop hstop hle =>
    intro h
    obtain ⟨rfl, hlt⟩ := Word.add?_eq_some.mp hstop
    have hnext : Word.add? (offset + i) 1 = some (offset + i + 1) := Word.add?_eq_some.mpr ⟨rfl, by omega⟩
    simp only [locate, hl, hnext, if_pos (show offset + i + 1 ≤ live.requestedSize by omega)]
    rw [← Except.ok.inj h, Nat.add_assoc]
  all_goals exact fun h => by cases h

/-- Where each byte is the same, the whole is. -/
theorem read_eq_of_bytes (hl : t'.lookup handle.id = t.lookup handle.id)
    (h : ∀ i < length, t'.read handle (offset + i) 1 = t.read handle (offset + i) 1) :
    t'.read handle offset length = t.read handle offset length := by
  refine read_congr hl fun address haddress a hle hlt => ?_
  obtain ⟨i, rfl⟩ := Nat.exists_eq_add_of_le hle
  have hbyte := locate_byte haddress (Nat.lt_of_add_lt_add_left hlt)
  have hsame := h i (Nat.lt_of_add_lt_add_left hlt)
  simp only [read_eq, locate_congr hl, hbyte] at hsame
  exact (List.cons.inj (Except.ok.inj hsame)).1

/-- Where the whole is the same, each byte of it is. -/
theorem read_byte_of_read {bytes : List UInt8} (hl : t'.lookup handle.id = t.lookup handle.id)
    (h : t.read handle offset length = .ok bytes) (h' : t'.read handle offset length = .ok bytes) {i : Nat}
    (hi : i < length) : t'.read handle (offset + i) 1 = t.read handle (offset + i) 1 := by
  revert h h'
  simp only [read_eq, locate_congr hl]
  cases haddress : t.locate handle offset length with
  | error e => exact fun h => by cases h
  | ok address =>
    intro h h'
    have hbyte := Memory.getElem?_read (Heap.memory t.heap) address hi
    rw [Except.ok.inj h, ← Except.ok.inj h', Memory.getElem?_read _ _ hi] at hbyte
    rw [locate_byte haddress hi]
    exact congrArg (fun byte => Except.ok [byte]) (Option.some.inj hbyte)

/-! ## Copies -/

/-- The `length` bytes at `offset` are those of a live block. -/
def Reaches (t : Tracker H) (handle : Block) (offset length : Nat) : Prop :=
  ∃ live, t.lookup handle.id = some live ∧ offset + length ≤ live.requestedSize

/-- The state after bytes were copied. -/
structure Copied (t t' : Tracker H) (source : Block) (offset : Nat) (target : Block) (offset' length : Nat)
    (mode : CopyMode) : Prop where
  /-- Only bytes may have changed. -/
  books : t' = { t with heap := t'.heap }
  /-- The target holds what the source held before. -/
  arrived : ∃ bytes, t.read source offset length = .ok bytes ∧
    t'.read target offset' length = .ok (mode.arranged bytes)
  /-- Bytes of other blocks, and of other parts of the block, are as they were. -/
  kept : ∀ (handle : Block) (o l : Nat), handle.id ≠ target.id ∨ o + l ≤ offset' ∨ offset' + length ≤ o →
    t'.read handle o l = t.read handle o l

/-- A copy is granted exactly within the bounds of live blocks, in whole elements. -/
theorem Guarded.copy_eq_ok_iff (h : t.Guarded) :
    (t.copy source offset target offset' length mode).1 = .ok () ↔
      mode.Fits length ∧ t.Reaches source offset length ∧ t.Reaches target offset' length := by
  rw [h.copy, Reaches, Reaches, ← h.granted, ← h.granted, ← CopyMode.validate_eq_ok_iff]
  cases mode.validate length with
  | error e => exact iff_of_false (fun h => by cases h) fun h => by cases h.1
  | ok =>
    cases t.access source offset length with
    | error e => exact iff_of_false (fun h => by cases h) fun h => by cases h.2.1
    | ok => exact ⟨fun h => ⟨rfl, rfl, h⟩, fun h => h.2.2⟩

theorem Copied.lookup_eq (h : t.Copied t' source offset target offset' length mode) (id : Nat) :
    t'.lookup id = t.lookup id := by
  rw [h.books]
  rfl

/-- In the target, too, only the named range has changed. -/
theorem Copied.kept_byte (h : t.Copied t' source offset target offset' length mode) {i : Nat}
    (hi : handle.id ≠ target.id ∨ i < offset' ∨ offset' + length ≤ i) :
    t'.read handle i 1 = t.read handle i 1 :=
  h.kept handle i 1 (by omega)

/-- What is copied to another place and back, with its elements reversed both times or not at all, is as it was. -/
theorem Copied.restored (h : t.Copied t' source offset target offset' length mode)
    (h' : t'.Copied t'' target offset' source offset length mode) :
    ∃ bytes, t.read source offset length = .ok bytes ∧ t''.read source offset length = .ok bytes := by
  obtain ⟨bytes, hread, harrived⟩ := h.arrived
  obtain ⟨_, hagain, hback⟩ := h'.arrived
  cases harrived.symm.trans hagain
  rw [CopyMode.arranged_arranged] at hback
  exact ⟨bytes, hread, hback⟩

theorem Copied.restored_byte (h : t.Copied t' source offset target offset' length mode)
    (h' : t'.Copied t'' target offset' source offset length mode) {i : Nat}
    (hi : handle.id ≠ target.id ∨ i < offset' ∨ offset' + length ≤ i ∨
      handle.id = source.id ∧ offset ≤ i ∧ i < offset + length) :
    t''.read handle i 1 = t.read handle i 1 := by
  by_cases hin : handle.id = source.id ∧ offset ≤ i ∧ i < offset + length
  · obtain ⟨bytes, hread, hread'⟩ := h.restored h'
    obtain ⟨hid, hle, hlt⟩ := hin
    obtain ⟨k, rfl⟩ := Nat.exists_eq_add_of_le hle
    rw [t''.interchangeable.read _ _ hid, t.interchangeable.read _ _ hid]
    exact read_byte_of_read ((h'.lookup_eq _).trans (h.lookup_eq _)) hread hread' (by omega)
  · exact (h'.kept_byte (by omega)).trans (h.kept_byte (by omega))

/-- What is copied onto itself twice is as it was, and so is all else. -/
theorem Copied.twice (h : t.Copied t' source offset source offset length mode)
    (h' : t'.Copied t'' source offset source offset length mode) : t.ReadsSame t'' handle :=
  fun _ _ => read_eq_of_bytes ((h'.lookup_eq _).trans (h.lookup_eq _)) fun _ _ => h.restored_byte h' (by omega)

/-- What is copied to another place and back is as it was, and so is all else but the other place. -/
theorem Copied.there_and_back (h : t.Copied t' source offset target offset' length mode)
    (h' : t'.Copied t'' target offset' source offset length mode) :
    t''.read source offset length = t.read source offset length ∧
      ∀ (handle : Block) (o l : Nat), handle.id ≠ target.id ∨ o + l ≤ offset' ∨ offset' + length ≤ o →
        t''.read handle o l = t.read handle o l := by
  obtain ⟨bytes, hread, hread'⟩ := h.restored h'
  refine ⟨hread'.trans hread.symm, fun handle o l hout => ?_⟩
  exact read_eq_of_bytes ((h'.lookup_eq _).trans (h.lookup_eq _)) fun i hi => h.restored_byte h' (by omega)

open LawfulHeap (Sound Granted)

/-- What a copy does to memory is to write what the source held before. -/
theorem WellFormed.exists_copied [LawfulBytes H] (h : t.WellFormed)
    (hc : t.copy source offset target offset' length mode = (.ok (), t')) :
    ∃ start stop heap, t.locate source offset length = .ok start ∧ t.locate target offset' length = .ok stop ∧
      t' = { t with heap } ∧ ∀ e, Granted t.heap e →
        e.SameBytes ((Heap.memory t.heap).store stop (mode.arranged ((Heap.memory t.heap).read start length)))
          (Heap.memory heap) := by
  revert hc
  fun_cases Tracker.copy t source offset target offset' length mode <;> intro hc
  case case4 start hsource stop htarget hv =>
    obtain ⟨b, -, -, hg, hb⟩ := h.covers_of_locate hsource
    obtain ⟨b', -, -, hg', hb'⟩ := h.covers_of_locate htarget
    refine ⟨start, stop, _, hsource, htarget, (Prod.mk.inj hc).2.symm, fun e he => ?_⟩
    rw [CopyMode.arranged, ← Memory.copy_eq_store]
    exact LawfulBytes.copy_bytes h.sound hg hg' hb hb' e he
  case case5 start hsource stop htarget width hv =>
    obtain ⟨b, -, -, hg, hb⟩ := h.covers_of_locate hsource
    obtain ⟨b', -, -, hg', hb'⟩ := h.covers_of_locate htarget
    obtain ⟨hw, hdvd⟩ := CopyMode.dvd_of_validate hv
    refine ⟨start, stop, _, hsource, htarget, (Prod.mk.inj hc).2.symm, fun e he => ?_⟩
    rw [← Memory.copySwapped_eq_store _ _ _ _ (Nat.pos_of_ne_zero hw)]
    exact LawfulBytes.copySwapped_bytes h.sound hg hg' hb hb' hw hdvd e he
  all_goals cases hc

/-- What was stored is read, whichever way the heap was told. -/
theorem WellFormed.read_of_store [LawfulBytes H] (h : t.WellFormed) {bytes : List UInt8} {heap : H} {start : Nat}
    (hl : t.locate target offset bytes.length = .ok start)
    (hs : ∀ e, Granted t.heap e → e.SameBytes ((Heap.memory t.heap).store start bytes) (Heap.memory heap)) :
    { t with heap }.read target offset bytes.length = .ok bytes := by
  obtain ⟨b, -, -, hg, hb⟩ := h.covers_of_locate hl
  have hlocate : { t with heap }.locate target offset bytes.length = .ok start := hl
  have hread := Memory.read_of_sameBytes ((hs _ hg).of_covers hb)
  rw [Memory.read_store _ _ rfl] at hread
  rw [read_eq, hlocate]
  exact congrArg Except.ok hread

theorem WellFormed.copied [LawfulBytes H] (h : t.WellFormed)
    (hc : t.copy source offset target offset' length mode = (.ok (), t')) :
    t.Copied t' source offset target offset' length mode where
  books := by
    obtain ⟨-, -, heap, -, -, rfl, -⟩ := h.exists_copied hc
    rfl
  arrived := by
    obtain ⟨start, stop, heap, hsource, htarget, rfl, hsame⟩ := h.exists_copied hc
    have hlength : (mode.arranged ((Heap.memory t.heap).read start length)).length = length := by
      rw [CopyMode.length_arranged, Memory.length_read]
    have hread := h.read_of_store (by rwa [hlength]) hsame
    rw [hlength] at hread
    exact ⟨_, by rw [read_eq, hsource], hread⟩
  kept handle o l hout := by
    have hkept := h.read_copy source offset target offset' length mode hout
    rwa [hc] at hkept

/-- What is so in the view of a tracker is so. -/
theorem Copied.of_nonNull (h : t.nonNull.Copied t'.nonNull source offset target offset' length mode) :
    t.Copied t' source offset target offset' length mode where
  books := by
    have hview := h.books
    obtain ⟨heap, budget, blocks, nextId, usage, clock⟩ := t
    obtain ⟨heap', budget', blocks', nextId', usage', clock'⟩ := t'
    simp only [nonNull, mk.injEq, true_and] at hview ⊢
    exact hview
  arrived := h.arrived
  kept := h.kept

/-- A copy over a heap that may answer with the address 0. -/
theorem copied_of_nonNull [LawfulBytes (NonNull H)] (h : t.nonNull.WellFormed)
    (hc : t.copy source offset target offset' length mode = (.ok (), t')) :
    t.Copied t' source offset target offset' length mode :=
  .of_nonNull (h.copied (by rw [copy_nonNull, hc, viewed]))

/-- Whatever was copied can be copied back. -/
theorem Copied.exists_back [LawfulBytes (NonNull H)] (h : t.nonNull.WellFormed) (hsized : t.Sized)
    (hc : t.copy source offset target offset' length mode = (.ok (), t')) :
    ∃ t'', t'.copy target offset' source offset length mode = (.ok (), t'') ∧
      t'.Copied t'' target offset' source offset length mode := by
  have hcopied := copied_of_nonNull h hc
  have h' : t'.nonNull.WellFormed := by
    have hview := h.copy source offset target offset' length mode
    rwa [copy_nonNull, hc] at hview
  have hsized' : t'.Sized := by
    rw [hcopied.books]
    exact hsized
  have hreaches (handle : Block) (o : Nat) : t.Reaches handle o length → t'.Reaches handle o length := by
    rintro ⟨live, hlive, hle⟩
    exact ⟨live, (hcopied.lookup_eq _).trans hlive, hle⟩
  obtain ⟨hfits, hsource, htarget⟩ := hsized.guarded.copy_eq_ok_iff.mp (congrArg Prod.fst hc)
  have hback : (t'.copy target offset' source offset length mode).1 = .ok () :=
    hsized'.guarded.copy_eq_ok_iff.mpr ⟨hfits, hreaches _ _ htarget, hreaches _ _ hsource⟩
  exact ⟨_, Prod.ext hback rfl, copied_of_nonNull h' (Prod.ext hback rfl)⟩

end TrackedHeap.Tracker
