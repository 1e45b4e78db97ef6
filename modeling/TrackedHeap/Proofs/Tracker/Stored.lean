import TrackedHeap.Proofs.Tracker.Copy
import TrackedHeap.Proofs.Tracker.Stale

/-!
# What a block holds after an operation

An operation that is about no block or about another one, and one that is refused, leaves a block as it was
(`Tracker.Spares`, `Tracker.readsSame_act_of_spares`). Setting, writing and copying bytes are one thing to it: certain bytes
stand in one part of it afterwards, and the rest is as before (`Tracker.Stored`).

The heap may have answered with the address 0.
-/

namespace TrackedHeap

theorem Memory.fill_eq_store (m : Memory) (start length : Nat) (byte : UInt8) :
    m.fill start length byte = m.store start (List.replicate length byte) := by
  refine eq_store (fun i hi => ?_) fun a ha => ?_
  · rw [List.length_replicate] at hi
    rw [fill_of_mem (Nat.le_add_right _ _) (Nat.add_lt_add_left hi _), List.getElem_replicate]
  · rw [List.length_replicate] at ha
    exact fill_of_not_mem ha

namespace Tracker

/-- The operation is about the block of an id: it returns or resizes it, or writes into it. -/
def Act.Names (id : Nat) : Act → Prop
  | .free handle | .reallocate handle _ | .fill handle _ _ _ | .write handle _ _ => handle.id = id
  | .copy _ _ target _ _ _ => target.id = id
  | .freeAll => True
  | .advance _ | .allocate _ _ => False

variable {H : Type} [Heap H] {t t' u u' : Tracker H} {handle target : Block} {offset length : Nat} {bytes : List UInt8}

/-- The operation is not about the block of the id, or it is refused. -/
def Spares (t : Tracker H) (id : Nat) (a : Act) : Prop :=
  a.Names id → ∃ e, (t.act a).1 = .error e

/-! ## Blocks that are spared -/

theorem isLive_of_readsSame (h : t.ReadsSame t' handle) (hlive : t.isLive handle = true) : t'.isLive handle = true := by
  have hread := h 0 0
  have hzero : Word.add? 0 0 = some 0 := by decide
  unfold isLive at hlive ⊢
  cases hl : t'.lookup handle.id with
  | some live => rfl
  | none =>
    obtain ⟨live, hlive⟩ := Option.isSome_iff_exists.mp hlive
    simp [read_eq, locate, hl, hlive, hzero] at hread

theorem WellFormed.readsSame_of_unharmed [LawfulHeap H] (h : t.WellFormed) (hu : t.Unharmed t') :
    t.ReadsSame t' handle := by
  intro offset length
  refine read_congr (by rw [hu.books]; rfl) fun address hl => ?_
  obtain ⟨b, hb, -, hle, rfl⟩ := locate_eq_ok hl
  exact (hu.bytes b hb).of_covers ((h.layout.placed b hb).covers hle)

theorem WellFormed.readsSame_act [LawfulBytes H] (h : t.WellFormed) (hlive : t.isLive handle = true) {a : Act}
    (hs : t.Spares handle.id a) : t.ReadsSame (t.act a).2 handle := by
  by_cases hn : a.Names handle.id
  · obtain ⟨e, he⟩ := hs hn
    exact h.readsSame_of_unharmed (h.unharmed_act he)
  · cases a with
    | advance n => exact fun _ _ => rfl
    | allocate size alignment => exact h.read_allocate size alignment hlive
    | free victim => exact h.read_free victim (Ne.symm hn)
    | reallocate victim size => exact h.read_reallocate victim size hlive (Ne.symm hn)
    | freeAll => exact absurd trivial hn
    | fill other o l byte => exact fun _ _ => h.read_fill other o l byte (.inl (Ne.symm hn))
    | write other o written => exact fun _ _ => h.read_write other o written (.inl (Ne.symm hn))
    | copy source o other o' l mode => exact fun _ _ => h.read_copy source o other o' l mode (.inl (Ne.symm hn))

/-- So it is over a heap that may answer with the address 0. -/
theorem readsSame_act_of_spares [LawfulBytes (NonNull H)] (hw : t.nonNull.WellFormed)
    (hlive : t.isLive handle = true) {a : Act} (hs : t.Spares handle.id a) : t.ReadsSame (t.act a).2 handle := by
  have hview := t.act_nonNull a
  have hspared : t.nonNull.Spares handle.id a := fun hn => by
    rw [hview]
    exact hs hn
  have hsame : t.nonNull.ReadsSame (t.nonNull.act a).2 handle := hw.readsSame_act hlive hspared
  rw [hview] at hsame
  exact hsame

theorem readsSame_run [LawfulBytes (NonNull H)] (hw : t.nonNull.WellFormed) (hlive : t.isLive handle = true)
    {acts : List Act} (hs : ∀ a ∈ acts, ¬ a.Names handle.id) : t.ReadsSame (t.run acts) handle := by
  induction acts generalizing t with
  | nil => exact fun _ _ => rfl
  | cons a acts ih =>
    have hnames := hs a List.mem_cons_self
    have hsame := readsSame_act_of_spares hw hlive fun hn => absurd hn hnames
    have hrest := ih ((t.steps_act a).view_wellFormed hw) (isLive_of_readsSame hsame hlive) fun b hb =>
      hs b (List.mem_cons_of_mem _ hb)
    exact fun o l => (hrest o l).trans (hsame o l)

/-! ## Bytes that are stored -/

/-- The bytes stand in the block from the offset on, and all else is as it was. -/
structure Stored (t u : Tracker H) (target : Block) (offset : Nat) (bytes : List UInt8) : Prop where
  lookup_eq : ∀ id, u.lookup id = t.lookup id
  arrived : u.read target offset bytes.length = .ok bytes
  kept : ∀ (handle : Block) (o l : Nat), handle.id ≠ target.id ∨ o + l ≤ offset ∨ offset + bytes.length ≤ o →
    u.read handle o l = t.read handle o l

theorem WellFormed.stored_fill [LawfulBytes H] (h : t.WellFormed) {byte : UInt8}
    (hf : t.fill target offset length byte = (.ok (), u)) :
    t.Stored u target offset (List.replicate length byte) where
  lookup_eq id := by
    unfold lookup
    rw [(fill_ok hf).1]
  arrived := by
    revert hf
    fun_cases Tracker.fill t target offset length byte
    case case1 => exact fun hf => by cases hf
    case case2 start hl =>
      intro hf
      cases hf
      obtain ⟨b, -, -, hg, hb⟩ := h.covers_of_locate hl
      refine h.read_of_store (by rwa [List.length_replicate]) fun e he => ?_
      rw [← Memory.fill_eq_store]
      exact LawfulBytes.fill_bytes byte h.sound hg hb e he
  kept handle o l hout := by
    rw [List.length_replicate] at hout
    have hkept := h.read_fill target offset length byte hout
    rwa [hf] at hkept

theorem WellFormed.stored_write [LawfulBytes H] (h : t.WellFormed)
    (hw : t.write target offset bytes = (.ok (), u)) : t.Stored u target offset bytes where
  lookup_eq id := by
    revert hw
    fun_cases Tracker.write t target offset bytes <;> exact fun hw => by cases hw <;> rfl
  arrived := by
    revert hw
    fun_cases Tracker.write t target offset bytes
    case case1 => exact fun hw => by cases hw
    case case2 start hl =>
      intro hw
      cases hw
      obtain ⟨b, -, -, hg, hb⟩ := h.covers_of_locate hl
      exact h.read_of_store hl fun e he => LawfulBytes.store_bytes h.sound hg hb e he
  kept handle o l hout := by
    have hkept := h.read_write target offset bytes hout
    rwa [hw] at hkept

theorem length_of_read (h : t.read handle offset length = .ok bytes) : bytes.length = length := by
  revert h
  rw [read_eq]
  split
  · exact fun h => by cases h
  · intro h
    rw [← Except.ok.inj h, Memory.length_read]

/-- A copy stores what it reads of the source, with its elements in order. -/
theorem Copied.stored {source : Block} {offset' : Nat} {mode : CopyMode}
    (h : t.Copied u source offset target offset' length mode) (hread : t.read source offset length = .ok bytes) :
    t.Stored u target offset' (mode.arranged bytes) := by
  obtain ⟨bytes', hsource, htarget⟩ := h.arrived
  obtain rfl := Except.ok.inj (hsource.symm.trans hread)
  have hlength : (mode.arranged bytes').length = length :=
    (CopyMode.length_arranged _ _).trans (length_of_read hsource)
  rw [← hlength] at htarget
  refine ⟨h.lookup_eq, htarget, fun handle o l hout => h.kept handle o l ?_⟩
  rwa [← hlength]

theorem isLive_of_read (h : t.read handle offset length = .ok bytes) : t.isLive handle = true := by
  revert h
  rw [read_eq]
  split
  · exact fun h => by cases h
  · next address hl =>
    obtain ⟨b, hb, hid, -⟩ := locate_eq_ok hl
    exact fun _ => isSome_lookup_iff.mpr (List.mem_map.mpr ⟨b, hb, hid⟩)

/-- Blocks that hold the same from the first to the last byte read the same. -/
theorem readsSame_of_whole (hl : t.lookup handle.id = some handle) (hl' : t'.lookup handle.id = some handle)
    (h : t.read handle 0 handle.requestedSize = .ok bytes)
    (h' : t'.read handle 0 handle.requestedSize = .ok bytes) : t.ReadsSame t' handle := by
  have hlookup : t'.lookup handle.id = t.lookup handle.id := hl'.trans hl.symm
  refine fun o l => read_eq_of_bytes hlookup fun i _ => ?_
  by_cases hin : o + i < handle.requestedSize
  · have hbyte := read_byte_of_read hlookup h h' hin
    rwa [Nat.zero_add] at hbyte
  · refine read_congr hlookup fun address haddress => ?_
    revert haddress
    fun_cases Tracker.locate t handle (o + i) 1
    case case3 live hlive stop hstop hle =>
      obtain rfl := Option.some.inj (hlive.symm.trans hl)
      have hsum := (Word.add?_eq_some.mp hstop).1
      omega
    all_goals exact fun haddress => by cases haddress

theorem ReadsSame.of_id_eq {other : Block} (hs : t.ReadsSame t' handle) (h : handle.id = other.id) :
    t.ReadsSame t' other := by
  intro offset length
  rw [← t'.interchangeable.read _ _ h, ← t.interchangeable.read _ _ h]
  exact hs offset length

/-- The same bytes stored in the same place of two states leave the block the same in both, if it was. -/
theorem Stored.readsSame (h : t.Stored u target offset bytes) (h' : t'.Stored u' target offset bytes)
    (hid : target.id = handle.id) (hl : t'.lookup handle.id = t.lookup handle.id) (hs : t.ReadsSame t' handle) :
    u.ReadsSame u' handle := by
  have hsame : t.ReadsSame t' target := hs.of_id_eq hid.symm
  have hlookup : u'.lookup target.id = u.lookup target.id :=
    ((h'.lookup_eq _).trans (hid ▸ hl)).trans (h.lookup_eq _).symm
  refine ReadsSame.of_id_eq (fun o l => ?_) hid
  refine read_eq_of_bytes hlookup fun i _ => ?_
  by_cases hin : offset ≤ o + i ∧ o + i < offset + bytes.length
  · obtain ⟨k, hk⟩ := Nat.exists_eq_add_of_le hin.1
    rw [hk]
    exact read_byte_of_read hlookup h.arrived h'.arrived (by omega)
  · have hout : target.id ≠ target.id ∨ o + i + 1 ≤ offset ∨ offset + bytes.length ≤ o + i := by omega
    rw [h.kept target _ _ hout, h'.kept target _ _ hout]
    exact hsame _ _

end Tracker

end TrackedHeap
