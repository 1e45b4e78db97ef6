import TrackedHeap.Proofs.Tracker.WellFormed

/-!
# A heap that knows what came back

`Journaled H` passes every call on to a heap `H` and answers what that answers. It numbers the ranges that it
is asked for anew and keeps the number of each as long as the range is outstanding, also while it is resized.
For every release it notes the number of the range that came back, or that no outstanding range starts at the
address.

Over a lawful heap, what was granted is outstanding or came back, and did so once (`Journaled.Balanced`). So
when nothing is outstanding, every range came back exactly once (`Journaled.returned_perm`).
-/

namespace TrackedHeap

/-- A heap `H` with a journal of its grants. -/
structure Journaled (H : Type) where
  inner : H
  /-- How many ranges were granted, those that were resized apart. -/
  grants : Nat := 0
  /-- The ranges granted and not taken back, each with its number. -/
  outstanding : List (Nat × Extent) := []
  /-- The number of the range that each release was for, the last release first. -/
  returned : List (Option Nat) := []

namespace Journaled

variable {H : Type}

/-- The number of the range that starts at an address. -/
def numberAt? (h : Journaled H) (address : Nat) : Option Nat :=
  (h.outstanding.find? fun entry => entry.2.start == address).map Prod.fst

/-- The outstanding ranges but the one that starts at an address. -/
def others (h : Journaled H) (address : Nat) : List (Nat × Extent) :=
  h.outstanding.filter fun entry => entry.2.start != address

/-- One more range, under a number of its own. -/
def grant (h : Journaled H) (inner : H) (rest : List (Nat × Extent)) (address size : Nat) : Journaled H where
  inner := inner
  grants := h.grants + 1
  outstanding := (h.grants, ⟨address, size⟩) :: rest
  returned := h.returned

variable [Heap H]

def alloc (h : Journaled H) (size : Nat) : Outcome Nat (Journaled H) :=
  match Heap.alloc h.inner size with
  | (.ok address, inner) => (.ok address, h.grant inner h.outstanding address size)
  | (.error e, inner) => (.error e, { h with inner })

def release (h : Journaled H) (address : Nat) : Journaled H where
  inner := Heap.release h.inner address
  grants := h.grants
  outstanding := h.others address
  returned := h.numberAt? address :: h.returned

def realloc (h : Journaled H) (address size : Nat) : Outcome Nat (Journaled H) :=
  match Heap.realloc h.inner address size with
  | (.error e, inner) => (.error e, { h with inner })
  | (.ok fresh, inner) =>
    match h.numberAt? address with
    | some number =>
      (.ok fresh, { h with inner, outstanding := (number, ⟨fresh, size⟩) :: h.others address })
    | none => (.ok fresh, h.grant inner (h.others address) fresh size)

end Journaled

instance {H : Type} [Heap H] : Heap (Journaled H) where
  alloc := Journaled.alloc
  release := Journaled.release
  realloc := Journaled.realloc
  fill h start length byte := { h with inner := Heap.fill h.inner start length byte }
  store h start bytes := { h with inner := Heap.store h.inner start bytes }
  copy h source target length := { h with inner := Heap.copy h.inner source target length }
  copySwapped h source target length width :=
    { h with inner := Heap.copySwapped h.inner source target length width }
  memory h := Heap.memory h.inner
  allocCalls h := Heap.allocCalls h.inner

namespace Journaled

open LawfulHeap (Sound Granted)

variable {H : Type}

/-- The ranges granted and not taken back. -/
def extents (h : Journaled H) : List Extent :=
  h.outstanding.map Prod.snd

/-- The numbers of the outstanding ranges. -/
def numbers (h : Journaled H) : List (Option Nat) :=
  h.outstanding.map fun entry => some entry.1

/-- Every range that was granted is outstanding or came back, and nothing else came back. -/
def Balanced (h : Journaled H) : Prop :=
  (h.returned ++ h.numbers).Perm ((List.range h.grants).map some)

theorem extents_others (h : Journaled H) (address : Nat) :
    (h.others address).map Prod.snd = Extent.without h.extents address := by
  unfold others extents Extent.without
  rw [List.filter_map]
  rfl

/-- The range that starts at an address has a number, and the others are without it. -/
theorem exists_numberAt {h : Journaled H} (hl : Extent.Ledger h.extents) {e : Extent} (he : e ∈ h.extents) :
    ∃ number, h.numberAt? e.start = some number ∧
      h.outstanding.Perm ((number, e) :: h.others e.start) := by
  obtain ⟨⟨number, e⟩, hmem, rfl⟩ := List.mem_map.mp he
  have hstarts : (h.outstanding.map fun entry => entry.2.start).Nodup := by
    have hs := hl.starts
    rwa [extents, List.map_map] at hs
  have hsame {entry : Nat × Extent} (hm : entry ∈ h.outstanding) (hs : entry.2.start = e.start) :
      entry = (number, e) := List.inj_on_of_nodup_map hstarts hm hmem hs
  refine ⟨number, ?_, ?_⟩
  · unfold numberAt?
    cases hf : h.outstanding.find? fun entry => entry.2.start == e.start with
    | none => exact absurd (List.find?_eq_none.mp hf _ hmem) (by simp)
    | some entry =>
      rw [hsame (List.mem_of_find?_eq_some hf) (by simpa using List.find?_some hf)]
      rfl
  · have hothers : h.others e.start = h.outstanding.erase (number, e) := by
      rw [(List.Nodup.of_map _ hstarts).erase_eq_filter]
      refine List.filter_congr fun entry hm => ?_
      rw [Bool.eq_iff_iff, bne_iff_ne, bne_iff_ne]
      exact not_congr ⟨hsame hm, fun he => he ▸ rfl⟩
    rw [hothers]
    exact List.perm_cons_erase hmem

theorem Balanced.grant {h : Journaled H} (hb : h.Balanced) (inner : H) (address size : Nat) :
    (h.grant inner h.outstanding address size).Balanced := by
  show (h.returned ++ some h.grants :: h.numbers).Perm ((List.range (h.grants + 1)).map some)
  rw [List.range_succ, List.map_append]
  refine List.perm_middle.trans ((hb.cons (some h.grants)).trans ?_)
  exact (List.perm_append_singleton _ _).symm

variable [Heap H] [LawfulHeap H]

/-- The journal agrees with the heap. -/
structure Lawful (h : Journaled H) : Prop where
  sound : Sound h.inner
  ledger : Extent.Ledger h.extents
  mem_extents : ∀ e, e ∈ h.extents ↔ Granted h.inner e
  balanced : h.Balanced

/-- A heap of which nothing has been asked yet. -/
theorem lawful_of_inner {heap : H} (hs : Sound heap) (hg : ∀ e, ¬ Granted heap e) :
    Lawful { inner := heap } where
  sound := hs
  ledger := .nil
  mem_extents e := by simp [extents, hg e]
  balanced := List.Perm.refl _

namespace Lawful

variable {h h' : Journaled H} {e : Extent} {address size old fresh : Nat} {error : MemoryError}

/-- A call after which the same ranges are outstanding. -/
theorem with_inner (hl : h.Lawful) {inner : H}
    (hinner : Sound inner ∧ ∀ e, Granted inner e ↔ Granted h.inner e) : Lawful { h with inner } where
  sound := hinner.1
  ledger := hl.ledger
  mem_extents e := (hl.mem_extents e).trans (hinner.2 e).symm
  balanced := hl.balanced

theorem granted (hl : h.Lawful) (he : e ∈ h.extents) : Granted h.inner e :=
  (hl.mem_extents e).mp he

theorem alloc_ok (hl : h.Lawful) (hsize : 0 < size) (ha : h.alloc size = (.ok address, h')) :
    h'.Lawful ∧ Extent.Fresh (· ∈ h.extents) ⟨address, size⟩ ∧
      ∀ e, e ∈ h'.extents ↔ e = ⟨address, size⟩ ∨ e ∈ h.extents := by
  unfold Journaled.alloc at ha
  split at ha
  · next inner heq =>
    cases ha
    obtain ⟨hs, hf, hg⟩ := LawfulHeap.alloc_ok hl.sound hsize heq
    have hapart : ∀ d ∈ h.extents, d.Apart ⟨address, size⟩ := fun d hd => hf.apart d (hl.granted hd)
    refine ⟨⟨hs, hl.ledger.cons hsize hapart, fun e => ?_, hl.balanced.grant inner address size⟩,
      ⟨hf.start_pos, hf.fits, hapart⟩, fun e => List.mem_cons⟩
    exact (List.mem_cons.trans (or_congr_right (hl.mem_extents e))).trans (hg e).symm
  · cases ha

theorem alloc_error (hl : h.Lawful) (hsize : 0 < size) (ha : h.alloc size = (.error error, h')) :
    h'.Lawful ∧ ∀ e, e ∈ h'.extents ↔ e ∈ h.extents := by
  unfold Journaled.alloc at ha
  split at ha
  · cases ha
  · next heq =>
    cases ha
    exact ⟨hl.with_inner (LawfulHeap.alloc_error hl.sound hsize heq), fun _ => Iff.rfl⟩

theorem mem_others (hl : h.Lawful) (hd : ⟨address, size⟩ ∈ h.extents) (e : Extent) :
    e ∈ (h.others address).map Prod.snd ↔ e ∈ h.extents ∧ e ≠ ⟨address, size⟩ := by
  rw [extents_others]
  exact hl.ledger.mem_without_iff hd e

theorem release (hl : h.Lawful) (hd : ⟨address, size⟩ ∈ h.extents) :
    (h.release address).Lawful ∧
      ∀ e, e ∈ (h.release address).extents ↔ e ∈ h.extents ∧ e ≠ ⟨address, size⟩ := by
  have hmem := hl.mem_others hd
  obtain ⟨hs, hg⟩ := LawfulHeap.release hl.sound (hl.granted hd)
  obtain ⟨number, hnumber, hperm⟩ := exists_numberAt hl.ledger hd
  refine ⟨⟨hs, ?_, fun e => ?_, ?_⟩, hmem⟩
  · show Extent.Ledger ((h.others address).map Prod.snd)
    rw [extents_others]
    exact hl.ledger.without address
  · exact ((hmem e).trans (and_congr_left fun _ => hl.mem_extents e)).trans (hg e).symm
  · -- the number moves from those that are outstanding to those that came back
    have hnumbers : h.numbers.Perm (some number :: (h.release address).numbers) := hperm.map _
    show (h.numberAt? address :: h.returned ++ (h.release address).numbers).Perm _
    rw [show h.numberAt? address = some number from hnumber]
    exact (List.perm_middle.symm.trans (hnumbers.symm.append_left _)).trans hl.balanced

theorem realloc_ok (hl : h.Lawful) (hd : ⟨address, old⟩ ∈ h.extents) (hsize : 0 < size)
    (ha : h.realloc address size = (.ok fresh, h')) :
    h'.Lawful ∧ Extent.Fresh (fun e => e ∈ h.extents ∧ e ≠ ⟨address, old⟩) ⟨fresh, size⟩ ∧
      ∀ e, e ∈ h'.extents ↔ e = ⟨fresh, size⟩ ∨ e ∈ h.extents ∧ e ≠ ⟨address, old⟩ := by
  obtain ⟨number, hnumber, hperm⟩ := exists_numberAt hl.ledger hd
  unfold Journaled.realloc at ha
  split at ha
  · cases ha
  · next inner heq =>
    simp only [show h.numberAt? address = some number from hnumber] at ha
    cases ha
    have hmem := hl.mem_others hd
    obtain ⟨hs, hf, hg⟩ := LawfulHeap.realloc_ok hl.sound (hl.granted hd) hsize heq
    have hapart : ∀ e, e ∈ h.extents ∧ e ≠ ⟨address, old⟩ → e.Apart ⟨fresh, size⟩ := fun e he =>
      hf.apart e ⟨hl.granted he.1, he.2⟩
    have hextents (e : Extent) : e ∈ ⟨fresh, size⟩ :: (h.others address).map Prod.snd ↔
        e = ⟨fresh, size⟩ ∨ e ∈ h.extents ∧ e ≠ ⟨address, old⟩ :=
      List.mem_cons.trans (or_congr_right (hmem e))
    refine ⟨⟨hs, Extent.Ledger.cons ?_ hsize fun e he => hapart e ((hmem e).mp he), fun e => ?_, ?_⟩,
      ⟨hf.start_pos, hf.fits, hapart⟩, hextents⟩
    · rw [extents_others]
      exact hl.ledger.without address
    · refine (hextents e).trans (Iff.trans ?_ (hg e).symm)
      exact or_congr_right (and_congr_left fun _ => hl.mem_extents e)
    · have hnumbers : h.numbers.Perm (some number :: (h.others address).map fun entry => some entry.1) :=
        hperm.map _
      exact (hnumbers.symm.append_left _).trans hl.balanced

theorem realloc_error (hl : h.Lawful) (hd : ⟨address, old⟩ ∈ h.extents) (hsize : 0 < size)
    (ha : h.realloc address size = (.error error, h')) :
    h'.Lawful ∧ ∀ e, e ∈ h'.extents ↔ e ∈ h.extents := by
  unfold Journaled.realloc at ha
  split at ha
  · next heq =>
    cases ha
    exact ⟨hl.with_inner (LawfulHeap.realloc_error hl.sound (hl.granted hd) hsize heq), fun _ => Iff.rfl⟩
  · split at ha <;> cases ha

end Lawful

end Journaled

instance {H : Type} [Heap H] [LawfulHeap H] : LawfulHeap (Journaled H) where
  Sound := Journaled.Lawful
  Granted h e := e ∈ h.extents
  alloc_ok hl hsize ha := hl.alloc_ok hsize ha
  alloc_error hl hsize ha := hl.alloc_error hsize ha
  release hl hd := hl.release hd
  realloc_ok hl hd hsize ha := hl.realloc_ok hd hsize ha
  realloc_error hl hd hsize ha := hl.realloc_error hd hsize ha
  fill byte hl hd hc :=
    ⟨hl.with_inner (LawfulHeap.fill byte hl.sound (hl.granted hd) hc), fun _ => Iff.rfl⟩
  store hl hd hc := ⟨hl.with_inner (LawfulHeap.store hl.sound (hl.granted hd) hc), fun _ => Iff.rfl⟩
  copy hl hc hd hsource htarget :=
    ⟨hl.with_inner (LawfulHeap.copy hl.sound (hl.granted hc) (hl.granted hd) hsource htarget),
      fun _ => Iff.rfl⟩
  copySwapped hl hc hd hsource htarget hwidth hdvd :=
    ⟨hl.with_inner (LawfulHeap.copySwapped hl.sound (hl.granted hc) (hl.granted hd) hsource htarget hwidth
      hdvd), fun _ => Iff.rfl⟩

/-- When no block is live, every range that was granted came back, and each of them once. -/
theorem Journaled.returned_perm {H : Type} [Heap H] [LawfulHeap H] {t : Tracker (Journaled H)}
    (h : t.WellFormed) (hnone : t.blocks = []) :
    t.heap.returned.Perm ((List.range t.heap.grants).map some) := by
  have hl : t.heap.Lawful := h.sound
  have hextents : t.heap.extents = [] := List.eq_nil_iff_forall_not_mem.mpr fun e he => by
    obtain ⟨b, hb, -⟩ := (h.granted_iff e).mp he
    exact absurd (hnone ▸ hb) List.not_mem_nil
  have hbalanced := hl.balanced
  rwa [Balanced, numbers, List.map_eq_nil_iff.mp hextents, List.map_nil, List.append_nil] at hbalanced

end TrackedHeap
