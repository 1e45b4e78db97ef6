import TrackedHeap.Heap.Reading
import TrackedHeap.Proofs.Heap.Lawful

/-!
# A heap that records how it is called

`Recorded H` passes every call on to a heap `H` and answers what that answers. Beside it, it keeps a ledger
of the ranges outstanding, made up from the answers alone, and a list of all calls so far, each with the
ledger at its time. So whether a run keeps to the contract of heaps can be read off the state it ends in:
`Recorded.Lawful` says that every recorded call did.

A call for a byte leaves a heap as it is, so the interface of heaps gives it no state to record it in. A recording heap
makes the calls of a `Reading` itself, one after another, and records each (`Recorded.read`).

Over a lawful heap, a recording heap is lawful with the calls' legality as part of what `Sound` means.
-/

namespace TrackedHeap

/-- A call of a heap. -/
inductive Call where
  | alloc (size : Nat)
  | release (address : Nat)
  | realloc (address size : Nat)
  | fill (start length : Nat)
  | store (start length : Nat)
  | copy (source target length : Nat)
  | copySwapped (source target length width : Nat)
  | read (address : Nat)
deriving DecidableEq, Repr

namespace Call

/-- All bytes of a range lie inside one outstanding range. -/
def Inside (granted : List Extent) (start length : Nat) : Prop :=
  ∃ e ∈ granted, e.Covers start length

/-- The range that starts at the address is outstanding. -/
def Outstanding (granted : List Extent) (address : Nat) : Prop :=
  ∃ e ∈ granted, e.start = address

/-- The call keeps to the contract of heaps while certain ranges are outstanding. -/
def Legal (granted : List Extent) : Call → Prop
  | alloc _ => True
  | release address => Outstanding granted address
  | realloc address _ => Outstanding granted address
  | fill start length => Inside granted start length
  | store start length => Inside granted start length
  | copy source target length => Inside granted source length ∧ Inside granted target length
  | copySwapped source target length width =>
    Inside granted source length ∧ Inside granted target length ∧ width ≠ 0 ∧ width ∣ length
  | read address => Inside granted address 1

/-- A byte of a range inside an outstanding range. -/
theorem Inside.byte {granted : List Extent} {start length address : Nat} (h : Inside granted start length)
    (hle : start ≤ address) (hlt : address < start + length) : Inside granted address 1 := by
  obtain ⟨e, he, hc⟩ := h
  unfold Extent.Covers at hc
  exact ⟨e, he, by omega, by omega⟩

end Call

/-- A heap `H` with a record of its calls. -/
structure Recorded (H : Type) where
  inner : H
  /-- The ranges granted and not taken back, as the answers tell. -/
  granted : List Extent := []
  /-- The calls so far, the last one first, each with the ranges outstanding at its time. -/
  calls : List (Call × List Extent) := []

namespace Recorded

variable {H : Type}

/-- One more call, and the ranges and the heap after it. -/
def log (h : Recorded H) (call : Call) (inner : H) (granted : List Extent) : Recorded H where
  inner := inner
  granted := granted
  calls := (call, h.granted) :: h.calls

variable [Heap H]

def alloc (h : Recorded H) (size : Nat) : Outcome Nat (Recorded H) :=
  match Heap.alloc h.inner size with
  | (.ok address, inner) =>
    (.ok address, h.log (.alloc size) inner (Extent.insert h.granted address size))
  | (.error e, inner) => (.error e, h.log (.alloc size) inner h.granted)

def realloc (h : Recorded H) (address size : Nat) : Outcome Nat (Recorded H) :=
  match Heap.realloc h.inner address size with
  | (.ok fresh, inner) =>
    (.ok fresh,
      h.log (.realloc address size) inner
        (Extent.insert (Extent.without h.granted address) fresh size))
  | (.error e, inner) => (.error e, h.log (.realloc address size) inner h.granted)

end Recorded

instance {H : Type} [Heap H] : Heap (Recorded H) where
  alloc := Recorded.alloc
  release h address :=
    h.log (.release address) (Heap.release h.inner address) (Extent.without h.granted address)
  realloc := Recorded.realloc
  fill h start length byte :=
    h.log (.fill start length) (Heap.fill h.inner start length byte) h.granted
  store h start bytes :=
    h.log (.store start bytes.length) (Heap.store h.inner start bytes) h.granted
  copy h source target length :=
    h.log (.copy source target length) (Heap.copy h.inner source target length) h.granted
  copySwapped h source target length width :=
    h.log (.copySwapped source target length width)
      (Heap.copySwapped h.inner source target length width) h.granted
  memory h := Heap.memory h.inner
  allocCalls h := Heap.allocCalls h.inner

namespace Recorded

/-- Makes the calls of a reading and records each. -/
def read {H α : Type} [Heap H] (h : Recorded H) : Reading α → α × Recorded H
  | .done result => (result, h)
  | .byte address next => (h.log (.read address) h.inner h.granted).read (next (Heap.memory h address))

variable {H : Type} [Heap H]

/-- What comes of a reading is what comes of it without a record. -/
theorem read_fst {α : Type} (h : Recorded H) (calls : Reading α) : (h.read calls).1 = calls.run (Heap.memory h) := by
  induction calls generalizing h with
  | done result => rfl
  | byte address next ih => exact ih _ (h.log (.read address) h.inner h.granted)

/-- The calls of a reading are those for the bytes that it asks for, and nothing else is recorded. -/
theorem read_snd {α : Type} (h : Recorded H) (calls : Reading α) :
    (h.read calls).2 =
      { h with
        calls := (calls.asked (Heap.memory h)).reverse.map (fun address => (.read address, h.granted)) ++ h.calls } := by
  induction calls generalizing h with
  | done result => rfl
  | byte address next ih =>
    have hrest := ih (Heap.memory h address) (h.log (.read address) h.inner h.granted)
    rw [Reading.asked, List.reverse_cons, List.map_append, List.append_assoc]
    exact hrest

variable [LawfulHeap H]

open LawfulHeap (Sound Granted)

/-- The record agrees with the heap, and no call broke the contract. -/
structure Lawful (h : Recorded H) : Prop where
  sound : Sound h.inner
  ledger : Extent.Ledger h.granted
  mem_granted : ∀ e, e ∈ h.granted ↔ Granted h.inner e
  legal : ∀ entry ∈ h.calls, entry.1.Legal entry.2

/-- A heap of which nothing has been asked yet. -/
theorem lawful_of_inner {heap : H} (hs : Sound heap) (hg : ∀ e, ¬ Granted heap e) :
    Lawful { inner := heap } where
  sound := hs
  ledger := .nil
  mem_granted e := by simp [hg e]
  legal := by simp

namespace Lawful

variable {h : Recorded H} {inner : H} {call : Call} {granted : List Extent}

theorem log (hl : h.Lawful) (hcall : call.Legal h.granted) (hs : Sound inner)
    (hledger : Extent.Ledger granted) (hmem : ∀ e, e ∈ granted ↔ Granted inner e) :
    (h.log call inner granted).Lawful where
  sound := hs
  ledger := hledger
  mem_granted := hmem
  legal entry hentry := by
    rcases List.mem_cons.mp hentry with rfl | hentry
    · exact hcall
    · exact hl.legal entry hentry

/-- A call after which the same ranges are outstanding. -/
theorem log_same (hl : h.Lawful) (hcall : call.Legal h.granted)
    (hinner : Sound inner ∧ ∀ e, Granted inner e ↔ Granted h.inner e) :
    (h.log call inner h.granted).Lawful :=
  hl.log hcall hinner.1 hl.ledger fun e => (hl.mem_granted e).trans (hinner.2 e).symm

/-- A reading that asks for bytes of outstanding ranges only. -/
theorem read {α : Type} (hl : h.Lawful) {calls : Reading α}
    (hasked : ∀ a ∈ calls.asked (Heap.memory h), Call.Inside h.granted a 1) : (h.read calls).2.Lawful := by
  rw [h.read_snd calls]
  refine ⟨hl.sound, hl.ledger, hl.mem_granted, fun entry hentry => ?_⟩
  rcases List.mem_append.mp hentry with hnew | hold
  · obtain ⟨a, ha, rfl⟩ := List.mem_map.mp hnew
    exact hasked a (List.mem_reverse.mp ha)
  · exact hl.legal entry hold

theorem granted_of_mem (hl : h.Lawful) {e : Extent} (he : e ∈ h.granted) : Granted h.inner e :=
  (hl.mem_granted e).mp he

theorem fresh (hl : h.Lawful) {e : Extent} (hf : Extent.Fresh (Granted h.inner) e) :
    Extent.Fresh (· ∈ h.granted) e where
  start_pos := hf.start_pos
  fits := hf.fits
  apart d hd := hf.apart d (hl.granted_of_mem hd)

theorem alloc_ok (hl : h.Lawful) {h' : Recorded H} {size address : Nat} (hsize : 0 < size)
    (ha : h.alloc size = (.ok address, h')) :
    h'.Lawful ∧ Extent.Fresh (· ∈ h.granted) ⟨address, size⟩ ∧
      ∀ e, e ∈ h'.granted ↔ e = ⟨address, size⟩ ∨ e ∈ h.granted := by
  unfold Recorded.alloc at ha
  split at ha
  · next inner heq =>
    cases ha
    obtain ⟨hs, hf, hg⟩ := LawfulHeap.alloc_ok hl.sound hsize heq
    have hf := hl.fresh hf
    have hmem := hl.ledger.mem_insert_iff hsize hf.apart
    refine ⟨hl.log trivial hs (hl.ledger.insert address hsize) fun e => ?_, hf, hmem⟩
    rw [hmem, hg, hl.mem_granted]
  · cases ha

theorem alloc_error (hl : h.Lawful) {h' : Recorded H} {size : Nat} {error : MemoryError}
    (hsize : 0 < size) (ha : h.alloc size = (.error error, h')) :
    h'.Lawful ∧ ∀ e, e ∈ h'.granted ↔ e ∈ h.granted := by
  unfold Recorded.alloc at ha
  split at ha
  · cases ha
  · next heq =>
    cases ha
    exact ⟨hl.log_same trivial (LawfulHeap.alloc_error hl.sound hsize heq), fun _ => Iff.rfl⟩

theorem release (hl : h.Lawful) {address size : Nat} (hd : ⟨address, size⟩ ∈ h.granted) :
    (Heap.release h address).Lawful ∧
      ∀ e, e ∈ (Heap.release h address).granted ↔ e ∈ h.granted ∧ e ≠ ⟨address, size⟩ := by
  have hmem := hl.ledger.mem_without_iff hd
  obtain ⟨hs, hg⟩ := LawfulHeap.release hl.sound (hl.granted_of_mem hd)
  refine ⟨hl.log ⟨_, hd, rfl⟩ hs (hl.ledger.without address) fun e => ?_, hmem⟩
  rw [hmem, hg, hl.mem_granted]

theorem realloc_ok (hl : h.Lawful) {h' : Recorded H} {address old size fresh : Nat}
    (hd : ⟨address, old⟩ ∈ h.granted) (hsize : 0 < size)
    (ha : h.realloc address size = (.ok fresh, h')) :
    h'.Lawful ∧ Extent.Fresh (fun e => e ∈ h.granted ∧ e ≠ ⟨address, old⟩) ⟨fresh, size⟩ ∧
      ∀ e, e ∈ h'.granted ↔ e = ⟨fresh, size⟩ ∨ e ∈ h.granted ∧ e ≠ ⟨address, old⟩ := by
  unfold Recorded.realloc at ha
  split at ha
  · next inner heq =>
    cases ha
    obtain ⟨hs, hf, hg⟩ := LawfulHeap.realloc_ok hl.sound (hl.granted_of_mem hd) hsize heq
    have hwithout := hl.ledger.mem_without_iff hd
    have hf : Extent.Fresh (fun e => e ∈ h.granted ∧ e ≠ ⟨address, old⟩) ⟨fresh, size⟩ :=
      ⟨hf.start_pos, hf.fits, fun e he => hf.apart e ⟨hl.granted_of_mem he.1, he.2⟩⟩
    have hledger := hl.ledger.without address
    have hmem : ∀ e, e ∈ Extent.insert (Extent.without h.granted address) fresh size ↔
        e = ⟨fresh, size⟩ ∨ e ∈ h.granted ∧ e ≠ ⟨address, old⟩ := fun e =>
      (hledger.mem_insert_iff hsize (fun d hd => hf.apart d ((hwithout d).mp hd)) e).trans
        (or_congr_right (hwithout e))
    refine ⟨hl.log ⟨_, hd, rfl⟩ hs (hledger.insert fresh hsize) fun e => ?_, hf, hmem⟩
    rw [hmem, hg, hl.mem_granted]
  · cases ha

theorem realloc_error (hl : h.Lawful) {h' : Recorded H} {address old size : Nat}
    {error : MemoryError} (hd : ⟨address, old⟩ ∈ h.granted) (hsize : 0 < size)
    (ha : h.realloc address size = (.error error, h')) :
    h'.Lawful ∧ ∀ e, e ∈ h'.granted ↔ e ∈ h.granted := by
  unfold Recorded.realloc at ha
  split at ha
  · cases ha
  · next heq =>
    cases ha
    refine ⟨hl.log_same ⟨_, hd, rfl⟩ ?_, fun _ => Iff.rfl⟩
    exact LawfulHeap.realloc_error hl.sound (hl.granted_of_mem hd) hsize heq

end Lawful

end Recorded

instance {H : Type} [Heap H] [LawfulHeap H] : LawfulHeap (Recorded H) where
  Sound := Recorded.Lawful
  Granted h e := e ∈ h.granted
  alloc_ok hl hsize ha := hl.alloc_ok hsize ha
  alloc_error hl hsize ha := hl.alloc_error hsize ha
  release hl hd := hl.release hd
  realloc_ok hl hd hsize ha := hl.realloc_ok hd hsize ha
  realloc_error hl hd hsize ha := hl.realloc_error hd hsize ha
  fill byte hl hd hc :=
    ⟨hl.log_same ⟨_, hd, hc⟩ (LawfulHeap.fill byte hl.sound (hl.granted_of_mem hd) hc),
      fun _ => Iff.rfl⟩
  store hl hd hc :=
    ⟨hl.log_same ⟨_, hd, hc⟩ (LawfulHeap.store hl.sound (hl.granted_of_mem hd) hc),
      fun _ => Iff.rfl⟩
  copy hl hc hd hsource htarget :=
    ⟨hl.log_same ⟨⟨_, hc, hsource⟩, _, hd, htarget⟩
        (LawfulHeap.copy hl.sound (hl.granted_of_mem hc) (hl.granted_of_mem hd) hsource htarget),
      fun _ => Iff.rfl⟩
  copySwapped hl hc hd hsource htarget hwidth hdvd :=
    ⟨hl.log_same ⟨⟨_, hc, hsource⟩, ⟨_, hd, htarget⟩, hwidth, hdvd⟩
        (LawfulHeap.copySwapped hl.sound (hl.granted_of_mem hc) (hl.granted_of_mem hd) hsource htarget
          hwidth hdvd),
      fun _ => Iff.rfl⟩

end TrackedHeap
