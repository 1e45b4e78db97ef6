import TrackedHeap.Heap
import TrackedHeap.Proofs.Heap.Extent

/-!
# Lawful heaps

What a heap owes to those who keep to its contract. `LawfulHeap` is about the ranges it grants: a new
range is not at address 0, does not run over the end of the address space, and shares no byte with a
range that is outstanding; a refusal changes no grant. `LawfulBytes` is about their contents: a call
changes bytes of outstanding ranges only where it says so.

Every law assumes that the call keeps to the contract, so nothing is promised of a heap that was once
called outside it:

* `release` and `realloc` get the start of an outstanding range;
* `fill`, `store`, `copy` and `copySwapped` stay inside outstanding ranges;
* `copySwapped` gets a width other than 0 that divides the length.
-/

namespace TrackedHeap

/-- The laws of a heap about the ranges it grants. -/
class LawfulHeap (H : Type) [Heap H] where
  /-- What holds of every state that calls within the contract lead to. -/
  Sound : H → Prop
  /-- The range was granted and has not been taken back. -/
  Granted : H → Extent → Prop
  alloc_ok {h h' : H} {size address : Nat} : Sound h → 0 < size →
    Heap.alloc h size = (.ok address, h') →
      Sound h' ∧ Extent.Fresh (Granted h) ⟨address, size⟩ ∧
        ∀ e, Granted h' e ↔ e = ⟨address, size⟩ ∨ Granted h e
  alloc_error {h h' : H} {size : Nat} {error : MemoryError} : Sound h → 0 < size →
    Heap.alloc h size = (.error error, h') → Sound h' ∧ ∀ e, Granted h' e ↔ Granted h e
  release {h : H} {address size : Nat} : Sound h → Granted h ⟨address, size⟩ →
    Sound (Heap.release h address) ∧
      ∀ e, Granted (Heap.release h address) e ↔ Granted h e ∧ e ≠ ⟨address, size⟩
  /-- The range that is given up may share bytes with the new one. -/
  realloc_ok {h h' : H} {address old size fresh : Nat} : Sound h → Granted h ⟨address, old⟩ →
    0 < size → Heap.realloc h address size = (.ok fresh, h') →
      Sound h' ∧ Extent.Fresh (fun e => Granted h e ∧ e ≠ ⟨address, old⟩) ⟨fresh, size⟩ ∧
        ∀ e, Granted h' e ↔ e = ⟨fresh, size⟩ ∨ Granted h e ∧ e ≠ ⟨address, old⟩
  realloc_error {h h' : H} {address old size : Nat} {error : MemoryError} : Sound h →
    Granted h ⟨address, old⟩ → 0 < size → Heap.realloc h address size = (.error error, h') →
      Sound h' ∧ ∀ e, Granted h' e ↔ Granted h e
  fill {h : H} {d : Extent} {start length : Nat} (byte : UInt8) : Sound h → Granted h d →
    d.Covers start length →
      Sound (Heap.fill h start length byte) ∧
        ∀ e, Granted (Heap.fill h start length byte) e ↔ Granted h e
  store {h : H} {d : Extent} {start : Nat} {bytes : List UInt8} : Sound h → Granted h d →
    d.Covers start bytes.length →
      Sound (Heap.store h start bytes) ∧ ∀ e, Granted (Heap.store h start bytes) e ↔ Granted h e
  copy {h : H} {c d : Extent} {source target length : Nat} : Sound h → Granted h c → Granted h d →
    c.Covers source length → d.Covers target length →
      Sound (Heap.copy h source target length) ∧
        ∀ e, Granted (Heap.copy h source target length) e ↔ Granted h e
  copySwapped {h : H} {c d : Extent} {source target length width : Nat} : Sound h → Granted h c →
    Granted h d → c.Covers source length → d.Covers target length → width ≠ 0 → width ∣ length →
      Sound (Heap.copySwapped h source target length width) ∧
        ∀ e, Granted (Heap.copySwapped h source target length width) e ↔ Granted h e

/-- The laws of a heap about the bytes in the ranges it granted. -/
class LawfulBytes (H : Type) [Heap H] extends LawfulHeap H where
  alloc_bytes {h h' : H} {size : Nat} {result : Except MemoryError Nat} : Sound h → 0 < size →
    Heap.alloc h size = (result, h') →
      ∀ e, Granted h e → e.SameBytes (Heap.memory h) (Heap.memory h')
  release_bytes {h : H} {address size : Nat} : Sound h → Granted h ⟨address, size⟩ →
    ∀ e, Granted h e → e ≠ ⟨address, size⟩ →
      e.SameBytes (Heap.memory h) (Heap.memory (Heap.release h address))
  realloc_bytes {h h' : H} {address old size : Nat} {result : Except MemoryError Nat} : Sound h →
    Granted h ⟨address, old⟩ → 0 < size → Heap.realloc h address size = (result, h') →
      ∀ e, Granted h e → e ≠ ⟨address, old⟩ → e.SameBytes (Heap.memory h) (Heap.memory h')
  /-- Bytes are carried along as far as they fit. -/
  realloc_carries {h h' : H} {address old size fresh : Nat} : Sound h → Granted h ⟨address, old⟩ →
    0 < size → Heap.realloc h address size = (.ok fresh, h') →
      ∀ i < min old size, Heap.memory h' (fresh + i) = Heap.memory h (address + i)
  /-- A range that could not be resized keeps its bytes. -/
  realloc_refused {h h' : H} {address old size : Nat} {error : MemoryError} : Sound h →
    Granted h ⟨address, old⟩ → 0 < size → Heap.realloc h address size = (.error error, h') →
      Extent.SameBytes ⟨address, old⟩ (Heap.memory h) (Heap.memory h')
  fill_bytes {h : H} {d : Extent} {start length : Nat} (byte : UInt8) : Sound h → Granted h d →
    d.Covers start length → ∀ e, Granted h e →
      e.SameBytes ((Heap.memory h).fill start length byte)
        (Heap.memory (Heap.fill h start length byte))
  store_bytes {h : H} {d : Extent} {start : Nat} {bytes : List UInt8} : Sound h → Granted h d →
    d.Covers start bytes.length → ∀ e, Granted h e →
      e.SameBytes ((Heap.memory h).store start bytes) (Heap.memory (Heap.store h start bytes))
  copy_bytes {h : H} {c d : Extent} {source target length : Nat} : Sound h → Granted h c →
    Granted h d → c.Covers source length → d.Covers target length → ∀ e, Granted h e →
      e.SameBytes ((Heap.memory h).copy source target length)
        (Heap.memory (Heap.copy h source target length))
  copySwapped_bytes {h : H} {c d : Extent} {source target length width : Nat} : Sound h →
    Granted h c → Granted h d → c.Covers source length → d.Covers target length → width ≠ 0 →
    width ∣ length → ∀ e, Granted h e →
      e.SameBytes ((Heap.memory h).copySwapped source target length width)
        (Heap.memory (Heap.copySwapped h source target length width))

end TrackedHeap
