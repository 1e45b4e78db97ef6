import TrackedHeap.Memory

/-!
# Reading byte by byte

A heap is read one byte at a time, and which byte is asked for next may depend on those that came before. A
`Reading` is such a sequence of calls with what comes of it. It is a value, so beside what comes of it when the
calls are answered (`Reading.run`) one can ask which calls it makes (`Reading.asked`).
-/

namespace TrackedHeap

namespace Bytes

/-- The difference of the first bytes that differ, or 0. -/
def difference : List UInt8 → List UInt8 → Int
  | x :: xs, y :: ys => if x = y then difference xs ys else (x.toNat : Int) - (y.toNat : Int)
  | _, _ => 0

end Bytes

/-- A result that is reached by reading bytes of a heap. -/
inductive Reading (α : Type) where
  | done (result : α)
  /-- A call for the byte at the address, whose answer settles what comes next. -/
  | byte (address : Nat) (next : UInt8 → Reading α)

namespace Reading

variable {α : Type}

/-- `length` bytes from the address on, after some that were read before, the last one first. -/
def bytesAfter (before : List UInt8) (address : Nat) : (length : Nat) → Reading (List UInt8)
  | 0 => .done before.reverse
  | length + 1 => .byte address fun x => bytesAfter (x :: before) (address + 1) length

/-- `length` bytes from the address on. -/
def bytes (address length : Nat) : Reading (List UInt8) :=
  bytesAfter [] address length

/-- The difference of the first bytes in which two ranges differ, or 0: a byte of each at a time, and none after those
that differ. -/
def difference (left right : Nat) : (length : Nat) → Reading Int
  | 0 => .done 0
  | length + 1 =>
    .byte left fun x => .byte right fun y =>
      if x = y then difference (left + 1) (right + 1) length else .done ((x.toNat : Int) - (y.toNat : Int))

/-- The result, if each call is answered by the byte that a memory has at the address. -/
def run (m : Memory) : Reading α → α
  | done result => result
  | byte address next => (next (m address)).run m

/-- The addresses of the bytes that are then asked for, in order. -/
def asked (m : Memory) : Reading α → List Nat
  | done _ => []
  | byte address next => address :: (next (m address)).asked m

/-! ## What is answered -/

theorem run_bytesAfter (m : Memory) (before : List UInt8) (address length : Nat) :
    (bytesAfter before address length).run m = before.reverse ++ m.read address length := by
  induction length generalizing before address with
  | zero => exact (List.append_nil _).symm
  | succ length ih =>
    rw [bytesAfter, run, ih, Memory.read_succ, List.reverse_cons, List.append_assoc]
    rfl

theorem run_bytes (m : Memory) (address length : Nat) :
    (bytes address length).run m = m.read address length :=
  run_bytesAfter m [] address length

theorem run_difference (m : Memory) (left right length : Nat) :
    (difference left right length).run m =
      Bytes.difference (m.read left length) (m.read right length) := by
  induction length generalizing left right with
  | zero => rfl
  | succ length ih =>
    rw [difference, run, run, Memory.read_succ, Memory.read_succ, Bytes.difference]
    split
    · exact ih (left + 1) (right + 1)
    · rfl

/-! ## What is asked for -/

theorem asked_bytesAfter (m : Memory) (before : List UInt8) (address length : Nat) :
    (bytesAfter before address length).asked m = List.range' address length := by
  induction length generalizing before address with
  | zero => rfl
  | succ length ih =>
    rw [bytesAfter, asked, ih]
    rfl

/-- Every byte of the range once, and no other. -/
theorem asked_bytes (m : Memory) (address length : Nat) : (bytes address length).asked m = List.range' address length :=
  asked_bytesAfter m [] address length

/-- No byte outside the two ranges. -/
theorem of_mem_asked_difference {m : Memory} {left right length a : Nat}
    (ha : a ∈ (difference left right length).asked m) :
    (left ≤ a ∧ a < left + length) ∨ (right ≤ a ∧ a < right + length) := by
  induction length generalizing left right with
  | zero => cases ha
  | succ length ih =>
    rw [difference, asked, asked, List.mem_cons, List.mem_cons] at ha
    rcases ha with rfl | rfl | ha
    · exact .inl ⟨Nat.le_refl _, by omega⟩
    · exact .inr ⟨Nat.le_refl _, by omega⟩
    · split at ha
      · have hrest := ih ha
        omega
      · cases ha

end Reading

end TrackedHeap
