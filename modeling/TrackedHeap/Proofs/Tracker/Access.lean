import TrackedHeap.Proofs.Tracker.Run

/-!
# What an access is checked against

Two things settle what becomes of a handle: of the handle only its id counts (`Tracker.Interchangeable`), and an
access is let through exactly if the block is live and the range ends within the size that was asked for
(`Tracker.Guarded`). The end is the sum as a natural number. A machine adds words, and a sum that is no word is
refused; that it would be refused anyway is because no live block is that large (`Tracker.Sized`), which every
operation keeps, whatever the heap.
-/

namespace TrackedHeap

/-- A size that is padded to a word is a word. -/
theorem Alignment.lt_limit_of_paddedSize {a : Alignment} {size padded : Nat}
    (h : a.paddedSize size = .ok padded) : size < Word.limit := by
  have := paddedSize_eq_ok.mp h
  omega

namespace CopyMode

/-- If elements are to be reversed, they are of a size that can be, and the length is made of whole ones. -/
def Fits (mode : CopyMode) (length : Nat) : Prop :=
  ∀ width, mode = .byteSwap width → (width = 2 ∨ width = 4 ∨ width = 8) ∧ width ∣ length

theorem validate_eq_ok_iff {mode : CopyMode} {length : Nat} :
    mode.validate length = .ok () ↔ mode.Fits length := by
  fun_cases CopyMode.validate mode length
  case case1 => simp [Fits]
  case case2 width hwidth =>
    refine iff_of_false (fun h => by cases h) fun h => ?_
    have := (h width rfl).1
    omega
  case case3 width hwidth hlength =>
    exact iff_of_false (fun h => by cases h) fun h => hlength (Nat.mod_eq_zero_of_dvd (h width rfl).2)
  case case4 width hwidth hlength =>
    refine iff_of_true rfl fun w hw => ?_
    cases hw
    exact ⟨by omega, Nat.dvd_of_mod_eq_zero (Decidable.not_not.mp hlength)⟩

theorem kind_of_validate {mode : CopyMode} {length : Nat} {e : MemoryError}
    (h : mode.validate length = .error e) : e.kind = .invalidArgument := by
  revert h
  fun_cases CopyMode.validate mode length <;> intro h <;> cases h <;> rfl

end CopyMode

namespace Tracker

/-! ## The sizes of live blocks -/

/-- No live block is larger than a word can say. -/
def Sized {H : Type} (t : Tracker H) : Prop :=
  ∀ b ∈ t.blocks, b.requestedSize < Word.limit

theorem sized_ofHeap {H : Type} (heap : H) (budget : Option Nat) : (ofHeap heap budget).Sized :=
  fun _ hb => absurd hb List.not_mem_nil

variable {H : Type} [Heap H] {t t' : Tracker H}

omit [Heap H] in
theorem Sized.concat (h : t.Sized) {kept : List Block} (hk : ∀ b ∈ kept, b ∈ t.blocks) {block : Block}
    (hb : t'.blocks = kept ++ [block]) (hsize : block.requestedSize < Word.limit) : t'.Sized := by
  intro b hm
  rw [hb, List.mem_append, List.mem_singleton] at hm
  rcases hm with hm | rfl
  · exact h b (hk b hm)
  · exact hsize

/-- New blocks are padded to a word, and no other block changes its size. -/
theorem Step.sized (s : Step t t') (h : t.Sized) : t'.Sized := by
  cases s with
  | advance n => exact h
  | allocate size alignment =>
    fun_cases Tracker.allocate t size alignment
    case case5 hsize padded hp raw heap ha hraw block =>
      exact h.concat (fun _ hb => hb) rfl (Alignment.lt_limit_of_paddedSize hp)
    all_goals exact h
  | free handle =>
    fun_cases Tracker.free t handle
    case case1 => exact h
    case case2 live hl => exact fun b hb => h b (mem_others.mp hb).1
  | reallocate handle size =>
    fun_cases Tracker.reallocate t handle size
    case case5 hsize old hl padded hp raw heap ha resized =>
      exact h.concat (fun _ hb => (mem_others.mp hb).1) rfl (Alignment.lt_limit_of_paddedSize hp)
    all_goals exact h
  | fill handle offset length byte =>
    fun_cases Tracker.fill t handle offset length byte <;> exact h
  | write handle offset bytes =>
    fun_cases Tracker.write t handle offset bytes <;> exact h
  | copy source offset target offset' length mode =>
    fun_cases Tracker.copy t source offset target offset' length mode <;> exact h

theorem Steps.sized (s : Steps t t') (h : t.Sized) : t'.Sized := by
  induction s with
  | refl => exact h
  | tail _ last ih => exact last.sized ih

/-! ## Handles with one id -/

/-- Handles with one id do the same in every operation, wherever they stand in it. -/
structure Interchangeable (t : Tracker H) : Prop where
  isLive : ∀ x y : Block, x.id = y.id → t.isLive x = t.isLive y
  free : ∀ x y : Block, x.id = y.id → t.free x = t.free y
  reallocate : ∀ x y : Block, x.id = y.id → ∀ size, t.reallocate x size = t.reallocate y size
  fill : ∀ x y : Block, x.id = y.id → ∀ offset length byte,
    t.fill x offset length byte = t.fill y offset length byte
  zero : ∀ x y : Block, x.id = y.id → ∀ offset length, t.zero x offset length = t.zero y offset length
  write : ∀ x y : Block, x.id = y.id → ∀ offset bytes, t.write x offset bytes = t.write y offset bytes
  read : ∀ x y : Block, x.id = y.id → ∀ offset length, t.read x offset length = t.read y offset length
  copy : ∀ x y x' y' : Block, x.id = y.id → x'.id = y'.id → ∀ offset offset' length mode,
    t.copy x offset x' offset' length mode = t.copy y offset y' offset' length mode
  compare : ∀ x y x' y' : Block, x.id = y.id → x'.id = y'.id → ∀ offset offset' length,
    t.compare x offset x' offset' length = t.compare y offset y' offset' length

omit [Heap H] in
theorem locate_of_id_eq (t : Tracker H) {x y : Block} (h : x.id = y.id) (offset length : Nat) :
    t.locate x offset length = t.locate y offset length := by
  unfold locate
  rw [h]

theorem interchangeable (t : Tracker H) : t.Interchangeable where
  isLive x y h := by
    unfold Tracker.isLive
    rw [h]
  free x y h := by
    unfold Tracker.free
    rw [h]
  reallocate x y h size := by
    unfold Tracker.reallocate
    rw [h]
  fill x y h offset length byte := by
    unfold Tracker.fill
    rw [locate_of_id_eq t h]
  zero x y h offset length := by
    unfold Tracker.zero Tracker.fill
    rw [locate_of_id_eq t h]
  write x y h offset bytes := by
    unfold Tracker.write
    rw [locate_of_id_eq t h]
  read x y h offset length := by
    rw [Tracker.read_eq, Tracker.read_eq, locate_of_id_eq t h]
  copy x y x' y' h h' offset offset' length mode := by
    unfold Tracker.copy
    rw [locate_of_id_eq t h, locate_of_id_eq t h']
  compare x y x' y' h h' offset offset' length := by
    rw [Tracker.compare_eq, Tracker.compare_eq, locate_of_id_eq t h, locate_of_id_eq t h']

/-! ## Accesses within bounds -/

/-- Whether an access of `length` bytes at `offset` is granted, and why it is not. -/
def access (t : Tracker H) (handle : Block) (offset length : Nat) : Except MemoryError Unit :=
  (t.locate handle offset length).map fun _ => ()

/-- Accesses are granted exactly within the bounds of live blocks, and every operation on bytes succeeds exactly if
its accesses are granted; otherwise it reports the first that is not. -/
structure Guarded (t : Tracker H) : Prop where
  /-- The state is to blame exactly if the block is not live. -/
  dead : ∀ handle offset length,
    (∃ text, t.access handle offset length = .error (.illegalState text)) ↔ t.isLive handle = false
  /-- The bounds are to blame exactly if the range ends after the size that is registered. -/
  outside : ∀ handle offset length e,
    t.access handle offset length = .error e ∧ e.kind = .boundsViolation ↔
      ∃ live, t.lookup handle.id = some live ∧ live.requestedSize < offset + length ∧
        e = .boundsViolation offset length live.requestedSize
  granted : ∀ handle offset length, t.access handle offset length = .ok () ↔
    ∃ live, t.lookup handle.id = some live ∧ offset + length ≤ live.requestedSize
  fill : ∀ handle offset length byte,
    (t.fill handle offset length byte).1 = t.access handle offset length
  zero : ∀ handle offset length, (t.zero handle offset length).1 = t.access handle offset length
  write : ∀ handle offset bytes,
    (t.write handle offset bytes).1 = t.access handle offset bytes.length
  read : ∀ handle offset length,
    (t.read handle offset length).map (fun _ => ()) = t.access handle offset length
  compare : ∀ left offset right offset' length,
    (t.compare left offset right offset' length).map (fun _ => ()) = do
      t.access left offset length
      t.access right offset' length
  copy : ∀ source offset target offset' length mode,
    (t.copy source offset target offset' length mode).1 = do
      mode.validate length
      t.access source offset length
      t.access target offset' length

omit [Heap H] in
theorem access_of_lookup_eq_none {handle : Block} (h : t.lookup handle.id = none) (offset length : Nat) :
    t.access handle offset length = .error (.freedOrUnknown handle.id) := by
  unfold access locate
  rw [h]
  rfl

omit [Heap H] in
/-- The sum of offset and length need not be a word, for no block is that large. -/
theorem Sized.access_of_lookup (h : t.Sized) {handle live : Block} (hl : t.lookup handle.id = some live)
    (offset length : Nat) :
    t.access handle offset length =
      if offset + length ≤ live.requestedSize then .ok ()
      else .error (.boundsViolation offset length live.requestedSize) := by
  have hsize := h live (mem_of_lookup hl).1
  unfold access locate
  rw [hl]
  cases hsum : Word.add? offset length with
  | none =>
    have hlimit := Word.add?_eq_none.mp hsum
    rw [if_neg (by omega)]
    rfl
  | some stop =>
    obtain ⟨rfl, -⟩ := Word.add?_eq_some.mp hsum
    simp only
    split <;> rfl

theorem Sized.guarded (h : t.Sized) : t.Guarded where
  dead handle offset length := by
    unfold Tracker.isLive
    cases hl : t.lookup handle.id with
    | none => exact iff_of_true ⟨_, access_of_lookup_eq_none hl offset length⟩ rfl
    | some live =>
      refine iff_of_false ?_ (fun h => by cases h)
      rw [h.access_of_lookup hl]
      split <;> rintro ⟨text, h⟩ <;> cases h
  outside handle offset length e := by
    cases hl : t.lookup handle.id with
    | none =>
      rw [access_of_lookup_eq_none hl]
      refine iff_of_false ?_ (by simp)
      rintro ⟨he, hk⟩
      cases he
      cases hk
    | some live =>
      rw [h.access_of_lookup hl]
      constructor
      · split
        · rintro ⟨he, -⟩
          cases he
        · next hlt =>
          rintro ⟨he, -⟩
          cases he
          exact ⟨live, rfl, Nat.lt_of_not_le hlt, rfl⟩
      · rintro ⟨b, hb, hlt, rfl⟩
        cases hb
        exact ⟨if_neg (Nat.not_le_of_lt hlt), rfl⟩
  granted handle offset length := by
    cases hl : t.lookup handle.id with
    | none =>
      rw [access_of_lookup_eq_none hl]
      exact iff_of_false (fun h => by cases h) (by simp)
    | some live =>
      rw [h.access_of_lookup hl]
      constructor
      · split
        · next hle => exact fun _ => ⟨live, rfl, hle⟩
        · exact fun h => by cases h
      · rintro ⟨b, hb, hle⟩
        cases hb
        exact if_pos hle
  fill handle offset length byte := by
    unfold Tracker.fill access
    cases t.locate handle offset length <;> rfl
  zero handle offset length := by
    unfold Tracker.zero Tracker.fill access
    cases t.locate handle offset length <;> rfl
  write handle offset bytes := by
    unfold Tracker.write access
    cases t.locate handle offset bytes.length <;> rfl
  read handle offset length := by
    rw [Tracker.read_eq]
    unfold access
    cases t.locate handle offset length <;> rfl
  compare left offset right offset' length := by
    rw [Tracker.compare_eq]
    unfold access
    cases t.locate left offset length with
    | error e => rfl
    | ok x => cases t.locate right offset' length <;> rfl
  copy source offset target offset' length mode := by
    unfold Tracker.copy access
    cases mode.validate length with
    | error e => rfl
    | ok =>
      cases t.locate source offset length with
      | error e => rfl
      | ok start =>
        cases t.locate target offset' length with
        | error e => rfl
        | ok stop => cases mode <;> rfl

end Tracker

end TrackedHeap
