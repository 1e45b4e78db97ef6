import TrackedHeap.Carver.Basic
import TrackedHeap.Proofs.Tracker.Turnover

/-!
# Ranges in the hands of clients

A carver is sound with respect to the ranges that clients have of it: each lies in a live block behind the
carver, and two of them in one block share no byte (`Owned`). What clients have is kept in a list: a range
joins it when it is granted and leaves it when it has come back (`CarveOut.taken`, `CarveOut.returned`).
-/

namespace TrackedHeap

namespace CarveOut

/-- The bytes of the range. -/
def range (c : CarveOut) : Extent where
  start := c.address
  size := c.grantedSize

/-- The place of the range in its block. -/
def span (c : CarveOut) : Extent where
  start := c.offset
  size := c.grantedSize

/-- If the ranges are in one block, they share no byte of it. -/
def Apart (c d : CarveOut) : Prop :=
  c.block.id = d.block.id → c.span.Apart d.span

/-- Whether both start at one place of one block. -/
def sameStart (c d : CarveOut) : Bool :=
  c.block.id == d.block.id && c.offset == d.offset

/-- What clients have after a request was answered. -/
def taken (answer : Except MemoryError CarveOut) (out : List CarveOut) : List CarveOut :=
  match answer with
  | .ok c => c :: out
  | .error _ => out

/-- What clients have after a range was given back, or was refused. -/
def returned {α : Type} (answer : Except MemoryError α) (handle : CarveOut) (out : List CarveOut) :
    List CarveOut :=
  match answer with
  | .ok _ => out.filter fun c => !c.sameStart handle
  | .error _ => out

theorem sameStart_iff {c d : CarveOut} :
    c.sameStart d = true ↔ c.block.id = d.block.id ∧ c.offset = d.offset := by
  simp [sameStart]

theorem mem_returned_ok {α : Type} {handle c : CarveOut} {a : α} {out : List CarveOut} :
    c ∈ returned (.ok a) handle out ↔
      c ∈ out ∧ (c.block.id = handle.block.id → c.offset ≠ handle.offset) := by
  rw [returned, List.mem_filter, Bool.not_eq_true', Bool.eq_false_iff, ne_eq, sameStart_iff, not_and]

/-- Only whether the range was taken back counts. -/
theorem returned_map {α β : Type} (f : α → β) (answer : Except MemoryError α) (handle : CarveOut)
    (out : List CarveOut) : returned (answer.map f) handle out = returned answer handle out := by
  cases answer <;> rfl

/-- Nothing joins when a range is given back. -/
theorem returned_sublist {α : Type} (answer : Except MemoryError α) (handle : CarveOut)
    (out : List CarveOut) : (returned answer handle out).Sublist out := by
  cases answer with
  | ok => exact List.filter_sublist
  | error => exact List.Sublist.refl out

theorem filter_taken {p : CarveOut → Bool} {answer : Except MemoryError CarveOut}
    (hp : ∀ c, answer = .ok c → p c = true) (out : List CarveOut) :
    (taken answer out).filter p = taken answer (out.filter p) := by
  cases answer with
  | ok c => exact List.filter_cons_of_pos (hp c rfl)
  | error => rfl

theorem filter_taken_not {p : CarveOut → Bool} {answer : Except MemoryError CarveOut}
    (hp : ∀ c, answer = .ok c → ¬ p c = true) (out : List CarveOut) :
    (taken answer out).filter p = out.filter p := by
  cases answer with
  | ok c => exact List.filter_cons_of_neg (hp c rfl)
  | error => rfl

theorem filter_returned {α : Type} (p : CarveOut → Bool) (answer : Except MemoryError α)
    (handle : CarveOut) (out : List CarveOut) :
    (returned answer handle out).filter p = returned answer handle (out.filter p) := by
  cases answer with
  | ok => simp only [returned, List.filter_filter, Bool.and_comm]
  | error => rfl

end CarveOut

/-- A list is pairwise related if each part of it is, and elements of different parts are. -/
theorem pairwise_of_filter {α β : Type} [DecidableEq β] {R : α → α → Prop} {l : List α} (part : α → β)
    (hsame : ∀ k, (l.filter fun a => part a = k).Pairwise R)
    (hdiff : ∀ a ∈ l, ∀ b ∈ l, part a ≠ part b → R a b) : l.Pairwise R := by
  refine List.pairwise_iff_forall_sublist.mpr fun {a b} hs => ?_
  by_cases he : part a = part b
  · have hf := hs.filter fun x => decide (part x = part b)
    simp only [he, List.filter_cons, decide_true, if_true, List.filter_nil] at hf
    exact List.pairwise_iff_forall_sublist.mp (hsame (part b)) hf
  · exact hdiff a (hs.subset (by simp)) b (hs.subset (by simp)) he

/-- Ranges inside live blocks that share no byte of one block share none of the address space. -/
theorem CarveOut.Apart.range_apart {blocks : List Block} {nextId : Nat} (hl : Layout blocks nextId) {c d : CarveOut}
    (hc : c.block ∈ blocks) (hd : d.block ∈ blocks) (hcfits : c.offset + c.grantedSize ≤ c.block.requestedSize)
    (hdfits : d.offset + d.grantedSize ≤ d.block.requestedSize) (h : c.Apart d) : c.range.Apart d.range := by
  by_cases hid : c.block.id = d.block.id
  · have hblock := hl.eq_of_id hc hd hid
    have hspan := h hid
    simp only [CarveOut.range, CarveOut.address, CarveOut.span, Extent.Apart, hblock] at hspan ⊢
    omega
  · have husable := hl.usable_apart hc hd hid
    simp only [CarveOut.range, CarveOut.address, Block.usable, Extent.Apart] at husable ⊢
    omega

variable {H : Type}

/-- The ranges that clients have, in the live blocks with certain ids. -/
structure Owned (t : Tracker H) (ids : List Nat) (out : List CarveOut) : Prop where
  live : ∀ id ∈ ids, ∃ b ∈ t.blocks, b.id = id
  mem : ∀ c ∈ out, c.block ∈ t.blocks
  backed : ∀ c ∈ out, c.block.id ∈ ids
  fits : ∀ c ∈ out, c.offset + c.grantedSize ≤ c.block.requestedSize
  enough : ∀ c ∈ out, c.requestedSize ≤ c.grantedSize
  apart : out.Pairwise CarveOut.Apart

/-- The blocks with certain ids that are live in one state are live in the other. -/
def Tracker.Keeps (t t' : Tracker H) (ids : List Nat) : Prop :=
  ∀ b ∈ t.blocks, b.id ∈ ids → b ∈ t'.blocks

namespace Tracker

variable {t t' : Tracker H} {before after : List Nat}

theorem Turnover.keeps (h : Turnover t t' before after) : t.Keeps t' after :=
  fun b hb hid => h.kept b hb (.inr hid)

theorem Keeps.mono {ids ids' : List Nat} (h : t.Keeps t' ids) (hs : ∀ id ∈ ids', id ∈ ids) :
    t.Keeps t' ids' :=
  fun b hb hid => h b hb (hs _ hid)

end Tracker

end TrackedHeap
