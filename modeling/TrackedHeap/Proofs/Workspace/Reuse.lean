import TrackedHeap.Proofs.Workspace.Usage

/-!
# Buddies and handles that are kept

A buddy region looks at the place that a handle names and at nothing else that the handle says. A place is used
again at other sizes, so a handle that is kept after its range came back stands for whatever range starts there
now. What comes back is that range (`Buddy.Exact.release_one`); it is the handle's own as long as a client has
that one, and as many bytes as the handle says only if it is of that size (`Session.run_buddy_release`).
-/

namespace TrackedHeap

namespace Buddy

variable {H : Type} {t : Tracker H} {b : Buddy} {out : List CarveOut} {handle : CarveOut}

/-- The one range at the place of a handle comes back, with its chunk and its bytes. -/
theorem Exact.release_one (h : b.Exact out) (hs : b.Sound t out) (hok : (b.release handle).1 = .ok ()) :
    ∃ o ∈ out, (∀ p ∈ out, p.sameStart handle = true ↔ p = o) ∧
      (∃ d ∈ b.live, o.span = d.extent ∧ (b.release handle).2.live = b.live.erase d) ∧
      (b.release handle).2.allocated + o.grantedSize = b.allocated := by
  have hr : b.release handle = (.ok (), (b.release handle).2) := Prod.ext hok rfl
  obtain ⟨o, ho, hsame, d, hd, hspan, hlive, hallocated⟩ := h.release_ok hs hr
  refine ⟨o, ho, fun p hp => ⟨fun hp' => ?_, fun he => he ▸ hsame⟩, ⟨d, hd, hspan, hlive⟩, ?_⟩
  · exact hs.scattered.eq_of_sameStart hp ho (CarveOut.sameStart_trans hp' (CarveOut.sameStart_symm hsame))
  · have hsplit := hs.scattered.grantedBytes_returned ho hsame ()
    rw [← h.allocated_eq] at hsplit
    omega

end Buddy

/-- The buddies of clients, those of allocators with them. -/
def Workspace.buddies {H : Type} (w : Workspace H) : List Buddy :=
  w.carvers.filterMap fun
    | .buddy b => some b
    | _ => none

theorem Workspace.buddy_mem_carvers {H : Type} {w : Workspace H} {b : Buddy} (h : b ∈ w.buddies) :
    .buddy b ∈ w.carvers := by
  obtain ⟨c, hc, he⟩ := List.mem_filterMap.mp h
  cases c with
  | buddy b' => exact Option.some.inj he ▸ hc
  | _ => cases he

namespace Session

variable {H : Type} [Heap H]

/-- In every disciplined run, a handle that a buddy takes back brings back the range that a client has at its
place, and that range's bytes, not those that the handle says. It is the handle's own if a client has that
one. -/
theorem run_buddy_release (heap : H) (budget : Option Nat) (alignment : Alignment) (requests : List Request)
    (hd : (opened heap budget alignment).Disciplined requests) :
    let s := (opened heap budget alignment).run requests
    ∀ b ∈ s.workspace.buddies, ∀ m ∈ s.issued, (b.release m).1 = .ok () →
      ∃ o ∈ s.outstanding, (∀ p ∈ s.outstanding, p.sameStart m = true ↔ p = o) ∧
        (∃ d ∈ b.live, o.span = d.extent ∧ (b.release m).2.live = b.live.erase d) ∧
        (b.release m).2.allocated + o.grantedSize = b.allocated ∧
        ((b.release m).2.allocated + m.grantedSize = b.allocated ↔ o.grantedSize = m.grantedSize) ∧
        (m ∈ s.outstanding → o = m) := by
  intro s b hmem m hm hok
  have hb := Workspace.buddy_mem_carvers hmem
  obtain ⟨h, hx⟩ : s.InOrder ∧ s.Exact := exact_of_disciplined hd
  have hsound : b.Sound s.workspace.tracker _ := h.accounted.estate.sound _ hb
  obtain ⟨o, ho, hone, hlive, hallocated⟩ := Buddy.Exact.release_one (hx _ hb) hsound hok
  have hsame : o.sameStart m = true := (hone o ho).mpr rfl
  obtain ⟨ho, hid⟩ := Carver.mem_part.mp ho
  -- a range at that place is in the same block
  have hone' : ∀ p ∈ s.outstanding, p.sameStart m = true ↔ p = o := fun p hp => by
    refine ⟨fun hp' => (hone p (Carver.mem_part.mpr ⟨hp, ?_⟩)).mp hp', fun he => he ▸ hsame⟩
    rwa [(CarveOut.sameStart_iff.mp hp').1, ← (CarveOut.sameStart_iff.mp hsame).1]
  refine ⟨o, ho, hone', hlive, hallocated, by omega, fun hown => ?_⟩
  exact ((hone' m hown).mp (CarveOut.sameStart_iff.mpr ⟨rfl, rfl⟩)).symm

/-- A handle that is kept takes back the next range at its place, which is of the same size. -/
theorem run_buddy_release_reused :
    let kept : CarveOut :=
      { block := .place 1 65536 1024 1024 .byte 0, offset := 0, grantedSize := 128, requestedSize := 100 }
    let requests : List Request :=
      [.build "buddy" .buddy 1024 .byte, .carve "buddy" 100, .giveBack "buddy" kept, .carve "buddy" 120]
    let s := (opened (BumpHeap.ofPlan {}) none .byte).run requests
    kept ∉ s.outstanding ∧ ∃ b ∈ s.workspace.buddies, (b.release kept).1 = .ok () ∧
      ∃ o ∈ s.outstanding, o.requestedSize = 120 ∧
        (b.release kept).2.allocated + o.grantedSize = b.allocated ∧
        ((b.release kept).2.allocated + kept.grantedSize = b.allocated ↔ o.grantedSize = kept.grantedSize) := by
  intro kept requests s
  have hd : (opened (BumpHeap.ofPlan {}) none .byte).Disciplined requests := by
    decide +kernel
  have hrelease : ∃ b ∈ s.workspace.buddies, (b.release kept).1 = .ok () := by
    decide +kernel
  have hasked : ∀ o ∈ s.outstanding, o.requestedSize = 120 := by
    decide +kernel
  obtain ⟨b, hb, hok⟩ := hrelease
  obtain ⟨o, ho, -, -, hallocated, hsize, -⟩ :=
    run_buddy_release _ none .byte requests hd b hb kept (by decide +kernel) hok
  exact ⟨by decide +kernel, b, hb, hok, o, ho, hasked o ho, hallocated, hsize⟩

/-- A handle of 128 bytes that is kept takes back the range of 1024 bytes that is at its place by then. -/
theorem run_buddy_release_larger :
    let kept : CarveOut :=
      { block := .place 1 65536 1024 1024 .byte 0, offset := 0, grantedSize := 128, requestedSize := 100 }
    let requests : List Request :=
      [.build "buddy" .buddy 1024 .byte, .carve "buddy" 100, .giveBack "buddy" kept, .carve "buddy" 1000]
    let s := (opened (BumpHeap.ofPlan {}) none .byte).run requests
    (opened (BumpHeap.ofPlan {}) none .byte).Disciplined requests ∧ kept ∈ s.issued ∧
      (s.outstanding.map fun o => (o.block.id, o.offset, o.grantedSize)) = [(1, 0, 1024)] ∧
      ∃ b ∈ s.workspace.buddies, b.allocated = 1024 ∧ (b.release kept).1 = .ok () ∧
        (b.release kept).2.allocated = 0 ∧ (b.release kept).2.live = [] := by
  decide +kernel

end Session

end TrackedHeap
