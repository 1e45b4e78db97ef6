import TrackedHeap.Proofs.Teardown.Charge
import TrackedHeap.Proofs.Workspace.Usage

/-!
# Where ranges come from

A carver takes blocks that are new to everybody and lets go of others, but never has a block that was
somewhere else before (`Carver.invariant_lacks`). So however carvers come, go and change, a block that was
behind the one at a seat is never behind one at another seat (`Workspace.OnlyAt`), and a range goes back where
it came from: the carver that granted it takes it, and all others refuse it (`Session.run_release`).
-/

namespace TrackedHeap

variable {H : Type} [Heap H]

/-! ## Blocks behind a carver -/

namespace Carver

variable {t : Tracker H} {id : Nat}

omit [Heap H] in
theorem backing_release (c : Carver) (t : Tracker H) (handle : CarveOut) :
    (c.release t handle).2.1.backing = c.backing := by
  by_cases hc : c.strategy = .objectPool
  · cases c with
    | objectPool p =>
      show (p.release t handle).2.owned = p.owned
      fun_cases ObjectPool.release p t handle <;> rfl
    | _ => cases hc
  · rw [← base_eq_backing hc, ← base_eq_backing (c.strategy_release t handle ▸ hc), base_release]

/-- What a carver has more of after a request is new. -/
theorem mem_backing_allocate (c : Carver) (t : Tracker H) (size : Nat)
    (h : id ∈ (c.allocate t size).2.1.backing) : id ∈ c.backing ∨ t.nextId ≤ id := by
  by_cases hc : c.strategy = .objectPool
  · cases c with
    | objectPool p =>
      revert h
      show id ∈ (p.carve t size).2.1.owned → _
      fun_cases ObjectPool.carve p t size
      case case5 hsize hnone hroom block t' ha =>
        intro h
        rcases List.mem_cons.mp h with rfl | h
        · exact .inr (Nat.le_of_eq (Tracker.allocate_ok ha).2.2.1.symm)
        · exact .inl h
      all_goals exact .inl
    | _ => cases hc
  · rw [← base_eq_backing hc]
    rw [← base_eq_backing (c.strategy_allocate t size ▸ hc)] at h
    exact ((draws_allocate hc t size).given id h).imp_right And.left

theorem mem_backing_reset (c : Carver) (t : Tracker H) (h : id ∈ (c.reset t).2.1.backing) :
    id ∈ c.backing := by
  have harena (a : Arena) (t : Tracker H) : (a.reset t).2.1.backing.Sublist a.backing :=
    (List.sublist_append_right a.later [a.first]).map Block.id
  cases c with
  | buddy b =>
    rw [backing, ← b.backing_reset]
    exact h
  | slab s => exact absurd h List.not_mem_nil
  | arena a => exact (harena a t).subset h
  | ringBuffer r => exact h
  | objectPool p => exact ((p.mem_owned_reset t).mp h).1
  | hybrid h' =>
    rcases List.mem_append.mp h with h | h
    · exact absurd h List.not_mem_nil
    · rw [h'.medium.backing_reset] at h
      exact List.mem_append_right _ (((harena _ (h'.small.reset t).2).append_left _).subset h)

/-- A block that was given out gets behind no further carver. -/
theorem invariant_lacks (hn : t.Numbered) (hid : id < t.nextId) (Q : Prop) :
    Carver.Invariant t fun c => id ∈ c.backing → Q where
  build hb hmem :=
    absurd hid (Nat.not_lt_of_le (((sound_of_build hn hb).2.fresh id hmem).resolve_left List.not_mem_nil))
  allocate {c} size h hmem :=
    h ((c.mem_backing_allocate t size hmem).resolve_right (Nat.not_le_of_lt hid))
  release {c} handle h hmem := h (c.backing_release t handle ▸ hmem)
  reset {c} t' h hmem := h (c.mem_backing_reset t' hmem)

end Carver

/-! ## Seats -/

namespace Workspace

variable {w : Workspace H} {label : String} {c : Carver} {seat : Seat} {id : Nat}

omit [Heap H] in
/-- No two carvers have one seat. -/
theorem Distinct.nodup_seats (h : w.Distinct) : (w.seats.map Prod.fst).Nodup := by
  have hlabels := List.pairwise_map.mp h.labels
  have hserials := List.pairwise_map.mp h.registry.serials
  refine List.pairwise_map.mpr (List.pairwise_append.mpr ⟨?own, ?shared, ?cross⟩)
  case own =>
    refine List.pairwise_filterMap.mpr (hlabels.imp fun hne x hx y hy => ?_)
    obtain ⟨-, -, rfl⟩ := Option.map_eq_some_iff.mp hx
    obtain ⟨-, -, rfl⟩ := Option.map_eq_some_iff.mp hy
    exact fun he => hne (Seat.own.inj he)
  case shared => exact List.pairwise_map.mpr (hserials.imp fun hne he => hne (Seat.shared.inj he))
  case cross =>
    intro x hx y hy
    obtain ⟨p, -, hx⟩ := List.mem_filterMap.mp hx
    obtain ⟨-, -, rfl⟩ := Option.map_eq_some_iff.mp hx
    obtain ⟨a, -, rfl⟩ := List.mem_map.mp hy
    exact fun he => by cases he

/-- A block that is behind a carver is behind the one at this seat. -/
def OnlyAt (w : Workspace H) (seat : Seat) (id : Nat) : Prop :=
  w.Throughout fun seat' c => id ∈ c.backing → seat' = seat

theorem OnlyAt.perform (h : w.OnlyAt seat id) (hn : w.tracker.Numbered) (hid : id < w.tracker.nextId)
    (request : Request) : (w.perform request).2.OnlyAt seat id :=
  throughout_perform (fun _ => Carver.invariant_lacks hn hid _) h request

omit [Heap H] in
/-- No block is behind two carvers. -/
theorem onlyAt_of_mem (hapart : w.carvers.Pairwise Carver.Apart) (hc : (seat, c) ∈ w.seats)
    (hid : id ∈ c.backing) : w.OnlyAt seat id := by
  rw [← map_seats, List.pairwise_map] at hapart
  refine throughout_iff.mpr fun x hx hid' => ?_
  have : Std.Symm fun a b : Seat × Carver => a.2.Apart b.2 := ⟨fun _ _ => Carver.Apart.symm⟩
  by_contra hne
  exact hapart.forall hc hx (fun he => hne (congrArg Prod.fst he).symm) id hid hid'

omit [Heap H] in
theorem onlyAt_of_le {issued out : List CarveOut} (h : w.Accounted issued out) (hn : w.tracker.Numbered)
    (seat : Seat) (hid : w.tracker.nextId ≤ id) : w.OnlyAt seat id :=
  throughout_iff.mpr fun x hx hmem => by
    have hsound := h.estate.sound x.2 (mem_carvers.mpr ⟨x.1, hx⟩)
    exact absurd (hsound.lt_nextId hn hmem) (Nat.not_lt_of_le hid)

/-- A range that is granted is in a block behind the carver at the seat of the label. -/
theorem onlyAt_granted {issued out : List CarveOut} (h : w.Accounted issued out) (hn : w.tracker.Numbered)
    {size : Nat} {o : CarveOut} (ho : o ∈ Session.granted (w.perform (.carve label size)).1) :
    ∃ seat, w.seat? label = some seat ∧ (w.perform (.carve label size)).2.OnlyAt seat o.block.id := by
  cases hl : w.carver? label with
  | none =>
    rw [Session.granted_carve_of_none hl] at ho
    exact absurd ho List.not_mem_nil
  | some c =>
    obtain ⟨seat, hs, hseat⟩ := w.throughout_seats.carver hl
    refine ⟨seat, hs, ?_⟩
    obtain ⟨hsound, -⟩ := (h.estate.sound c (mem_carvers.mpr ⟨seat, hseat⟩)).allocate hn size
    rw [← Session.granted_carve hl] at hsound
    have hmem := hsound.owned.backed o (List.mem_append_left _ ho)
    have hbefore : w.OnlyAt seat o.block.id := by
      rcases c.mem_backing_allocate w.tracker size hmem with hold | hnew
      · exact onlyAt_of_mem h.estate.apart hseat hold
      · exact onlyAt_of_le h hn seat hnew
    simp only [Workspace.perform, Workspace.onCarver, hl]
    exact (hbefore.with_tracker _).setCarver hs fun _ => rfl

end Workspace

/-! ## Runs -/

namespace Session

variable {s : Session H} {request : Request} {requests : List Request}
  {known : List (Seat × CarveOut)}

/-- The range that a request is granted, with the seat of the carver that grants it. -/
def grantedAt (s : Session H) : Request → List (Seat × CarveOut)
  | .carve label size =>
    (s.workspace.seat? label).toList.flatMap fun seat =>
      (granted (s.workspace.perform (.carve label size)).1).map (seat, ·)
  | _ => []

/-- The ranges that are granted in a run, with the seats of the carvers that grant them. -/
def origins (s : Session H) : List Request → List (Seat × CarveOut)
  | [] => []
  | request :: requests => s.grantedAt request ++ (s.perform request).origins requests

/-- All ranges that were ever granted came from somewhere, and are in blocks behind no other carver. -/
structure Traced (s : Session H) (known : List (Seat × CarveOut)) : Prop where
  issued : ∀ o, o ∈ s.issued ↔ o ∈ known.map Prod.snd
  onlyAt : ∀ x ∈ known, s.workspace.OnlyAt x.1 x.2.block.id

theorem mem_grantedAt {label : String} {size : Nat} {x : Seat × CarveOut}
    (h : x ∈ s.grantedAt (.carve label size)) : s.workspace.seat? label = some x.1 ∧
      x.2 ∈ granted (s.workspace.perform (.carve label size)).1 := by
  obtain ⟨seat, hseat, hx⟩ := List.mem_flatMap.mp h
  obtain ⟨o, ho, rfl⟩ := List.mem_map.mp hx
  exact ⟨Option.mem_toList.mp hseat, ho⟩

/-- What is granted comes from somewhere. -/
theorem map_grantedAt (s : Session H) (request : Request) :
    (s.grantedAt request).map Prod.snd ++ s.issued = (s.perform request).issued := by
  have hcarve (label : String) (size : Nat) : (s.grantedAt (.carve label size)).map Prod.snd =
      granted (s.workspace.perform (.carve label size)).1 := by
    cases hl : s.workspace.carver? label with
    | none =>
      rw [grantedAt, granted_carve_of_none hl]
      simp
    | some c =>
      obtain ⟨seat, hseat, -⟩ := s.workspace.throughout_seats.carver hl
      rw [grantedAt, hseat]
      simp
  cases request
  case carve label size => exact congrArg (· ++ s.issued) (hcarve label size)
  all_goals rfl

namespace Traced

omit [Heap H] in
theorem opened (heap : H) (budget : Option Nat) (alignment : Alignment) :
    (opened heap budget alignment).Traced [] where
  issued _ := Iff.rfl
  onlyAt _ hx := absurd hx List.not_mem_nil

theorem perform (h : s.Traced known) (hs : s.InOrder) (request : Request) :
    (s.perform request).Traced (known ++ s.grantedAt request) := by
  refine ⟨fun o => ?_, List.forall_mem_append.mpr ⟨fun x hx => ?_, fun x hx => ?_⟩⟩
  · rw [← map_grantedAt, List.mem_append, h.issued, List.map_append, List.mem_append, or_comm]
  · have hmem := (h.issued x.2).mpr (List.mem_map_of_mem hx)
    exact (h.onlyAt x hx).perform hs.numbered (hs.accounted.estate.given _ hmem) request
  · cases request
    case carve label size =>
      obtain ⟨hseat, hgranted⟩ := mem_grantedAt hx
      obtain ⟨seat, hseat', honly⟩ := Workspace.onlyAt_granted hs.accounted hs.numbered hgranted
      rwa [Option.some.inj (hseat'.symm.trans hseat)] at honly
    all_goals exact absurd hx List.not_mem_nil

theorem run (h : s.Traced known) (hs : s.InOrder) (hd : s.Disciplined requests) :
    (s.run requests).Traced (known ++ s.origins requests) := by
  induction requests generalizing s known with
  | nil => rwa [origins, List.append_nil]
  | cons request requests ih =>
    rw [origins, ← List.append_assoc]
    exact ih (h.perform hs request) (hs.perform hd.1) hd.2

end Traced

/-- In every disciplined run, a range that a client has is taken back by the carver that granted it, a hybrid
finding the part that it is of by its size, and is refused by every other one. Carvers that know their ranges
one by one refuse a range of any carver once no client has one at its place. -/
theorem run_release (heap : H) (budget : Option Nat) (alignment : Alignment) (requests : List Request)
    (hd : (opened heap budget alignment).Disciplined requests) :
    let s := (opened heap budget alignment).run requests
    let origins := (opened heap budget alignment).origins requests
    (s.workspace.seats.map Prod.fst).Nodup ∧
      (∀ o ∈ s.outstanding, ∃ seat, (seat, o) ∈ origins) ∧
      (∀ x ∈ origins, x.2 ∈ s.outstanding →
        (∃ c, (x.1, c) ∈ s.workspace.seats ∧ (c.release s.workspace.tracker x.2).1 = .ok () ∧
          ∀ h, c = .hybrid h → x.2.block.id ∈ h.backingOf (Tier.ofSize x.2.requestedSize)) ∧
        ∀ y ∈ s.workspace.seats, y.1 ≠ x.1 → y.2.Refuses s.workspace.tracker x.2) ∧
      ∀ o ∈ s.issued, ∀ c ∈ s.workspace.carvers,
        c.strategy = .buddy ∨ c.strategy = .slab ∨ c.strategy = .objectPool →
        (∀ p ∈ s.outstanding, ¬ p.sameStart o = true) → c.Refuses s.workspace.tracker o := by
  intro s origins
  obtain ⟨h, hx⟩ : s.InOrder ∧ s.Exact := exact_of_disciplined hd
  have he := h.accounted.estate
  have htraced : s.Traced origins :=
    (Traced.opened heap budget alignment).run (InOrder.opened heap budget alignment) hd
  refine ⟨h.distinct.nodup_seats, fun o ho => ?_, fun x hmem ho => ⟨?_, fun y hy hne => ?_⟩, ?_⟩
  · obtain ⟨x, hmem, rfl⟩ := List.mem_map.mp ((htraced.issued o).mp (he.drawn o ho))
    exact ⟨x.1, hmem⟩
  · obtain ⟨c, hc, hid⟩ := List.mem_flatMap.mp (h.accounted.backed x.2 ho)
    obtain ⟨seat, hseat⟩ := Workspace.mem_carvers.mp hc
    have hsame : seat = x.1 := Workspace.throughout_iff.mp (htraced.onlyAt x hmem) _ hseat hid
    have hpart : x.2 ∈ c.part s.outstanding := Carver.mem_part.mpr ⟨ho, hid⟩
    refine ⟨c, hsame ▸ hseat, (hx c hc).release_outstanding (he.sound c hc) hpart, fun h hc' => ?_⟩
    subst hc'
    exact (Hybrid.Sound.release_ok (he.sound _ hc) (hx _ hc) hpart).1
  · refine Carver.refuses_foreign fun hid => hne ?_
    exact Workspace.throughout_iff.mp (htraced.onlyAt x hmem) y hy hid
  · intro o ho c hc hstrategy hno
    refine (hx c hc).refuses_absent (he.sound c hc) h.numbered (he.known o ho c hc) hstrategy fun p hp => ?_
    exact hno p (Carver.mem_part.mp hp).1

/-- Two slab carvers under one label after each other, a shared hybrid and a range that came back. -/
theorem run_release_mixed :
    let twenty : CarveOut :=
      { block := .place 1 65537 128 128 .byte 0, offset := 0, grantedSize := 32, requestedSize := 20 }
    let requests : List Request :=
      [.build "buddy" .buddy 100 .byte, .get "hybrid" "shared" .hybrid 40000 none,
        .build "slab" .slab 256 .byte, .carve "buddy" 20, .carve "hybrid" 3000, .carve "slab" 16,
        .build "slab" .slab 256 .byte, .carve "slab" 16, .giveBack "buddy" twenty]
    let s := (opened (BumpHeap.ofPlan { base := 65537 }) none .byte).run requests
    let origins := (opened (BumpHeap.ofPlan { base := 65537 }) none .byte).origins requests
    (origins.map fun x => (x.1, x.2.block.id)) =
        [(.own "buddy", 1), (.shared 0, 2), (.own "slab", 4), (.own "slab", 5)] ∧
      (s.outstanding.map fun o => o.block.id) = [5, 2] ∧
      (∀ x ∈ origins, x.2 ∈ s.outstanding →
        (∃ c, (x.1, c) ∈ s.workspace.seats ∧ (c.release s.workspace.tracker x.2).1 = .ok ()) ∧
        ∀ y ∈ s.workspace.seats, y.1 ≠ x.1 → y.2.Refuses s.workspace.tracker x.2) ∧
      ∀ c ∈ s.workspace.carvers, c.strategy = .buddy → c.Refuses s.workspace.tracker twenty := by
  intro twenty requests s origins
  have hd : (opened (BumpHeap.ofPlan { base := 65537 }) none .byte).Disciplined requests := by
    decide +kernel
  obtain ⟨-, -, hkept, hgone⟩ := run_release _ none .byte requests hd
  refine ⟨by decide +kernel, by decide +kernel, fun x hx ho => ?_, fun c hc hb => ?_⟩
  · obtain ⟨⟨c, hc, hok, -⟩, hothers⟩ := hkept x hx ho
    exact ⟨⟨c, hc, hok⟩, hothers⟩
  · exact hgone twenty (by decide +kernel) c hc (.inl hb) (by decide +kernel)

end Session

end TrackedHeap
