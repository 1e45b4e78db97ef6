import TrackedHeap.Proofs.Ownership.Exact
import TrackedHeap.Proofs.Workspace.Session

/-!
# What carvers report

In every disciplined session, each carver reports as allocated what clients have of it, to the byte, and a
carver that does not grow past its capacity reports what it has left without any remainder being cut off
(`Session.run_reports`). What the heap does with the requests that reach it does not matter.

One carver that does something changes the part of its clients and nobody else's (`Carver.part_filter`,
`Carver.part_eq`), so the agreement of a single carver with its part (`Carver.Exact`) carries over to all of
them (`AllExact`), and from there to sessions, where carvers also come and go.
-/

namespace TrackedHeap

open CarveOut (grantedBytes)

/-! ## All carvers -/

namespace Carver

variable {H : Type} {t t' : Tracker H} {c c' : Carver} {out : List CarveOut}

/-- Ranges that are not in blocks of the carver do not matter. -/
theorem part_filter {p : CarveOut → Bool} (hp : ∀ o ∈ out, o.block.id ∈ c.backing → p o = true) :
    c.part (out.filter p) = c.part out := by
  rw [part, part, List.filter_filter]
  refine List.filter_congr fun o ho => ?_
  by_cases hid : o.block.id ∈ c.backing
  · simp [hid, hp o ho hid]
  · simp [hid]

/-- The carver has the part that it had before if the blocks of it are still there. -/
theorem part_eq (hturn : Tracker.Turnover t t' c.backing c'.backing)
    (hlt : ∀ o ∈ out, o.block.id < t.nextId) (hin : ∀ o ∈ c.part out, o.block.id ∈ c'.backing) :
    c'.part out = c.part out := by
  refine List.filter_congr fun o ho => decide_eq_decide.mpr ⟨fun hid => ?_, fun hid => ?_⟩
  · exact (hturn.fresh _ hid).resolve_right (Nat.not_le_of_lt (hlt o ho))
  · exact hin o (mem_part.mpr ⟨ho, hid⟩)

end Carver

/-- Every carver agrees with the ranges in its blocks. -/
def AllExact (carvers : List Carver) (out : List CarveOut) : Prop :=
  ∀ c ∈ carvers, c.Exact (c.part out)

namespace Estate

variable {H : Type} {t t' : Tracker H} {c c' : Carver} {rest : List Carver} {issued out out' : List CarveOut}
  {others : List Nat} {handle : CarveOut}

/-- One carver does something, and clients have what they had of the others. -/
theorem exact_change (hx : AllExact (c :: rest) out) (hmine : c'.Exact (c'.part out'))
    (hrest : ∀ d ∈ rest, d.part out' = d.part out) : AllExact (c' :: rest) out' := by
  refine List.forall_mem_cons.mpr ⟨hmine, fun d hd => ?_⟩
  rw [hrest d hd]
  exact hx d (List.mem_cons_of_mem _ hd)

theorem exact_release (h : Estate t (c :: rest) issued out others) (hn : t.Numbered)
    (hx : AllExact (c :: rest) out) (hi : handle ∈ issued) :
    AllExact ((c.release t handle).2.1 :: rest) (c.afterRelease (c.release t handle).1 handle out) := by
  have hknown := h.known handle hi c List.mem_cons_self
  obtain ⟨hsound, hturn⟩ := (h.sound c List.mem_cons_self).release hn hknown
  have hexact := (hx c List.mem_cons_self).release (h.sound c List.mem_cons_self) hn hknown
  have hpart := Carver.part_afterRelease c c (c.release t handle).1 handle out
  have hlt : ∀ o ∈ c.afterRelease (c.release t handle).1 handle out, o.block.id < t.nextId := fun o ho =>
    h.lt_nextId ((c.afterRelease_sublist ..).subset ho)
  refine exact_change hx ?_ fun d hd => ?_
  · rwa [Carver.part_eq hturn hlt (hpart ▸ hsound.owned.backed), hpart]
  · -- a handle that is taken back is of a block behind this carver
    rw [Carver.part_afterRelease, Carver.afterRelease]
    split
    · refine (c.judges_release t handle).returned_eq fun o ho => ?_
      exact ((List.pairwise_cons.mp h.apart).1 d hd).symm _ (Carver.mem_part.mp ho).2
    · rfl

variable [Heap H]

theorem exact_allocate (h : Estate t (c :: rest) issued out others) (hn : t.Numbered)
    (hx : AllExact (c :: rest) out) (size : Nat) :
    AllExact ((c.allocate t size).2.1 :: rest) (CarveOut.taken (c.allocate t size).1 out) := by
  have hs := h.sound c List.mem_cons_self
  obtain ⟨hsound, hturn⟩ := hs.allocate hn size
  have hexact := (hx c List.mem_cons_self).allocate hs hn size
  rcases ha : c.allocate t size with ⟨answer, c', t'⟩
  rw [ha] at hsound hturn hexact
  simp only at hsound hturn hexact ⊢
  have hpart : c'.part out = c.part out :=
    Carver.part_eq hturn (fun o ho => h.lt_nextId ho) fun o ho => hsound.owned.backed o <| by
      cases answer with
      | ok => exact List.mem_cons_of_mem _ ho
      | error => exact ho
  cases answer with
  | error e => exact exact_change hx (hpart ▸ hexact) fun _ _ => rfl
  | ok o =>
    have hmem : o.block.id ∈ c'.backing := hsound.owned.backed o List.mem_cons_self
    refine exact_change hx ?_ fun d hd => List.filter_cons_of_neg ?_
    · rw [CarveOut.taken, Carver.part, List.filter_cons_of_pos (by simpa using hmem)]
      exact (congrArg (o :: ·) hpart).symm ▸ hexact
    · rw [decide_eq_true_eq]
      intro hid
      rcases hturn.fresh _ hmem with hold | hnew
      · exact (List.pairwise_cons.mp h.apart).1 d hd _ hold hid
      · exact Nat.not_le_of_lt ((h.sound d (List.mem_cons_of_mem _ hd)).lt_nextId hn hid) hnew

theorem exact_reset (h : Estate t (c :: rest) issued out others) (hn : t.Numbered)
    (hx : AllExact (c :: rest) out) : AllExact ((c.reset t).2.1 :: rest) (c.afterReset out) := by
  have hs := h.sound c List.mem_cons_self
  obtain ⟨hsound, hturn⟩ := hs.reset hn
  have hexact := (hx c List.mem_cons_self).reset hs
  unfold Carver.afterReset
  split
  · next hpool =>
    rw [if_pos hpool] at hsound hexact
    refine exact_change hx ?_ fun _ _ => rfl
    rwa [Carver.part_eq hturn (fun o ho => h.lt_nextId ho) hsound.owned.backed]
  · next hpool =>
    rw [if_neg hpool] at hexact
    have hnone : c.part (out.filter fun o => o.block.id ∉ c.backing) = [] :=
      List.filter_eq_nil_iff.mpr fun o ho => by simpa using (List.mem_filter.mp ho).2
    refine exact_change hx ?_ fun d hd => Carver.part_filter fun o _ hid => ?_
    · have hempty : (c.reset t).2.1.part (out.filter fun o => o.block.id ∉ c.backing) = [] := by
        rw [Carver.part_eq hturn (fun o ho => h.lt_nextId (List.mem_filter.mp ho).1), hnone]
        rw [hnone]
        exact fun o ho => absurd ho List.not_mem_nil
      rwa [hempty]
    · exact decide_eq_true (((List.pairwise_cons.mp h.apart).1 d hd).symm _ hid)

omit [Heap H] in
/-- What clients have is divided among the carvers. -/
theorem parts_perm {carvers : List Carver} (hapart : carvers.Pairwise Carver.Apart)
    (hb : Backed carvers out) : out.Perm (carvers.flatMap fun c => c.part out) := by
  induction carvers generalizing out with
  | nil =>
    have hnone : out = [] := List.eq_nil_iff_forall_not_mem.mpr fun o ho => by simpa using hb o ho
    rw [hnone]
    rfl
  | cons c rest ih =>
    obtain ⟨hc, hapart⟩ := List.pairwise_cons.mp hapart
    let others := out.filter fun o => !decide (o.block.id ∈ c.backing)
    have hothers : Backed rest others := fun o ho => by
      obtain ⟨ho, hnot⟩ := List.mem_filter.mp ho
      have hid : o.block.id ∉ c.backing := by simpa using hnot
      obtain ⟨d, hd, hin⟩ := List.mem_flatMap.mp (hb o ho)
      rcases List.mem_cons.mp hd with rfl | hd
      · exact absurd hin hid
      · exact List.mem_flatMap.mpr ⟨d, hd, hin⟩
    have hparts : (rest.flatMap fun d => d.part others) = rest.flatMap fun d => d.part out :=
      List.flatMap_congr fun d hd =>
        Carver.part_filter fun o _ hid => by simpa using fun hin => hc d hd _ hin hid
    rw [List.flatMap_cons, ← hparts]
    exact (List.filter_append_perm _ out).symm.trans ((ih hapart hothers).append_left _)

/-- Carvers agree with what clients have while carvers come, go and are reset. -/
theorem exact_upkeep (issued : List CarveOut) (others : List Nat) :
    Carver.Upkeep (H := H) Carver.afterReset fun out t carvers =>
      Estate t carvers issued out others ∧ AllExact carvers out where
  perm hp h := ⟨h.1.perm hp, fun c hc => h.2 c (hp.mem_iff.mpr hc)⟩
  drop h := ⟨h.1.drop, fun c hc => h.2 c (List.mem_cons_of_mem _ hc)⟩
  built {out _ _ c _ _ _ _} hn hb h := by
    obtain ⟨hsound, hturn⟩ := Carver.sound_of_build hn hb
    refine ⟨h.1.add hn hturn hsound, List.forall_mem_cons.mpr ⟨?_, h.2⟩⟩
    rw [Carver.part_eq_nil hturn fun o ho => h.1.lt_nextId ho]
    exact Carver.exact_of_build hb
  refused hn hb h := ⟨h.1.elsewhere (Carver.turnover_build_error hn hb) (by simp), h.2⟩
  reset hn h := ⟨(h.1.reset hn).1, h.1.exact_reset hn h.2⟩

end Estate

/-! ## Sessions -/

namespace Session

variable {H : Type} {s : Session H} {request : Request} {requests : List Request}

/-- Every carver agrees with what clients have of it. -/
def Exact (s : Session H) : Prop :=
  AllExact s.workspace.carvers s.outstanding

/-- Ranges in no block of a carver are nobody's part. -/
theorem exact_backed {w : Workspace H} {out : List CarveOut} (hx : AllExact w.carvers out) :
    AllExact w.carvers (out.filter fun o => o.block.id ∈ w.backing) := fun c hc => by
  have hpart : c.part (out.filter fun o => o.block.id ∈ w.backing) = c.part out :=
    Carver.part_filter fun o _ hid => decide_eq_true (List.mem_flatMap.mpr ⟨c, hc, hid⟩)
  rw [hpart]
  exact hx c hc

/-- One carver does something that it and the others agree with. -/
theorem exact_onCarver {w : Workspace H} {issued out out' : List CarveOut} {α : Type}
    (h : w.Accounted issued out) (hd : w.Distinct) (hx : AllExact w.carvers out) {label : String}
    (reply : α → Reply) {act : Carver → Tracker H → Outcome α (Carver × Tracker H)}
    (hnone : w.carver? label = none → out' = out)
    (hact : ∀ c rest, w.carver? label = some c → Estate w.tracker (c :: rest) issued out w.pooled →
      AllExact (c :: rest) out → AllExact ((act c w.tracker).2.1 :: rest) out') :
    AllExact (w.onCarver label reply act).2.carvers out' := by
  rcases hd.onCarver_cases label reply act with ⟨hl, hsame⟩ | ⟨c, rest, hl, hp, -, hp'⟩
  · rwa [hsame, hnone hl]
  · intro d hd
    refine hact c rest hl (h.estate.perm hp) (fun e he => hx e (hp.mem_iff.mpr he)) d ?_
    exact hp'.mem_iff.mp hd

variable [Heap H]

theorem Exact.perform (hx : s.Exact) (h : s.InOrder) (ha : s.Allows request) : (s.perform request).Exact := by
  have hn := h.numbered
  have hd := h.distinct
  have he := h.accounted.estate
  have hup := Estate.exact_upkeep (H := H) s.issued s.workspace.pooled
  have hsame := s.workspace.concerns_or_same request
  have hcarvers (hsame : (s.workspace.perform request).2.holdings = s.workspace.holdings ∧
      (s.workspace.perform request).2.registry = s.workspace.registry) :
      (s.workspace.perform request).2.carvers = s.workspace.carvers := by
    rw [Workspace.carvers, hsame.1, hsame.2]
    rfl
  show AllExact (s.workspace.perform request).2.carvers (outstandingAfter s.workspace
    (s.workspace.perform request).2 (s.workspace.perform request).1 s.outstanding request)
  cases request
  case build label strategy total alignment =>
    exact exact_backed (hup.build hn hd ⟨he, hx⟩ label strategy total alignment).2
  case get label name strategy total alignment =>
    exact exact_backed (hup.get hn hd ⟨he, hx⟩ label name strategy total alignment).2
  case letGo label => exact exact_backed (hup.letGo hd ⟨he, hx⟩ label).2
  case remove name label => exact exact_backed (hup.remove hd ⟨he, hx⟩ name label).2
  case shutdown => exact exact_backed (hup.shutdown hn hd ⟨he, hx⟩).2
  case carverStats label => exact exact_onCarver h.accounted hd hx _ (fun _ => rfl) fun _ _ _ _ hx => hx
  case carve label size =>
    refine exact_onCarver h.accounted hd hx _ (fun hnone => ?_) fun c rest hl hestate hx => ?_
    · rw [outstandingAfter, granted_carve_of_none hnone]
      rfl
    · rw [outstandingAfter, granted_carve hl]
      exact hestate.exact_allocate hn hx size
  case giveBack label handle =>
    refine exact_onCarver h.accounted hd hx _ (fun hnone => ?_) fun c rest hl hestate hx => ?_
    · simp only [outstandingAfter, hnone]
    · rw [outstandingAfter_giveBack hl]
      exact hestate.exact_release hn hx (ha.2 _ (List.mem_singleton_self _))
  case reset label =>
    refine exact_onCarver h.accounted hd hx _ (fun hnone => ?_) fun c rest hl hestate hx => ?_
    · exact outstandingAfter_reset_of_none hnone _ _
    · rw [outstandingAfter_reset hl _ (hestate.sound c List.mem_cons_self).reset_ok]
      exact hestate.exact_reset hn hx
  all_goals
    rw [hcarvers (hsame.resolve_left id)]
    exact hx

theorem Exact.run (hx : s.Exact) (h : s.InOrder) (hd : s.Disciplined requests) : (s.run requests).Exact := by
  induction requests generalizing s with
  | nil => exact hx
  | cons request requests ih => exact ih (hx.perform h hd.1) (h.perform hd.1) hd.2

/-- A disciplined run of a new session is in order, and every carver agrees with what clients have of it. -/
theorem exact_of_disciplined {heap : H} {budget : Option Nat} {alignment : Alignment}
    (hd : (opened heap budget alignment).Disciplined requests) :
    ((opened heap budget alignment).run requests).InOrder ∧
      ((opened heap budget alignment).run requests).Exact :=
  have hopened := InOrder.opened heap budget alignment
  ⟨hopened.run hd, Exact.run (fun _ hc => absurd hc List.not_mem_nil) hopened hd⟩

/-- In every disciplined run, what clients have is divided among the carvers, and each carver reports exactly
its part of it. -/
theorem run_reports (heap : H) (budget : Option Nat) (alignment : Alignment) (requests : List Request)
    (hd : (opened heap budget alignment).Disciplined requests) :
    let s := (opened heap budget alignment).run requests
    s.outstanding.Perm (s.workspace.carvers.flatMap fun c => c.part s.outstanding) ∧
      ∀ c ∈ s.workspace.carvers, c.Reports (c.part s.outstanding) := by
  intro s
  obtain ⟨h, hx⟩ : s.InOrder ∧ s.Exact := exact_of_disciplined hd
  refine ⟨Estate.parts_perm h.accounted.estate.apart h.accounted.backed, fun c hc => ?_⟩
  exact (hx c hc).reports (h.accounted.estate.sound c hc)

/-- A ring that is full although its range was given back, and an object pool with a block that waits. -/
theorem run_reports_mixed :
    let object : CarveOut := .whole (.place 4 65745 12 12 .byte 0)
    let turn : CarveOut := .whole (.place 2 65681 32 32 .byte 0)
    let requests : List Request :=
      [.build "buddy" .buddy 100 .word, .build "slab" .slab 256 .byte, .build "ring" .ringBuffer 32 .byte,
        .build "objects" .objectPool 100 .byte, .carve "buddy" 20, .carve "slab" 16, .carve "ring" 32,
        .carve "objects" 12, .carve "objects" 30, .giveBack "objects" object, .giveBack "ring" turn,
        .giveBack "buddy" turn]
    let s := (opened (BumpHeap.ofPlan { base := 65537 }) none .byte).run requests
    (s.workspace.carvers.map fun c => (c.stats.total, c.stats.allocated, c.stats.free)) =
        [(128, 32, 96), (32, 32, 0), (100, 30, 70), (256, 16, 240)] ∧
      s.outstanding.Perm (s.workspace.carvers.flatMap fun c => c.part s.outstanding) ∧
      ∀ c ∈ s.workspace.carvers, c.Reports (c.part s.outstanding) := by
  intro object turn requests s
  have hd : (opened (BumpHeap.ofPlan { base := 65537 }) none .byte).Disciplined requests := by
    decide +kernel
  exact ⟨by decide +kernel, run_reports _ none .byte requests hd⟩

end Session

end TrackedHeap
