import Mathlib.Data.List.Induction
import TrackedHeap.Heap.Bump
import TrackedHeap.Proofs.ObjectPool.Run
import TrackedHeap.Proofs.Tracker.Stale

/-!
# Who has a block of an object pool

A block of an object pool waits in the pool or is with a client. A handle that comes back is looked at only in
the queue of the size that it claims, and that size is compared with another field of the same handle. So the
pool knows who has which block exactly as long as every handle that it takes back claims the size of the block:
then no block waits twice, a block that is handed out twice was taken back in between, and a request for a size
gets a block of that size (`ObjectPool.run_lends`), whatever else handles say and whatever happens to the blocks
meanwhile.
-/

namespace TrackedHeap.ObjectPool

variable {H : Type}

/-! ## What waits -/

/-- The size of the range is that of its block, if that is live. -/
def Matches (t : Tracker H) (c : CarveOut) : Prop :=
  ∀ b ∈ t.blocks, b.id = c.block.id → b.requestedSize = c.requestedSize

/-- The ranges that wait are of blocks that differ, each of the size of its block. -/
structure Settled (s : ObjectPool × Tracker H) : Prop where
  assigned : s.2.Assigned
  issued : ∀ id ∈ s.1.waiting, id < s.2.nextId
  distinct : s.1.waiting.Nodup
  sized : ∀ c ∈ s.1.queued, Matches s.2 c

/-- The id was given out, and its block does not wait. -/
structure Lent (s : ObjectPool × Tracker H) (id : Nat) : Prop where
  issued : id < s.2.nextId
  absent : id ∉ s.1.waiting

/-- The block of a range that waited once waits no longer when the range is gone. -/
theorem not_mem_waiting_erase {p p' : ObjectPool} (hd : p.waiting.Nodup) {c : CarveOut}
    (hc : c ∈ p.queued) (hq : p'.queued = p.queued.erase c) : c.block.id ∉ p'.waiting := by
  have hperm : p.waiting.Perm (c.block.id :: p'.waiting) := by
    unfold waiting
    rw [hq]
    exact (List.perm_cons_erase hc).map _
  exact (List.nodup_cons.mp (hperm.nodup_iff.mp hd)).1

/-- Fewer ranges wait, and blocks are as before or under ids given out since. -/
theorem Settled.mono {s s' : ObjectPool × Tracker H} (hs : Settled s)
    (hq : s'.1.queued.Sublist s.1.queued) (ha : s'.2.Assigned) (hn : s.2.nextId ≤ s'.2.nextId)
    (ho : ∀ b ∈ s'.2.blocks, b ∈ s.2.blocks ∨ s.2.nextId ≤ b.id) : Settled s' where
  assigned := ha
  issued id hid := Nat.lt_of_lt_of_le (hs.issued id ((sublist_waiting hq).subset hid)) hn
  distinct := hs.distinct.sublist (sublist_waiting hq)
  sized c hc b hb hid := by
    have hold := hq.subset hc
    have hlt : c.block.id < s.2.nextId := hs.issued _ (List.mem_map_of_mem hold)
    rcases ho b hb with hb | hle
    · exact hs.sized c hold b hb hid
    · omega

/-- One more range waits. -/
theorem Settled.concat {s : ObjectPool × Tracker H} (hs : Settled s) {handle : CarveOut}
    (hlt : handle.block.id < s.2.nextId) (hnew : handle.block.id ∉ s.1.waiting)
    (hm : Matches s.2 handle) {p' : ObjectPool} (hq : p'.queued = s.1.queued ++ [handle]) :
    Settled (p', s.2) where
  assigned := hs.assigned
  issued id hid := by
    rw [waiting_concat hq, List.mem_append, List.mem_singleton] at hid
    rcases hid with hid | rfl
    · exact hs.issued id hid
    · exact hlt
  distinct := by
    rw [waiting_concat hq, ← List.concat_eq_append]
    exact hs.distinct.concat hnew
  sized c hc := by
    rw [show p'.queued = _ from hq, List.mem_append, List.mem_singleton] at hc
    rcases hc with hc | rfl
    · exact hs.sized c hc
    · exact hm

/-- The block of a range that is taken back does not wait, if the range has the size of its block. -/
theorem Settled.not_mem_waiting {s : ObjectPool × Tracker H} (hs : Settled s) {handle : CarveOut}
    (hlive : s.2.isLive handle.block = true) (habsent : ¬ s.1.holds handle = true)
    (hm : Matches s.2 handle) : handle.block.id ∉ s.1.waiting := by
  intro hid
  obtain ⟨c, hc, hcid⟩ := List.mem_map.mp hid
  obtain ⟨b, hb⟩ := Option.isSome_iff_exists.mp hlive
  obtain ⟨hb, hbid⟩ := Tracker.mem_of_lookup hb
  have hsize : c.requestedSize = handle.requestedSize :=
    (hs.sized c hc b hb (hbid.trans hcid.symm)).symm.trans (hm b hb hbid)
  exact habsent (List.any_eq_true.mpr ⟨c, List.mem_filter.mpr ⟨hc, by simpa using hsize⟩,
    by simpa using hcid⟩)

variable [Heap H]

/-! ## One operation -/

/-- A range that is taken back has the size of its block. -/
def Candid (s : ObjectPool × Tracker H) : Act → Prop
  | .release handle => (act s (.release handle)).1 = .ok .done → Matches s.2 handle
  | _ => True

theorem Settled.act {s : ObjectPool × Tracker H} (hs : Settled s) {a : Act} (hm : Candid s a) :
    Settled (act s a).2 := by
  have hchange := change_act s a
  generalize hact : ObjectPool.act s a = o at hchange ⊢
  cases hchange with
  | beside a answer t' steps =>
    exact hs.mono (.refl _) (steps.assigned hs.assigned) steps.nextId_le fun b hb => steps.origin hb
  | refused e p' t' hq ho hblocks hnext =>
    refine hs.mono (hq ▸ .refl _) (fun b hb => ?_) (Nat.le_of_eq hnext.symm) fun b hb => ?_
    · exact hnext ▸ hs.assigned b (hblocks ▸ hb)
    · exact .inl (hblocks ▸ hb)
  | reused size c p' hfirst hq ho =>
    exact hs.mono (hq ▸ List.erase_sublist) hs.assigned (Nat.le_refl _) fun b hb => .inl hb
  | adopted size block p' t' hnone hq ho hid hreq hblocks hnext =>
    have horigin (b : Block) (hb : b ∈ t'.blocks) : b ∈ s.2.blocks ∨ b = block := by
      rwa [hblocks, List.mem_append, List.mem_singleton] at hb
    refine hs.mono (hq ▸ .refl _) (fun b hb => ?_) (by simp [hnext]) fun b hb => ?_
    · rcases horigin b hb with hb | rfl
      · exact hnext ▸ Nat.lt_succ_of_lt (hs.assigned b hb)
      · simp [hnext, hid]
    · rcases horigin b hb with hb | rfl
      · exact .inl hb
      · exact .inr (Nat.le_of_eq hid.symm)
  | kept handle p' hoffset hmine hsize hlive habsent hq ho =>
    have hmatch : Matches s.2 handle := hm (congrArg Prod.fst hact)
    obtain ⟨b, hb⟩ := Option.isSome_iff_exists.mp hlive
    obtain ⟨hb, hbid⟩ := Tracker.mem_of_lookup hb
    exact hs.concat (hbid ▸ hs.assigned b hb) (hs.not_mem_waiting hlive habsent hmatch) hmatch hq
  | emptied answer p' hq ho =>
    refine hs.mono (hq ▸ List.nil_sublist _) (fun b hb => ?_) ?_ fun b hb => ?_
    · rw [Tracker.nextId_returnAll]
      exact hs.assigned b (Tracker.mem_returnAll.mp hb).1
    · exact Nat.le_of_eq (Tracker.nextId_returnAll _ _).symm
    · exact .inl (Tracker.mem_returnAll.mp hb).1

/-- A block that a client gets waited, or is new. -/
theorem not_lent_of_grant {s : ObjectPool × Tracker H} {size : Nat} {c : CarveOut}
    (h : (act s (.allocate size)).1 = .ok (.range c)) : ¬ Lent s c.block.id := by
  have hchange := change_act s (.allocate size)
  generalize ObjectPool.act s (.allocate size) = o at hchange h
  cases hchange with
  | refused => cases h
  | reused size c p' hfirst hq ho =>
    cases h
    exact fun hl => hl.absent (List.mem_map_of_mem (List.mem_of_find?_eq_some hfirst))
  | adopted size block p' t' hnone hq ho hid hreq hblocks hnext =>
    cases h
    exact fun hl => Nat.ne_of_lt hl.issued hid

/-- The range that a client gets has the size that was asked for, and so has its block. -/
theorem Settled.grant {s : ObjectPool × Tracker H} (hs : Settled s) {size : Nat} {c : CarveOut}
    (h : (ObjectPool.act s (.allocate size)).1 = .ok (.range c)) :
    c.requestedSize = size ∧ Lent (ObjectPool.act s (.allocate size)).2 c.block.id ∧
      Matches (ObjectPool.act s (.allocate size)).2.2 c := by
  have hchange := change_act s (.allocate size)
  generalize ObjectPool.act s (.allocate size) = o at hchange h ⊢
  cases hchange with
  | refused => cases h
  | reused size c p' hfirst hq ho =>
    cases h
    have hc := List.mem_of_find?_eq_some hfirst
    have hsize : c.requestedSize = size := by simpa using List.find?_some hfirst
    refine ⟨hsize, ⟨hs.issued _ (List.mem_map_of_mem hc), ?_⟩, hs.sized c hc⟩
    exact not_mem_waiting_erase hs.distinct hc hq
  | adopted size block p' t' hnone hq ho hid hreq hblocks hnext =>
    cases h
    have hwaiting : p'.waiting = s.1.waiting := congrArg (List.map _) hq
    refine ⟨rfl, ⟨by simp [hnext, hid], fun hw => ?_⟩, fun b hb hbid => ?_⟩
    · have hlt := hs.issued _ (hwaiting ▸ hw)
      exact Nat.ne_of_lt hlt hid
    · rw [show _ = _ from hblocks, List.mem_append, List.mem_singleton] at hb
      rcases hb with hb | rfl
      · have hlt := hs.assigned b hb
        rw [hbid, hid] at hlt
        exact absurd hlt (Nat.lt_irrefl _)
      · exact hreq

/-- What a client has stays with it until it is taken back. -/
theorem Lent.act {s : ObjectPool × Tracker H} {id : Nat} (hl : Lent s id) (a : Act) :
    Lent (act s a).2 id ∨
      ∃ handle, a = .release handle ∧ handle.block.id = id ∧ (ObjectPool.act s a).1 = .ok .done := by
  have hchange := change_act s a
  generalize ObjectPool.act s a = o at hchange ⊢
  have hsame {p' : ObjectPool} {t' : Tracker H} (hq : p'.queued.Sublist s.1.queued)
      (hn : s.2.nextId ≤ t'.nextId) : Lent (p', t') id :=
    ⟨Nat.lt_of_lt_of_le hl.issued hn, fun hid => hl.absent ((sublist_waiting hq).subset hid)⟩
  cases hchange with
  | beside a answer t' steps => exact .inl (hsame (.refl _) steps.nextId_le)
  | refused e p' t' hq ho hblocks hnext =>
    exact .inl (hsame (hq ▸ .refl _) (Nat.le_of_eq hnext.symm))
  | reused size c p' hfirst hq ho => exact .inl (hsame (hq ▸ List.erase_sublist) (Nat.le_refl _))
  | adopted size block p' t' hnone hq ho hid hreq hblocks hnext =>
    exact .inl (hsame (hq ▸ .refl _) (by simp [hnext]))
  | kept handle p' hoffset hmine hsize hlive habsent hq ho =>
    by_cases heq : handle.block.id = id
    · exact .inr ⟨handle, rfl, heq, rfl⟩
    · refine .inl ⟨hl.issued, ?_⟩
      show id ∉ p'.waiting
      rw [waiting_concat hq, List.mem_append, List.mem_singleton]
      exact not_or.mpr ⟨hl.absent, Ne.symm heq⟩
  | emptied answer p' hq ho =>
    have hnext := Tracker.nextId_returnAll s.2 (s.1.queued.map CarveOut.block)
    exact .inl (hsame (hq ▸ List.nil_sublist _) (Nat.le_of_eq hnext.symm))

/-- All that waits is live. -/
def Alive (s : ObjectPool × Tracker H) : Prop :=
  ∀ id ∈ s.1.waiting, id ∈ s.2.blocks.map Block.id

/-- What waits stays live as long as nobody else uses the tracker, so a client gets a live block. -/
theorem Alive.act {s : ObjectPool × Tracker H} (hs : Alive s) {a : Act} (ha : ∀ b, a ≠ .tracker b) :
    Alive (act s a).2 ∧ ∀ c, (ObjectPool.act s a).1 = .ok (.range c) →
      (ObjectPool.act s a).2.2.isLive c.block = true := by
  simp only [Tracker.isLive, Tracker.isSome_lookup_iff]
  have hchange := change_act s a
  generalize ObjectPool.act s a = o at hchange ⊢
  cases hchange with
  | beside b => exact absurd rfl (ha b)
  | refused e p' t' hq ho hblocks hnext =>
    refine ⟨fun id hid => ?_, fun c h => by cases h⟩
    exact hblocks ▸ hs id ((sublist_waiting (hq ▸ .refl _)).subset hid)
  | reused size c p' hfirst hq ho =>
    refine ⟨fun id hid => hs id ((sublist_waiting (hq ▸ List.erase_sublist)).subset hid), fun d h => ?_⟩
    cases h
    exact hs _ (List.mem_map_of_mem (List.mem_of_find?_eq_some hfirst))
  | adopted size block p' t' hnone hq ho hid hreq hblocks hnext =>
    have hmap : t'.blocks.map Block.id = s.2.blocks.map Block.id ++ [block.id] := by
      rw [hblocks, List.map_append, List.map_singleton]
    refine ⟨fun id hid => ?_, fun d h => ?_⟩
    · show id ∈ t'.blocks.map Block.id
      rw [hmap]
      exact List.mem_append_left _ (hs id ((sublist_waiting (hq ▸ .refl _)).subset hid))
    · cases h
      exact Tracker.isSome_lookup_iff.mp (Tracker.isLive_of_concat hblocks)
  | kept handle p' hoffset hmine hsize hlive habsent hq ho =>
    refine ⟨fun id hid => ?_, fun d h => by cases h⟩
    rw [show _ = _ from waiting_concat hq, List.mem_append, List.mem_singleton] at hid
    rcases hid with hid | rfl
    · exact hs id hid
    · exact Tracker.isSome_lookup_iff.mp hlive
  | emptied answer p' hq ho =>
    refine ⟨fun id hid => ?_, fun d h => ?_⟩
    · rw [waiting, show _ = _ from hq] at hid
      exact absurd hid List.not_mem_nil
    · cases answer <;> cases h

/-! ## Runs -/

/-- Every range that is taken back in a run has the size of its block. -/
def Faithful (s : ObjectPool × Tracker H) : List Act → Prop
  | [] => True
  | a :: acts => Candid s a ∧ Faithful (act s a).2 acts

instance (t : Tracker H) (c : CarveOut) : Decidable (Matches t c) :=
  inferInstanceAs (Decidable (∀ b ∈ t.blocks, _))

instance (s : ObjectPool × Tracker H) : DecidablePred (Candid s)
  | .release handle =>
    inferInstanceAs (Decidable ((act s (.release handle)).1 = .ok .done → Matches s.2 handle))
  | .tracker _ => .isTrue trivial
  | .allocate _ => .isTrue trivial
  | .reset => .isTrue trivial

instance decidableFaithful (s : ObjectPool × Tracker H) : DecidablePred (Faithful s)
  | [] => .isTrue trivial
  | a :: acts =>
    have := decidableFaithful (act s a).2 acts
    inferInstanceAs (Decidable (Candid s a ∧ Faithful (act s a).2 acts))

theorem Faithful.of_append {s : ObjectPool × Tracker H} {acts later : List Act}
    (hf : Faithful s (acts ++ later)) : Faithful s acts := by
  induction acts generalizing s with
  | nil => trivial
  | cons a acts ih => exact ⟨hf.1, ih hf.2⟩

theorem Settled.run {s : ObjectPool × Tracker H} (hs : Settled s) {acts : List Act}
    (hf : Faithful s acts) : Settled (run s acts) := by
  induction acts generalizing s with
  | nil => exact hs
  | cons a acts ih => exact ih (hs.act hf.1) hf.2

/-- What a client has stays with it for a whole run, or was taken back in it. -/
theorem Lent.run {s : ObjectPool × Tracker H} {id : Nat} (hl : Lent s id) (acts : List Act) :
    Lent (run s acts) id ∨ ∃ past handle, past ++ [.release handle] <+: acts ∧ handle.block.id = id ∧
      (ObjectPool.act (ObjectPool.run s past) (.release handle)).1 = .ok .done := by
  induction acts generalizing s with
  | nil => exact .inl hl
  | cons a acts ih =>
    rcases hl.act a with hl | ⟨handle, rfl, hid, hok⟩
    · refine (ih hl).imp_right fun ⟨past, handle, hpast, hrest⟩ => ⟨a :: past, handle, ?_, hrest⟩
      exact List.cons_prefix_cons.mpr ⟨rfl, hpast⟩
    · exact .inr ⟨[], handle, List.prefix_append [_] acts, hid, hok⟩

theorem Alive.run {s : ObjectPool × Tracker H} (hs : Alive s) {acts : List Act}
    (ha : ∀ b, .tracker b ∉ acts) : Alive (run s acts) := by
  induction acts generalizing s with
  | nil => exact hs
  | cons a acts ih =>
    refine ih (hs.act fun b heq => ha b (heq ▸ List.mem_cons_self)).1 fun b hb => ?_
    exact ha b (List.mem_cons_of_mem _ hb)

/-- Who has the blocks of an object pool in a run. -/
structure Lends (s : ObjectPool × Tracker H) (acts : List Act) : Prop where
  /-- No block waits twice, whatever the sizes. -/
  distinct : ∀ past, past <+: acts → (run s past).1.waiting.Nodup
  /-- A block that clients get twice was taken back in between. -/
  returned : ∀ past size between size' c c',
    past ++ .allocate size :: (between ++ [.allocate size']) <+: acts →
    (act (run s past) (.allocate size)).1 = .ok (.range c) →
    (act (run s (past ++ .allocate size :: between)) (.allocate size')).1 = .ok (.range c') →
    c.block.id = c'.block.id →
      ∃ before handle, before ++ [.release handle] <+: between ∧ handle.block.id = c.block.id ∧
        (act (run s (past ++ .allocate size :: before)) (.release handle)).1 = .ok .done
  /-- The block that a client gets is registered with the size that was asked for. -/
  sized : ∀ past size c, past ++ [.allocate size] <+: acts →
    (act (run s past) (.allocate size)).1 = .ok (.range c) →
      c.requestedSize = size ∧ Matches (run s (past ++ [.allocate size])).2 c
  /-- It is live, unless somebody else used the tracker. -/
  live : ∀ past size c, past ++ [.allocate size] <+: acts →
    (act (run s past) (.allocate size)).1 = .ok (.range c) → (∀ b, .tracker b ∉ past) →
      (run s (past ++ [.allocate size])).2.isLive c.block = true

omit [Heap H] in
/-- Nothing waits before the first operation. -/
theorem settled_of_make {total : Nat} {alignment : Alignment} {p : ObjectPool}
    (hm : make total alignment = .ok p) (heap : H) (budget : Option Nat) :
    Settled (p, .ofHeap heap budget) ∧ Alive (p, .ofHeap heap budget) := by
  have hempty : p.queued = [] := queued_of_make hm
  have hwaiting : p.waiting = [] := congrArg (List.map _) hempty
  refine ⟨⟨Tracker.assigned_ofHeap heap budget, ?_, hwaiting ▸ List.nodup_nil, ?_⟩, ?_⟩
  · exact fun id hid => absurd (hwaiting ▸ hid) List.not_mem_nil
  · exact fun c hc => absurd (hempty ▸ hc) List.not_mem_nil
  · exact fun id hid => absurd (hwaiting ▸ hid) List.not_mem_nil

/-- As long as handles that are taken back have the sizes of their blocks, every block is with one client or
waits, whatever else handles say and whatever becomes of the blocks meanwhile. -/
theorem run_lends {total : Nat} {alignment : Alignment} {p : ObjectPool}
    (hm : make total alignment = .ok p) (heap : H) (budget : Option Nat) {acts : List Act}
    (hf : Faithful (p, .ofHeap heap budget) acts) : Lends (p, .ofHeap heap budget) acts := by
  obtain ⟨hstart, halive⟩ := settled_of_make hm heap budget
  generalize (p, Tracker.ofHeap heap budget) = s at hf hstart halive
  have hsettled {past : List Act} (hp : past <+: acts) : Settled (run s past) := by
    obtain ⟨later, rfl⟩ := hp
    exact hstart.run hf.of_append
  refine ⟨fun past hp => (hsettled hp).distinct, ?_, fun past size c hp h => ?_,
    fun past size c hp h hown => ?_⟩
  · intro past size between size' c c' hp h h' hid
    have hrun (acts : List Act) :
        run s (past ++ .allocate size :: acts) = run (act (run s past) (.allocate size)).2 acts :=
      run_append s past (.allocate size :: acts)
    simp only [hrun] at h' ⊢
    have hpast := (List.prefix_append _ _).trans hp
    rcases ((hsettled hpast).grant h).2.1.run between with hlent | hback
    · exact absurd (hid ▸ hlent) (not_lent_of_grant h')
    · exact hback
  · rw [run_concat]
    obtain ⟨hsize, -, hmatch⟩ := (hsettled ((List.prefix_append _ _).trans hp)).grant h
    exact ⟨hsize, hmatch⟩
  · rw [run_concat]
    exact ((halive.run hown).act fun b => by simp).2 c h

/-- A handle with another size than its block's is refused where it says so itself, a block is freed for its
size and reused, one is reset and one is taken from the tracker. -/
theorem run_lends_mixed :
    let p : ObjectPool := { alignment := .byte, total := 200 }
    let t : Tracker BumpHeap := .ofHeap (.ofPlan {}) none
    let block : Block := .place 1 65536 64 64 .byte 0
    let acts : List Act :=
      [.allocate 64, .release { CarveOut.whole block with requestedSize := 32 },
        .release (.whole block), .release (.whole block), .allocate 32, .allocate 64,
        .release (.whole block), .reset, .allocate 64, .tracker .freeAll, .allocate 32]
    Faithful (p, t) acts ∧ Lends (p, t) acts := by
  refine ⟨?_, run_lends (show make 200 .byte = .ok _ from rfl) _ none ?_⟩ <;> decide +kernel

/-- A block of 64 bytes is given back twice, the second time by a handle whose two sizes both say 32. It waits
under both sizes then, and the next two requests hand it to two clients, the second one for 32 bytes. -/
theorem run_lends_twice :
    let p : ObjectPool := { alignment := .byte, total := 1000 }
    let t : Tracker BumpHeap := .ofHeap (.ofPlan {}) none
    let c : CarveOut := .whole (.place 1 65536 64 64 .byte 0)
    let forged : CarveOut := { c with block := { c.block with requestedSize := 32 }, requestedSize := 32 }
    let s := run (p, t) [.allocate 64, .release c, .release forged]
    let s' := (act s (.allocate 64)).2
    make 1000 .byte = .ok p ∧ (act (p, t) (.allocate 64)).1 = .ok (.range c) ∧ ¬ s.1.waiting.Nodup ∧
      (act s (.allocate 64)).1 = .ok (.range c) ∧ (act s' (.allocate 32)).1 = .ok (.range forged) ∧
      forged.block.id = c.block.id ∧ ¬ Matches (act s' (.allocate 32)).2.2 forged := by
  refine ⟨rfl, ?_⟩
  decide +kernel

end TrackedHeap.ObjectPool
