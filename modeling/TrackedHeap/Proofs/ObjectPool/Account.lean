import Mathlib.Algebra.GroupWithZero.Nat
import TrackedHeap.Proofs.ObjectPool.Run
import TrackedHeap.Proofs.Tracker.Stale
import TrackedHeap.Proofs.Workspace.Steps

/-!
# What an object pool has given out

Which ranges clients got of an object pool, and which of these they have, follows from what was answered
(`ObjectPool.Account`). As long as every handle that comes back is one that was given out (`ObjectPool.Genuine`),
the books of the pool agree with that account (`ObjectPool.Traced`): what it owns are the blocks of the ranges that
wait and of those that clients have, each once, and it has used as many bytes as these are long. Others may return
or resize any of the blocks meanwhile.
-/

namespace TrackedHeap.ObjectPool

variable {H : Type}

/-- What clients got, as the answers tell. -/
structure Account where
  /-- Every range that a client ever got. -/
  issued : List CarveOut := []
  /-- The ranges that clients have. -/
  out : List CarveOut := []

/-- The account after a request was answered. -/
def Account.taken (n : Account) (answer : Except MemoryError CarveOut) : Account :=
  ⟨CarveOut.taken answer n.issued, CarveOut.taken answer n.out⟩

/-- The account after a range came back, or was refused. -/
def Account.returned {α : Type} (n : Account) (answer : Except MemoryError α) (handle : CarveOut) : Account :=
  { n with out := CarveOut.returned answer handle n.out }

/-- The books of the pool agree with the account. -/
structure Traced (p : ObjectPool) (t : Tracker H) (n : Account) : Prop where
  numbered : t.Numbered
  whole : ∀ c ∈ n.issued, c = .whole c.block
  size_pos : ∀ c ∈ n.issued, 0 < c.requestedSize
  assigned : ∀ c ∈ n.issued, c.block.id < t.nextId
  unique : ∀ c ∈ n.issued, ∀ d ∈ n.issued, c.block.id = d.block.id → c = d
  live_eq : ∀ c ∈ n.issued, ∀ b ∈ t.blocks, b.id = c.block.id → b = c.block
  given : ∀ c ∈ p.queued ++ n.out, c ∈ n.issued
  distinct : ((p.queued ++ n.out).map fun c => c.block.id).Nodup
  owned : ∀ id, id ∈ p.owned ↔ id ∈ (p.queued ++ n.out).map fun c => c.block.id
  used : p.used = ((p.queued ++ n.out).map CarveOut.requestedSize).sum
  /-- A block of the pool that is live waits or is with a client. -/
  placed : ∀ c ∈ n.issued, c.block ∈ t.blocks → c ∈ p.queued ++ n.out

theorem perm_reuse {p : ObjectPool} {c : CarveOut} (out : List CarveOut) (hc : c ∈ p.queued) :
    ((p.reuse c).queued ++ c :: out).Perm (p.queued ++ out) :=
  List.perm_middle.trans ((List.perm_cons_erase hc).append_right out).symm

theorem traced_of_make {p : ObjectPool} {total : Nat} {alignment : Alignment} (hm : make total alignment = .ok p)
    {t : Tracker H} (hn : t.Numbered) : Traced p t {} := by
  rw [make_ok hm]
  exact ⟨hn, by simp, by simp, by simp, by simp, by simp, by simp, by simp, by simp, rfl, by simp⟩

namespace Traced

variable {p p' : ObjectPool} {t t' : Tracker H} {n n' : Account} {c handle : CarveOut}

/-- Ranges change hands. -/
theorem exchange (h : Traced p t n) (hp : (p'.queued ++ n'.out).Perm (p.queued ++ n.out))
    (hi : ∀ c, c ∈ n'.issued ↔ c ∈ n.issued) (ho : p'.owned = p.owned) (hu : p'.used = p.used) : Traced p' t n' where
  numbered := h.numbered
  whole c hc := h.whole c ((hi c).mp hc)
  size_pos c hc := h.size_pos c ((hi c).mp hc)
  assigned c hc := h.assigned c ((hi c).mp hc)
  unique c hc d hd := h.unique c ((hi c).mp hc) d ((hi d).mp hd)
  live_eq c hc := h.live_eq c ((hi c).mp hc)
  given c hc := (hi c).mpr (h.given c (hp.mem_iff.mp hc))
  distinct := (hp.map _).nodup_iff.mpr h.distinct
  owned id := by rw [ho, h.owned, (hp.map _).mem_iff]
  used := by rw [hu, h.used, (hp.map _).sum_nat]
  placed c hc hb := hp.mem_iff.mpr (h.placed c ((hi c).mp hc) hb)

theorem with_tally (h : Traced p t n) (tally : Tally) : Traced { p with tally } t n :=
  h.exchange (.refl _) (fun _ => Iff.rfl) rfl rfl

/-- The tracker may do anything. -/
theorem mono (h : Traced p t n) (hn : t'.Numbered) (hle : t.nextId ≤ t'.nextId)
    (ho : ∀ b ∈ t'.blocks, b ∈ t.blocks ∨ t.nextId ≤ b.id) : Traced p t' n where
  numbered := hn
  whole := h.whole
  size_pos := h.size_pos
  assigned c hc := Nat.lt_of_lt_of_le (h.assigned c hc) hle
  unique := h.unique
  live_eq c hc b hb hid := by
    have hlt := h.assigned c hc
    exact h.live_eq c hc b ((ho b hb).resolve_right (by omega)) hid
  given := h.given
  distinct := h.distinct
  owned := h.owned
  used := h.used
  placed c hc hb := by
    have hlt := h.assigned c hc
    exact h.placed c hc ((ho _ hb).resolve_right (by omega))

/-- A range that waited goes to a client. -/
theorem reuse (h : Traced p t n) (hc : c ∈ p.queued) :
    Traced (p.reuse c) t (n.taken (.ok c)) := by
  have hissued : c ∈ n.issued := h.given c (List.mem_append_left _ hc)
  refine h.exchange (perm_reuse n.out hc) (fun d => ?_) rfl rfl
  exact List.mem_cons.trans (or_iff_right_of_imp fun he => he ▸ hissued)

/-- A new block goes to a client. -/
theorem adopt [Heap H] (h : Traced p t n) {size : Nat} {alignment : Alignment} {block : Block} (hsize : size ≠ 0)
    (ha : t.allocate size alignment = (.ok block, t')) :
    Traced (p.adopt block size) t' (n.taken (.ok ⟨block, 0, size, size⟩)) := by
  obtain ⟨hblocks, hnext, hid, hreq⟩ := Tracker.allocate_ok ha
  have hold : Traced p t' n := by
    refine h.mono (h.numbered.allocate ha) (by omega) fun b hb => ?_
    rw [hblocks, List.mem_append, List.mem_singleton] at hb
    exact hb.imp id fun he => Nat.le_of_eq (by rw [he, hid])
  have hnew {d : CarveOut} (hd : d ∈ n.issued) : d.block.id ≠ block.id := by
    have hlt := h.assigned d hd
    omega
  have hmiddle : (p.queued ++ ⟨block, 0, size, size⟩ :: n.out).Perm
      (⟨block, 0, size, size⟩ :: (p.queued ++ n.out)) := List.perm_middle
  have hmine : block ∈ t'.blocks := hblocks ▸ List.mem_concat_self
  constructor
  case numbered => exact hold.numbered
  case whole => exact List.forall_mem_cons.mpr ⟨by rw [CarveOut.whole, hreq], h.whole⟩
  case size_pos => exact List.forall_mem_cons.mpr ⟨Nat.pos_of_ne_zero hsize, h.size_pos⟩
  case assigned => exact List.forall_mem_cons.mpr ⟨hold.numbered.issued _ hmine, hold.assigned⟩
  case unique =>
    intro c hc d hd he
    rcases List.mem_cons.mp hc with rfl | hc <;> rcases List.mem_cons.mp hd with rfl | hd
    · rfl
    · exact absurd he.symm (hnew hd)
    · exact absurd he (hnew hc)
    · exact h.unique c hc d hd he
  case live_eq =>
    refine List.forall_mem_cons.mpr ⟨fun b hb he => ?_, hold.live_eq⟩
    exact hold.numbered.unique b hb block hmine he
  case given =>
    intro c hc
    rcases List.mem_cons.mp (hmiddle.mem_iff.mp hc) with rfl | hc
    · exact List.mem_cons_self
    · exact List.mem_cons_of_mem _ (h.given c hc)
  case distinct =>
    refine (hmiddle.map _).nodup_iff.mpr (List.nodup_cons.mpr ⟨fun hm => ?_, h.distinct⟩)
    obtain ⟨c, hc, he⟩ := List.mem_map.mp hm
    exact hnew (h.given c hc) he
  case owned =>
    intro id
    show id ∈ block.id :: p.owned ↔ _
    rw [List.mem_cons, h.owned, ← List.mem_cons]
    exact ((hmiddle.map fun c => c.block.id).mem_iff).symm
  case used =>
    show p.used + size = _
    rw [h.used, Nat.add_comm]
    exact ((hmiddle.map CarveOut.requestedSize).sum_nat).symm
  case placed =>
    intro c hc hb
    refine hmiddle.mem_iff.mpr ?_
    rcases List.mem_cons.mp hc with rfl | hc
    · exact List.mem_cons_self
    · exact List.mem_cons_of_mem _ (hold.placed c hc hb)

/-- A client has the range of its handle, if the pool knows the block and does not keep it. -/
theorem mem_out (h : Traced p t n) (hg : handle ∈ n.issued) (hlive : t.isLive handle.block = true)
    (habsent : ¬ p.holds handle = true) : handle ∈ n.out := by
  obtain ⟨b, hb⟩ := Option.isSome_iff_exists.mp hlive
  obtain ⟨hmem, hid⟩ := Tracker.mem_of_lookup hb
  obtain rfl := h.live_eq handle hg b hmem hid
  refine (List.mem_append.mp (h.placed handle hg hmem)).resolve_left fun hq => habsent ?_
  exact List.any_eq_true.mpr ⟨handle, List.mem_filter.mpr ⟨hq, beq_self_eq_true _⟩, beq_self_eq_true _⟩

/-- To take the range of a handle back is to take that one range from what clients have. -/
theorem returned_eq_erase (h : Traced p t n) (hout : handle ∈ n.out) :
    CarveOut.returned (.ok ()) handle n.out = n.out.erase handle := by
  have hmine {c : CarveOut} (hc : c ∈ n.out) : c ∈ n.issued := h.given c (List.mem_append_right _ hc)
  have hnodup : n.out.Nodup :=
    List.Nodup.of_map _ (h.distinct.sublist ((List.sublist_append_right p.queued n.out).map _))
  rw [hnodup.erase_eq_filter]
  refine List.filter_congr fun c hc => ?_
  by_cases he : c = handle
  · simp [he, CarveOut.sameStart]
  · have hne : c.block.id ≠ handle.block.id := fun hid => he (h.unique c (hmine hc) handle (hmine hout) hid)
    have hother : c.sameStart handle = false := Bool.eq_false_iff.mpr fun hs => hne (CarveOut.sameStart_iff.mp hs).1
    rw [hother]
    exact (bne_iff_ne.mpr he).symm

/-- A range that comes back waits instead. -/
theorem perm_release (h : Traced p t n) (hg : handle.block.id ∈ p.owned → handle ∈ n.issued) :
    ((p.release t handle).2.queued ++ (n.returned (p.release t handle).1 handle).out).Perm (p.queued ++ n.out) := by
  fun_cases ObjectPool.release p t handle
  case case5 id howned hsize hlive hholds =>
    have hissued := hg (Decidable.not_not.mp (not_or.mp howned).2)
    have hout := h.mem_out hissued (by simpa using hlive) hholds
    show ((p.queued ++ [handle]) ++ CarveOut.returned (.ok ()) handle n.out).Perm _
    rw [h.returned_eq_erase hout, List.append_assoc]
    exact (List.perm_cons_erase hout).symm.append_left p.queued
  all_goals exact .refl _

theorem release (h : Traced p t n) (hg : handle.block.id ∈ p.owned → handle ∈ n.issued) :
    Traced (p.release t handle).2 t (n.returned (p.release t handle).1 handle) := by
  have hperm := h.perm_release hg
  revert hperm
  fun_cases ObjectPool.release p t handle
  all_goals exact fun hperm => h.exchange hperm (fun _ => Iff.rfl) rfl rfl

variable [Heap H]

theorem carve (h : Traced p t n) (size : Nat) :
    Traced (p.carve t size).2.1 (p.carve t size).2.2 (n.taken (p.carve t size).1) := by
  fun_cases ObjectPool.carve p t size
  case case1 => exact h
  case case2 c hfind => exact h.reuse (List.mem_of_find?_eq_some hfind)
  case case3 => exact h
  case case4 hsize hnone hroom e t' ha =>
    obtain ⟨hblocks, hnext⟩ := Tracker.allocate_error ha
    refine h.mono ⟨?_, ?_⟩ (Nat.le_of_eq hnext.symm) fun b hb => .inl (hblocks ▸ hb)
    · rw [hblocks, hnext]
      exact h.numbered.issued
    · rw [hblocks]
      exact h.numbered.unique
  case case5 hsize hnone hroom block t' ha => exact h.adopt hsize ha

omit [Heap H] in
theorem used_forget (p : ObjectPool) (ranges : List CarveOut) :
    (ranges.foldl forget p).used = p.used - (ranges.map CarveOut.requestedSize).sum := by
  induction ranges generalizing p with
  | nil => rfl
  | cons c ranges ih =>
    rw [List.foldl_cons, ih, List.map_cons, List.sum_cons]
    exact Nat.sub_sub _ _ _

/-- What waited goes back to the tracker, and clients keep what they have. -/
theorem reset (h : Traced p t n) : Traced (p.reset t).2.1 (p.reset t).2.2 n := by
  have hold : Traced p (t.returnAll (p.queued.map CarveOut.block)) n := by
    refine h.mono (h.numbered.returnAll _) ?_ fun b hb => .inl (Tracker.mem_returnAll.mp hb).1
    exact Nat.le_of_eq (Tracker.nextId_returnAll _ _).symm
  have htracker : (p.reset t).2.2 = t.returnAll (p.queued.map CarveOut.block) := p.drain_tracker t p.queued
  have hids : ((p.queued.map fun c => c.block.id) ++ n.out.map fun c => c.block.id).Nodup := by
    rw [← List.map_append]
    exact h.distinct
  rw [htracker]
  refine { hold with given := ?_, distinct := ?_, owned := ?_, used := ?_, placed := ?_ }
  · exact fun c hc => h.given c (List.mem_append_right _ hc)
  · exact (List.nodup_append.mp hids).2.1
  · intro id
    rw [mem_owned_reset, h.owned, List.map_append, List.mem_append]
    constructor
    · exact fun hid => hid.1.resolve_left hid.2
    · intro hid
      exact ⟨.inr hid, fun hq => (List.nodup_append.mp hids).2.2 id hq id hid rfl⟩
  · show (p.drain t p.queued).2.1.used = (n.out.map CarveOut.requestedSize).sum
    rw [drain_pool, used_forget, h.used, List.map_append, List.sum_append, Nat.add_sub_cancel_left]
  · intro c hc hb
    obtain ⟨hlive, hnot⟩ := Tracker.mem_returnAll.mp hb
    refine (List.mem_append.mp (h.placed c hc hlive)).resolve_left fun hq => hnot ?_
    rw [List.map_map]
    exact List.mem_map.mpr ⟨c, hq, rfl⟩

/-! ### The blocks that are live -/

omit [Heap H] in
theorem block_mem (h : Traced p t n) (hc : c ∈ n.issued) (hlive : t.isLive c.block = true) : c.block ∈ t.blocks := by
  obtain ⟨b, hb⟩ := Option.isSome_iff_exists.mp hlive
  obtain ⟨hmem, hid⟩ := Tracker.mem_of_lookup hb
  rwa [← h.live_eq c hc b hmem hid]

omit [Heap H] in
/-- The pool owns every live block that it ever gave out. -/
theorem mem_owned_iff (h : Traced p t n) {b : Block} (hb : b ∈ t.blocks) :
    b.id ∈ p.owned ↔ b.id ∈ n.issued.map fun c => c.block.id := by
  rw [h.owned]
  constructor
  · intro hid
    obtain ⟨c, hc, hcid⟩ := List.mem_map.mp hid
    exact List.mem_map.mpr ⟨c, h.given c hc, hcid⟩
  · intro hid
    obtain ⟨c, hc, hcid⟩ := List.mem_map.mp hid
    have hblock := h.live_eq c hc b hb hcid.symm
    exact List.mem_map.mpr ⟨c, h.placed c hc (hblock ▸ hb), hcid⟩

omit [Heap H] in
/-- The live blocks of the pool are those of its ranges that are live, each once. -/
theorem perm_live (h : Traced p t n) (hr : t.blocks.Pairwise fun b c => b.id < c.id) :
    (t.blocks.filter fun b => b.id ∈ p.owned).Perm
      (((p.queued ++ n.out).filter fun c => t.isLive c.block).map CarveOut.block) := by
  have hblocks : t.blocks.Nodup := hr.imp fun hlt he => Nat.ne_of_lt hlt (congrArg Block.id he)
  have hranges : ((p.queued ++ n.out).map CarveOut.block).Nodup := by
    refine List.Nodup.of_map Block.id ?_
    rw [List.map_map]
    exact h.distinct
  refine (List.perm_ext_iff_of_nodup (hblocks.filter _) (hranges.sublist (List.filter_sublist.map _))).mpr fun b => ?_
  simp only [List.mem_filter, List.mem_map, decide_eq_true_eq, h.owned]
  constructor
  · rintro ⟨hb, c, hc, hid⟩
    obtain rfl := h.live_eq c (h.given c hc) b hb hid.symm
    exact ⟨c, ⟨hc, Tracker.isSome_lookup_iff.mpr (List.mem_map_of_mem hb)⟩, rfl⟩
  · rintro ⟨c, ⟨hc, hlive⟩, rfl⟩
    exact ⟨h.block_mem (h.given c hc) hlive, c, hc, rfl⟩

end Traced

/-! ## Runs -/

variable [Heap H]

theorem steps_act (s : ObjectPool × Tracker H) (a : Act) : Tracker.Steps s.2 (act s a).2.2 := by
  cases a with
  | tracker a => exact s.2.steps_act a
  | allocate size => exact s.1.steps_carve s.2 size
  | release handle => exact .refl
  | reset => exact s.1.steps_reset s.2

theorem steps_run (s : ObjectPool × Tracker H) (acts : List Act) : Tracker.Steps s.2 (run s acts).2 :=
  Tracker.Steps.foldl Prod.snd steps_act acts s

/-- Live blocks have rising ids. -/
theorem rising_run {heap : H} {budget : Option Nat} {t : Tracker H} (ht : Tracker.Steps (.ofHeap heap budget) t)
    (p : ObjectPool) (acts : List Act) : (run (p, t) acts).2.blocks.Pairwise fun b c => b.id < c.id :=
  Tracker.Steps.rising (ht.trans (steps_run (p, t) acts)) (Tracker.assigned_ofHeap heap budget) List.Pairwise.nil

/-- Nothing waits after a reset. -/
theorem queued_run_reset (s : ObjectPool × Tracker H) (past : List Act) :
    (run s (past ++ [.reset])).1.queued = [] := by
  rw [run_concat]
  rfl

/-- The account after an operation. -/
def Account.after (s : ObjectPool × Tracker H) (n : Account) : Act → Account
  | .allocate size => n.taken (s.1.allocate s.2 size).1
  | .release handle => n.returned (s.1.release s.2 handle).1 handle
  | .tracker _ | .reset => n

/-- The account after a list of operations, if there was one before it. -/
def accountFrom (s : ObjectPool × Tracker H) (n : Account) : List Act → Account
  | [] => n
  | a :: acts => accountFrom (act s a).2 (n.after s a) acts

/-- The account after a list of operations. -/
def account (s : ObjectPool × Tracker H) (acts : List Act) : Account :=
  accountFrom s {} acts

theorem accountFrom_append (s : ObjectPool × Tracker H) (n : Account) (acts later : List Act) :
    accountFrom s n (acts ++ later) = accountFrom (run s acts) (accountFrom s n acts) later := by
  induction acts generalizing s n with
  | nil => rfl
  | cons a acts ih => exact ih _ _

theorem account_append (s : ObjectPool × Tracker H) (acts later : List Act) :
    account s (acts ++ later) = accountFrom (run s acts) (account s acts) later :=
  accountFrom_append s {} acts later

/-- The handle that comes back is one that was given out, as far as the pool knows the block. -/
def Genuine (s : ObjectPool × Tracker H) (n : Account) : Act → Prop
  | .release handle => handle.block.id ∈ s.1.owned → handle ∈ n.issued
  | _ => True

/-- So it is with every operation of a run. -/
def Along (P : ObjectPool × Tracker H → Account → Act → Prop) (s : ObjectPool × Tracker H) (n : Account) :
    List Act → Prop
  | [] => True
  | a :: acts => P s n a ∧ Along P (act s a).2 (n.after s a) acts

instance (s : ObjectPool × Tracker H) (n : Account) : DecidablePred (Genuine s n)
  | .release handle => inferInstanceAs (Decidable (handle.block.id ∈ s.1.owned → handle ∈ n.issued))
  | .tracker _ => .isTrue trivial
  | .allocate _ => .isTrue trivial
  | .reset => .isTrue trivial

instance decidableAlong (P : ObjectPool × Tracker H → Account → Act → Prop) [∀ s n, DecidablePred (P s n)]
    (s : ObjectPool × Tracker H) (n : Account) : DecidablePred (Along P s n)
  | [] => .isTrue trivial
  | a :: acts =>
    have := decidableAlong P (act s a).2 (n.after s a) acts
    inferInstanceAs (Decidable (P s n a ∧ Along P (act s a).2 (n.after s a) acts))

theorem Along.append {P : ObjectPool × Tracker H → Account → Act → Prop} {s : ObjectPool × Tracker H} {n : Account}
    {acts later : List Act} (h : Along P s n (acts ++ later)) :
    Along P s n acts ∧ Along P (run s acts) (accountFrom s n acts) later := by
  induction acts generalizing s n with
  | nil => exact ⟨trivial, h⟩
  | cons a acts ih =>
    obtain ⟨hhead, hrest⟩ := h
    obtain ⟨hacts, hlater⟩ := ih hrest
    exact ⟨⟨hhead, hacts⟩, hlater⟩

namespace Traced

variable {s : ObjectPool × Tracker H} {n : Account}

theorem act (h : Traced s.1 s.2 n) {a : Act} (hg : Genuine s n a) :
    Traced (act s a).2.1 (ObjectPool.act s a).2.2 (n.after s a) := by
  cases a with
  | tracker a =>
    have hsteps := s.2.steps_act a
    exact h.mono (Tracker.Steps.numbered hsteps h.numbered) hsteps.nextId_le fun b hb => hsteps.origin hb
  | allocate size => exact (h.carve size).with_tally _
  | release handle => exact h.release hg
  | reset => exact h.reset

theorem run (h : Traced s.1 s.2 n) {acts : List Act} (hg : Along Genuine s n acts) :
    Traced (run s acts).1 (ObjectPool.run s acts).2 (accountFrom s n acts) := by
  induction acts generalizing s n with
  | nil => exact h
  | cons a acts ih => exact ih (h.act hg.1) hg.2

end Traced

end TrackedHeap.ObjectPool
