import TrackedHeap.Proofs.Ownership.Carver

/-!
# What clients have of all carvers

An estate is all carvers over one tracker. No block is behind two of them, so the ranges that clients have of
one carver are those in its blocks, and what one carver does is nothing to the others. Carvers come and go at
the front of a list; since their order does not matter, any of them can be brought there.
-/

namespace TrackedHeap

namespace Carver

variable {H : Type} {t t' : Tracker H} {c c' : Carver} {out : List CarveOut}

/-- No block is behind both. -/
def Apart (c d : Carver) : Prop :=
  ∀ id ∈ c.backing, id ∉ d.backing

theorem Apart.symm {c d : Carver} (h : c.Apart d) : d.Apart c :=
  fun id hd hc => h id hc hd

/-- What clients have after a reset of the carver: all of an object pool's ranges, and none of another
one's. -/
def afterReset (c : Carver) (out : List CarveOut) : List CarveOut :=
  if c.strategy = .objectPool then out else out.filter fun o => o.block.id ∉ c.backing

/-- Those of the ranges that are in blocks of the carver. -/
def part (c : Carver) (out : List CarveOut) : List CarveOut :=
  out.filter fun o => o.block.id ∈ c.backing

theorem mem_part {o : CarveOut} : o ∈ c.part out ↔ o ∈ out ∧ o.block.id ∈ c.backing := by
  rw [part, List.mem_filter, decide_eq_true_eq]

/-- The ranges in blocks that the carver has after an operation were in its blocks before. -/
theorem part_turnover (hturn : Tracker.Turnover t t' c.backing c'.backing)
    (hlt : ∀ o ∈ out, o.block.id < t.nextId) : (c'.part out).Sublist (c.part out) := by
  have he : c'.part out = (c.part out).filter fun o => o.block.id ∈ c'.backing := by
    rw [part, part, List.filter_filter]
    refine List.filter_congr fun o ho => ?_
    rw [← Bool.decide_and, decide_eq_decide]
    refine ⟨fun h => ⟨h, ?_⟩, And.left⟩
    exact (hturn.fresh _ h).resolve_right (Nat.not_le_of_lt (hlt o ho))
  rw [he]
  exact List.filter_sublist

/-- Clients have nothing in the blocks of a new carver. -/
theorem part_eq_nil (hturn : Tracker.Turnover t t' [] c.backing) (hlt : ∀ o ∈ out, o.block.id < t.nextId) :
    c.part out = [] :=
  List.filter_eq_nil_iff.mpr fun o ho => by
    simpa using fun hid => Nat.not_le_of_lt (hlt o ho) ((hturn.fresh _ hid).resolve_left List.not_mem_nil)

theorem afterRelease_sublist {α : Type} (c : Carver) (answer : Except MemoryError α) (handle : CarveOut)
    (out : List CarveOut) : (c.afterRelease answer handle out).Sublist out := by
  unfold afterRelease
  split
  · exact CarveOut.returned_sublist _ _ _
  · exact List.Sublist.refl _

/-- A range that comes back comes back of the part that it is in. -/
theorem part_afterRelease {α : Type} (c d : Carver) (answer : Except MemoryError α) (handle : CarveOut)
    (out : List CarveOut) :
    d.part (c.afterRelease answer handle out) = c.afterRelease answer handle (d.part out) := by
  unfold afterRelease
  split
  · rw [part, CarveOut.filter_returned]
    rfl
  · rfl

end Carver

/-- All carvers over a tracker, with the ranges that were ever given out, those that clients have, and the
ids of blocks that somebody other than a carver may return. -/
structure Estate {H : Type} (t : Tracker H) (carvers : List Carver) (issued out : List CarveOut)
    (others : List Nat) : Prop where
  sound : ∀ c ∈ carvers, c.Sound t (c.part out)
  apart : carvers.Pairwise Carver.Apart
  known : ∀ o ∈ issued, ∀ c ∈ carvers, c.Knows t o
  given : ∀ o ∈ issued, o.block.id < t.nextId
  drawn : ∀ o ∈ out, o ∈ issued
  foreign : ∀ id ∈ others, id < t.nextId ∧ ∀ c ∈ carvers, id ∉ c.backing

/-- Every range is in a block behind one of the carvers. -/
def Backed (carvers : List Carver) (out : List CarveOut) : Prop :=
  ∀ o ∈ out, o.block.id ∈ carvers.flatMap Carver.backing

theorem Backed.perm {carvers carvers' : List Carver} {out : List CarveOut} (h : Backed carvers out)
    (hp : carvers.Perm carvers') : Backed carvers' out :=
  fun o ho => (hp.flatMap_right Carver.backing).mem_iff.mp (h o ho)

namespace Estate

variable {H : Type} {t t' : Tracker H} {c c' : Carver} {rest carvers : List Carver}
  {issued out out' : List CarveOut} {others : List Nat}

/-- No carver, and nothing that was ever given out. -/
theorem nil (t : Tracker H) : Estate t [] [] [] [] where
  sound _ hc := absurd hc List.not_mem_nil
  apart := List.Pairwise.nil
  known _ ho := absurd ho List.not_mem_nil
  given _ ho := absurd ho List.not_mem_nil
  drawn _ ho := absurd ho List.not_mem_nil
  foreign _ hid := absurd hid List.not_mem_nil

theorem lt_nextId (h : Estate t carvers issued out others) {o : CarveOut} (ho : o ∈ out) :
    o.block.id < t.nextId :=
  h.given o (h.drawn o ho)

/-- The order of the carvers does not matter. -/
theorem perm {carvers' : List Carver} (h : Estate t carvers issued out others)
    (hp : carvers.Perm carvers') : Estate t carvers' issued out others where
  sound c hc := h.sound c (hp.mem_iff.mpr hc)
  apart := (hp.pairwise_iff Carver.Apart.symm).mp h.apart
  known o ho c hc := h.known o ho c (hp.mem_iff.mpr hc)
  given := h.given
  drawn := h.drawn
  foreign id hid := ⟨(h.foreign id hid).1, fun c hc => (h.foreign id hid).2 c (hp.mem_iff.mpr hc)⟩

/-- Only the blocks behind carvers matter. -/
theorem keeps (h : Estate t carvers issued out others) (hn : t.nextId ≤ t'.nextId)
    (hk : ∀ c ∈ carvers, t.Keeps t' c.backing) : Estate t' carvers issued out others where
  sound c hc := (h.sound c hc).keeps (hk c hc)
  apart := h.apart
  known o ho c hc := (h.known o ho c hc).keeps (hk c hc)
  given o ho := Nat.lt_of_lt_of_le (h.given o ho) hn
  drawn := h.drawn
  foreign id hid := ⟨Nat.lt_of_lt_of_le (h.foreign id hid).1 hn, (h.foreign id hid).2⟩

/-- Blocks that are not behind a carver may go. -/
theorem elsewhere {ids : List Nat} (h : Estate t carvers issued out others)
    (hturn : Tracker.Turnover t t' ids []) (hids : ∀ id ∈ ids, ∀ c ∈ carvers, id ∉ c.backing) :
    Estate t' carvers issued out others :=
  h.keeps hturn.issued fun c hc _ hb hid => hturn.kept_other hb fun hm => hids _ hm c hc hid

/-- Clients may have less. -/
theorem sublist (h : Estate t carvers issued out others) (hs : out'.Sublist out) :
    Estate t carvers issued out' others where
  sound c hc := (h.sound c hc).sublist (hs.filter _)
  apart := h.apart
  known := h.known
  given := h.given
  drawn o ho := h.drawn o (hs.subset ho)
  foreign := h.foreign

theorem with_others {others' : List Nat} (h : Estate t carvers issued out others)
    (ho : ∀ id ∈ others', id < t.nextId ∧ ∀ c ∈ carvers, id ∉ c.backing) :
    Estate t carvers issued out others' :=
  ⟨h.sound, h.apart, h.known, h.given, h.drawn, ho⟩

/-- One carver does something, whereupon clients may have less of it. -/
theorem change (h : Estate t (c :: rest) issued out others) (hn : t.Numbered)
    (hturn : Tracker.Turnover t t' c.backing c'.backing) (hs : c'.strategy = c.strategy)
    {mine : List CarveOut} (hmine : c'.Sound t' mine) (hsub : out'.Sublist out)
    (hpart : (c.part out').Sublist mine) :
    Estate t' (c' :: rest) issued out' others ∧ (Backed (c :: rest) out → Backed (c' :: rest) out') := by
  obtain ⟨hapart, hrest⟩ := List.pairwise_cons.mp h.apart
  have hkeep : ∀ d ∈ rest, t.Keeps t' d.backing := fun d hd b hb hid =>
    hturn.kept_other hb ((hapart d hd).symm _ hid)
  have hlt : ∀ o ∈ out', o.block.id < t.nextId := fun o ho => h.lt_nextId (hsub.subset ho)
  -- a block that was given out is behind the carver afterwards only if it was before
  have hold {id : Nat} (hid : id ∈ c'.backing) (hid' : id < t.nextId) : id ∈ c.backing :=
    (hturn.fresh id hid).resolve_right (Nat.not_le_of_lt hid')
  refine ⟨⟨?_, ?_, fun o ho => ?_, fun o ho => ?_, fun o ho => h.drawn o (hsub.subset ho),
    fun id hid => ⟨?_, ?_⟩⟩, fun hb o ho => ?_⟩
  · refine List.forall_mem_cons.mpr ⟨?_, fun d hd => ?_⟩
    · exact hmine.sublist ((Carver.part_turnover hturn hlt).trans hpart)
    · exact ((h.sound d (List.mem_cons_of_mem _ hd)).keeps (hkeep d hd)).sublist (hsub.filter _)
  · refine List.pairwise_cons.mpr ⟨fun d hd id hid hid' => ?_, hrest⟩
    rcases hturn.fresh id hid with hid | hle
    · exact hapart d hd id hid hid'
    · exact Nat.not_le_of_lt ((h.sound d (List.mem_cons_of_mem _ hd)).lt_nextId hn hid') hle
  · refine List.forall_mem_cons.mpr ⟨?_, fun d hd => ?_⟩
    · exact (h.known o ho c List.mem_cons_self).turnover (h.given o ho) hturn hs
    · exact (h.known o ho d (List.mem_cons_of_mem _ hd)).keeps (hkeep d hd)
  · exact Nat.lt_of_lt_of_le (h.given o ho) hturn.issued
  · exact Nat.lt_of_lt_of_le (h.foreign id hid).1 hturn.issued
  · obtain ⟨hid', hnot⟩ := h.foreign id hid
    refine List.forall_mem_cons.mpr ⟨fun hc => ?_, fun d hd => hnot d (List.mem_cons_of_mem _ hd)⟩
    exact hnot c List.mem_cons_self (hold hc hid')
  · rw [List.flatMap_cons, List.mem_append]
    refine (List.mem_append.mp (hb o (hsub.subset ho))).imp_left fun hid => ?_
    exact hmine.owned.backed o (hpart.subset (Carver.mem_part.mpr ⟨ho, hid⟩))

/-! ## Operations of one carver -/

theorem release (h : Estate t (c :: rest) issued out others) (hn : t.Numbered) {handle : CarveOut}
    (hi : handle ∈ issued) :
    Estate t ((c.release t handle).2.1 :: rest) issued
        (c.afterRelease (c.release t handle).1 handle out) others ∧
      (Backed (c :: rest) out → Backed ((c.release t handle).2.1 :: rest)
        (c.afterRelease (c.release t handle).1 handle out)) := by
  obtain ⟨hsound, hturn⟩ := (h.sound c List.mem_cons_self).release hn
    (h.known handle hi c List.mem_cons_self)
  refine h.change hn hturn (c.strategy_release t handle) hsound (c.afterRelease_sublist ..) ?_
  rw [Carver.part_afterRelease]

/-- A range that was granted is with a client now. -/
theorem issue (h : Estate t (c :: rest) issued out others) (hn : t.Numbered) {o : CarveOut}
    (hs : c.Sound t (o :: c.part out)) : Estate t (c :: rest) (o :: issued) (o :: out) others := by
  have hmem : o.block.id ∈ c.backing := hs.owned.backed o List.mem_cons_self
  have hnot : ∀ d ∈ rest, o.block.id ∉ d.backing := fun d hd =>
    (List.pairwise_cons.mp h.apart).1 d hd _ hmem
  refine ⟨?_, h.apart, ?_, ?_, ?_, h.foreign⟩
  · refine List.forall_mem_cons.mpr ⟨?_, fun d hd => ?_⟩
    · rwa [Carver.part, List.filter_cons_of_pos (by simpa using hmem)]
    · rw [Carver.part, List.filter_cons_of_neg (by simpa using hnot d hd)]
      exact h.sound d (List.mem_cons_of_mem _ hd)
  · refine List.forall_mem_cons.mpr ⟨List.forall_mem_cons.mpr ⟨?_, fun d hd => ?_⟩, h.known⟩
    · exact hs.knows List.mem_cons_self
    · exact fun _ hid => absurd hid (hnot d hd)
  · exact List.forall_mem_cons.mpr ⟨hs.lt_nextId hn hmem, h.given⟩
  · exact List.forall_mem_cons.mpr
      ⟨List.mem_cons_self, fun a ha => List.mem_cons_of_mem _ (h.drawn a ha)⟩

/-- Clients have nothing of a carver that is added, and its blocks are new. -/
theorem add (h : Estate t carvers issued out others) (hn : t.Numbered)
    (hturn : Tracker.Turnover t t' [] c.backing) (hs : c.Sound t' []) :
    Estate t' (c :: carvers) issued out others := by
  have hnew : ∀ id ∈ c.backing, ¬ id < t.nextId := fun id hid =>
    Nat.not_lt.mpr ((hturn.fresh id hid).resolve_left List.not_mem_nil)
  have h' : Estate t' carvers issued out others :=
    h.keeps hturn.issued fun _ _ _ hb _ => hturn.kept_other hb List.not_mem_nil
  refine ⟨List.forall_mem_cons.mpr ⟨?_, h'.sound⟩, List.pairwise_cons.mpr ⟨?_, h.apart⟩, ?_, h'.given,
    h.drawn, fun id hid => ⟨(h'.foreign id hid).1, List.forall_mem_cons.mpr ⟨?_, (h.foreign id hid).2⟩⟩⟩
  · rwa [Carver.part_eq_nil hturn fun o ho => h.lt_nextId ho]
  · exact fun d hd id hid hid' => hnew id hid ((h.sound d hd).lt_nextId hn hid')
  · exact fun o ho => List.forall_mem_cons.mpr
      ⟨fun _ hid => absurd (h.given o ho) (hnew _ hid), h'.known o ho⟩
  · exact fun hc => hnew id hc (h.foreign id hid).1

variable [Heap H]

theorem allocate (h : Estate t (c :: rest) issued out others) (hn : t.Numbered) (size : Nat)
    (hn' : (c.allocate t size).2.2.Numbered) :
    Estate (c.allocate t size).2.2 ((c.allocate t size).2.1 :: rest)
        (CarveOut.taken (c.allocate t size).1 issued) (CarveOut.taken (c.allocate t size).1 out)
        others ∧
      (Backed (c :: rest) out → Backed ((c.allocate t size).2.1 :: rest)
        (CarveOut.taken (c.allocate t size).1 out)) := by
  obtain ⟨hsound, hturn⟩ := (h.sound c List.mem_cons_self).allocate hn size
  have hs := c.strategy_allocate t size
  rcases ha : c.allocate t size with ⟨answer, c', t'⟩
  rw [ha] at hsound hturn hs hn'
  simp only at hsound hturn hs hn' ⊢
  cases answer with
  | error e => exact h.change hn hturn hs hsound (List.Sublist.refl _) (List.Sublist.refl _)
  | ok o =>
    obtain ⟨h', hb⟩ :=
      h.change hn hturn hs hsound (List.Sublist.refl _) (List.sublist_cons_self _ _)
    have hpart := Carver.part_turnover hturn fun a ha => h.lt_nextId ha
    refine ⟨h'.issue hn' (hsound.sublist (List.cons_sublist_cons.mpr hpart)), fun hback => ?_⟩
    refine List.forall_mem_cons.mpr ⟨?_, hb hback⟩
    exact List.mem_append_left _ (hsound.owned.backed o List.mem_cons_self)

/-- Only the ranges of an object pool stay with clients. -/
theorem reset (h : Estate t (c :: rest) issued out others) (hn : t.Numbered) :
    Estate (c.reset t).2.2 ((c.reset t).2.1 :: rest) issued (c.afterReset out) others ∧
      (Backed (c :: rest) out → Backed ((c.reset t).2.1 :: rest) (c.afterReset out)) := by
  obtain ⟨hsound, hturn⟩ := (h.sound c List.mem_cons_self).reset hn
  refine h.change hn hturn (c.strategy_reset t) hsound ?_ ?_
  · unfold Carver.afterReset
    split
    · exact List.Sublist.refl _
    · exact List.filter_sublist
  · unfold Carver.afterReset
    split
    · exact List.Sublist.refl _
    · have hnone : c.part (out.filter fun o => o.block.id ∉ c.backing) = [] :=
        List.filter_eq_nil_iff.mpr fun o ho => by simpa using (List.mem_filter.mp ho).2
      rw [hnone]

/-- A carver that is done with returns no block of others. -/
theorem drop (h : Estate t (c :: rest) issued out others) :
    Estate (c.dispose t) rest issued out others := by
  have hturn := (h.sound c List.mem_cons_self).turnover_dispose
  obtain ⟨hapart, hrest⟩ := List.pairwise_cons.mp h.apart
  have h' : Estate t rest issued out others :=
    ⟨fun d hd => h.sound d (List.mem_cons_of_mem _ hd), hrest,
      fun o ho d hd => h.known o ho d (List.mem_cons_of_mem _ hd), h.given, h.drawn,
      fun id hid => ⟨(h.foreign id hid).1,
        fun d hd => (h.foreign id hid).2 d (List.mem_cons_of_mem _ hd)⟩⟩
  exact h'.keeps hturn.issued fun d hd b hb hid => hturn.kept_other hb ((hapart d hd).symm _ hid)

/-! ## Ranges of memory -/

omit [Heap H]

/-- A range is in a live block, as it was asked for. -/
theorem fits (h : Estate t carvers issued out others) {o : CarveOut} (ho : o ∈ out)
    (hb : o.block.id ∈ carvers.flatMap Carver.backing) :
    o.block ∈ t.blocks ∧ o.offset + o.grantedSize ≤ o.block.requestedSize ∧
      o.requestedSize ≤ o.grantedSize := by
  obtain ⟨c, hc, hid⟩ := List.mem_flatMap.mp hb
  have howned := (h.sound c hc).owned
  have hpart : o ∈ c.part out := Carver.mem_part.mpr ⟨ho, hid⟩
  exact ⟨howned.mem o hpart, howned.fits o hpart, howned.enough o hpart⟩

/-- Two ranges in one block are of one carver. -/
theorem spans_apart (h : Estate t carvers issued out others)
    (hb : Backed carvers out) :
    out.Pairwise CarveOut.Apart := by
  refine pairwise_of_filter (fun o => o.block.id) (fun id => ?_) fun o _ p _ hne he => absurd he hne
  by_cases hid : ∃ c ∈ carvers, id ∈ c.backing
  · obtain ⟨c, hc, hid⟩ := hid
    refine (h.sound c hc).owned.apart.sublist (List.monotone_filter_right out fun o ho => ?_)
    rw [decide_eq_true_eq] at ho ⊢
    rwa [ho]
  · have hnone : (out.filter fun o => o.block.id = id) = [] := List.filter_eq_nil_iff.mpr fun o ho he => by
      rw [decide_eq_true_eq] at he
      exact hid (List.mem_flatMap.mp (he ▸ hb o ho))
    rw [hnone]
    exact List.Pairwise.nil

/-- The ranges that clients have and the blocks that are not behind a carver share no byte. -/
theorem ranges_apart (h : Estate t carvers issued out others) (hl : Layout t.blocks t.nextId)
    (hb : Backed carvers out) :
    (out.map CarveOut.range ++
      (t.blocks.filter fun b => b.id ∉ carvers.flatMap Carver.backing).map Block.usable).Pairwise
        Extent.Apart := by
  have hfits : ∀ o ∈ out, o.offset + o.grantedSize ≤ o.block.requestedSize := fun o ho => (h.fits ho (hb o ho)).2.1
  have hcovers : ∀ o ∈ out, o.block.usable.Covers o.address o.grantedSize := fun o ho => by
    have hle := hfits o ho
    constructor <;> simp only [Block.usable, CarveOut.address] <;> omega
  have hmem : ∀ o ∈ out, o.block ∈ t.blocks := fun o ho => (h.fits ho (hb o ho)).1
  have hrange : ∀ o ∈ out, ∀ e, o.block.usable.Apart e → o.range.Apart e := fun o ho e ha =>
    ha.of_covers (hcovers o ho)
  refine List.pairwise_append.mpr ⟨List.pairwise_map.mpr ?_, List.pairwise_map.mpr ?_, ?_⟩
  · exact (h.spans_apart hb).imp_of_mem fun ho hp hop =>
      hop.range_apart hl (hmem _ ho) (hmem _ hp) (hfits _ ho) (hfits _ hp)
  · refine (List.Pairwise.and_mem.mp hl.rising).filter _ |>.imp fun {b c} hbc => ?_
    exact hl.usable_apart hbc.1 hbc.2.1 (Nat.ne_of_lt hbc.2.2)
  · intro e he f hf
    obtain ⟨o, ho, rfl⟩ := List.mem_map.mp he
    obtain ⟨b, hbm, rfl⟩ := List.mem_map.mp hf
    obtain ⟨hlive, hnot⟩ := List.mem_filter.mp hbm
    refine hrange o ho _ (hl.usable_apart (hmem o ho) hlive fun hid => ?_)
    rw [decide_eq_true_eq] at hnot
    exact hnot (hid ▸ hb o ho)

end Estate

end TrackedHeap
