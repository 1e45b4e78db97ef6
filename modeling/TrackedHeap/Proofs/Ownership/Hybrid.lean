import TrackedHeap.Carver.Hybrid
import TrackedHeap.Proofs.Ownership.Buddy
import TrackedHeap.Proofs.Ownership.Sequence
import TrackedHeap.Proofs.Ownership.Slab

/-!
# What clients have of a hybrid

The tier of the size that was asked for says which part a range is of. The parts have no block in common, so
what one of them does is nothing to the others.
-/

namespace TrackedHeap

/-! ## What is granted is what was asked for -/

theorem SlabCarver.requestedSize_of_carve {H : Type} [Heap H] {s : SlabCarver} {t : Tracker H}
    {size : Nat} {c : CarveOut} (h : (s.carve t size).1 = .ok c) : c.requestedSize = size := by
  have hfrom {s : SlabCarver} {slab : Slab} (hf : (s.carveFrom slab).1 = .ok c) :
      c.requestedSize = slab.objectSize := by
    unfold carveFrom at hf
    split at hf
    · cases hf
    · rw [← Except.ok.inj hf]
  revert h
  fun_cases SlabCarver.carve s t size
  case case1 => exact fun h => by cases h
  case case2 hsize slab hfind result s₁ hcarve =>
    intro h
    rw [hfrom (s := s) (by rw [hcarve]; exact h), (slabFor?_eq_some hfind).2]
  case case3 => exact fun h => by cases h
  case case4 hsize hnone slab s₁ t₁ hnew result s₂ hcarve =>
    intro h
    rw [hfrom (s := s₁) (by rw [hcarve]; exact h)]
    revert hnew
    fun_cases SlabCarver.newSlab s t size
    case case4 =>
      intro hnew
      rw [← Except.ok.inj (Prod.mk.inj hnew).1]
    all_goals exact fun hnew => by cases hnew

theorem Buddy.requestedSize_of_carve {b : Buddy} {size : Nat} {c : CarveOut}
    (h : (b.carve size).1 = .ok c) : c.requestedSize = size := by
  have hc : b.carve size = (.ok c, (b.carve size).2) := by rw [← h]
  obtain ⟨d, -, rfl, -⟩ := carve_ok hc
  rfl

theorem Arena.requestedSize_of_carve {H : Type} [Heap H] {a : Arena} {t : Tracker H} {size : Nat}
    {c : CarveOut} (h : (a.carve t size).1 = .ok c) : c.requestedSize = size := by
  revert h
  fun_cases Arena.carve a t size
  case case4 hgrant =>
    intro h
    obtain ⟨hr, -⟩ := Prod.mk.inj hgrant
    rw [← hr] at h
    rw [← Except.ok.inj h]
  case case5 hgrant =>
    intro h
    obtain ⟨hr, -⟩ := Prod.mk.inj hgrant
    rw [← hr] at h
    rw [← Except.ok.inj h]
  all_goals exact fun h => by cases h

namespace Hybrid

variable {H : Type} {t t' : Tracker H} {h h' : Hybrid} {out out' : List CarveOut} {tier other : Tier}

/-- The blocks behind the part of a tier. -/
def backingOf (h : Hybrid) : Tier → List Nat
  | .small => h.small.backing
  | .medium => h.medium.backing
  | .large => h.large.backing

/-- The blocks behind the parts. -/
def backing (h : Hybrid) : List Nat :=
  h.small.backing ++ (h.medium.backing ++ h.large.backing)

/-- What clients have of the part of a tier. -/
def ofTier (tier : Tier) (out : List CarveOut) : List CarveOut :=
  out.filter fun c => Tier.ofSize c.requestedSize = tier

/-- The part of a tier is sound for the ranges of the tier. -/
def SoundAt (h : Hybrid) (t : Tracker H) (out : List CarveOut) : Tier → Prop
  | .small => h.small.Sound t (ofTier .small out)
  | .medium => h.medium.Sound t (ofTier .medium out)
  | .large => h.large.Sound t (ofTier .large out)

/-- The part of a tier is the same in both. -/
def SamePart (h h' : Hybrid) : Tier → Prop
  | .small => h'.small = h.small
  | .medium => h'.medium = h.medium
  | .large => h'.large = h.large

/-- Every part is sound, and no block is behind two of them. -/
structure Sound (h : Hybrid) (t : Tracker H) (out : List CarveOut) : Prop where
  part : ∀ tier, h.SoundAt t out tier
  disjoint : ∀ i j, i ≠ j → ∀ id ∈ h.backingOf i, id ∉ h.backingOf j

theorem mem_backing {id : Nat} : id ∈ h.backing ↔ ∃ tier, id ∈ h.backingOf tier := by
  simp only [backing, List.mem_append]
  constructor
  · rintro (hid | hid | hid)
    · exact ⟨.small, hid⟩
    · exact ⟨.medium, hid⟩
    · exact ⟨.large, hid⟩
  · rintro ⟨tier, hid⟩
    cases tier with
    | small => exact .inl hid
    | medium => exact .inr (.inl hid)
    | large => exact .inr (.inr hid)

theorem mem_ofTier {c : CarveOut} :
    c ∈ ofTier tier out ↔ c ∈ out ∧ Tier.ofSize c.requestedSize = tier := by
  rw [ofTier, List.mem_filter, decide_eq_true_eq]

namespace SoundAt

/-- The ranges of a tier are in the blocks of its part. -/
theorem owned (hs : h.SoundAt t out tier) : Owned t (h.backingOf tier) (ofTier tier out) := by
  cases tier with
  | small => exact SlabCarver.Sound.owned hs
  | medium => exact Buddy.Sound.owned hs
  | large => exact Arena.Sound.owned hs

theorem keeps (hs : h.SoundAt t out tier) (hk : t.Keeps t' (h.backingOf tier)) :
    h.SoundAt t' out tier := by
  cases tier with
  | small => exact SlabCarver.Sound.keeps hs hk
  | medium => exact Buddy.Sound.keeps hs hk
  | large => exact Arena.Sound.keeps hs hk

theorem sublist (hs : h.SoundAt t out tier) (hsub : (ofTier tier out').Sublist (ofTier tier out)) :
    h.SoundAt t out' tier := by
  cases tier with
  | small => exact SlabCarver.Sound.sublist hs hsub
  | medium => exact Buddy.Sound.sublist hs hsub
  | large => exact Arena.Sound.sublist hs hsub

theorem same (hs : h.SoundAt t out tier) (he : h.SamePart h' tier) : h'.SoundAt t out tier := by
  cases tier with
  | small =>
    simp only [SamePart] at he
    rwa [SoundAt, he]
  | medium =>
    simp only [SamePart] at he
    rwa [SoundAt, he]
  | large =>
    simp only [SamePart] at he
    rwa [SoundAt, he]

end SoundAt

/-- Only the small part changes. -/
theorem SamePart.small (hm : h'.medium = h.medium) (hl : h'.large = h.large) :
    ∀ tier, tier ≠ .small → h.SamePart h' tier
  | .small, ht => absurd rfl ht
  | .medium, _ => hm
  | .large, _ => hl

/-- Only the medium part changes. -/
theorem SamePart.medium (hs : h'.small = h.small) (hl : h'.large = h.large) :
    ∀ tier, tier ≠ .medium → h.SamePart h' tier
  | .small, _ => hs
  | .medium, ht => absurd rfl ht
  | .large, _ => hl

/-- Only the large part changes. -/
theorem SamePart.large (hs : h'.small = h.small) (hm : h'.medium = h.medium) :
    ∀ tier, tier ≠ .large → h.SamePart h' tier
  | .small, _ => hs
  | .medium, _ => hm
  | .large, ht => absurd rfl ht

theorem SamePart.backingOf_eq (he : h.SamePart h' tier) : h'.backingOf tier = h.backingOf tier := by
  cases tier with
  | small => exact congrArg SlabCarver.backing he
  | medium => exact congrArg Buddy.backing he
  | large => exact congrArg Arena.backing he

namespace Sound

theorem owned (hs : h.Sound t out) : Owned t h.backing out where
  live id hid := by
    obtain ⟨tier, hid⟩ := mem_backing.mp hid
    exact (hs.part tier).owned.live id hid
  mem c hc := (hs.part _).owned.mem c (mem_ofTier.mpr ⟨hc, rfl⟩)
  backed c hc := mem_backing.mpr ⟨_, (hs.part _).owned.backed c (mem_ofTier.mpr ⟨hc, rfl⟩)⟩
  fits c hc := (hs.part _).owned.fits c (mem_ofTier.mpr ⟨hc, rfl⟩)
  enough c hc := (hs.part _).owned.enough c (mem_ofTier.mpr ⟨hc, rfl⟩)
  apart := by
    refine pairwise_of_filter (fun c => Tier.ofSize c.requestedSize)
      (fun tier => (hs.part tier).owned.apart) fun c hc d hd hne he => ?_
    -- ranges of different tiers are in different blocks
    have hcb := (hs.part _).owned.backed c (mem_ofTier.mpr ⟨hc, rfl⟩)
    have hdb := (hs.part _).owned.backed d (mem_ofTier.mpr ⟨hd, rfl⟩)
    rw [he] at hcb
    exact absurd hdb (hs.disjoint _ _ hne _ hcb)

theorem keeps (hs : h.Sound t out) (hk : t.Keeps t' h.backing) : h.Sound t' out where
  part tier := (hs.part tier).keeps (hk.mono fun _ hid => mem_backing.mpr ⟨tier, hid⟩)
  disjoint := hs.disjoint

theorem sublist (hs : h.Sound t out) (hsub : out'.Sublist out) : h.Sound t out' where
  part tier := (hs.part tier).sublist (hsub.filter _)
  disjoint := hs.disjoint

/-- The blocks behind a part are live, so their ids were given out. -/
theorem lt_nextId (hs : h.Sound t out) (hn : t.Numbered) {id : Nat}
    (hid : id ∈ h.backingOf tier) : id < t.nextId := by
  obtain ⟨b, hb, rfl⟩ := (hs.part tier).owned.live id hid
  exact hn.issued b hb

/-- One part does something, and the others stay as they are. -/
theorem change (tier : Tier) (hs : h.Sound t out) (hn : t.Numbered)
    (hturn : Tracker.Turnover t t' (h.backingOf tier) (h'.backingOf tier))
    (hpart : h'.SoundAt t' out' tier) (hsame : ∀ other, other ≠ tier → h.SamePart h' other)
    (hsub : ∀ other, other ≠ tier → (ofTier other out').Sublist (ofTier other out)) :
    h'.Sound t' out' ∧ Tracker.Turnover t t' h.backing h'.backing := by
  refine ⟨⟨fun other => ?_, fun i j hij id hi hj => ?_⟩, hturn.issued, fun b hb hid => ?_,
    fun id hid => ?_⟩
  · by_cases ho : other = tier
    · rwa [ho]
    · refine (((hs.part other).keeps fun b hb hid => ?_).sublist (hsub other ho)).same (hsame other ho)
      exact hturn.kept_other hb (hs.disjoint _ _ ho _ hid)
  · -- a block that is behind a part now was behind it before, or is new
    have hold {k : Tier} (hk : id ∈ h'.backingOf k) :
        id ∈ h.backingOf k ∨ k = tier ∧ t.nextId ≤ id := by
      by_cases hkt : k = tier
      · rw [hkt] at hk ⊢
        exact (hturn.fresh id hk).imp_right fun hle => ⟨rfl, hle⟩
      · rw [(hsame k hkt).backingOf_eq] at hk
        exact .inl hk
    rcases hold hi with hi | ⟨rfl, hle⟩ <;> rcases hold hj with hj | ⟨rfl, hle'⟩
    · exact hs.disjoint i j hij id hi hj
    · exact Nat.not_le_of_lt (hs.lt_nextId hn hi) hle'
    · exact Nat.not_le_of_lt (hs.lt_nextId hn hj) hle
    · exact hij rfl
  · refine hturn.kept b hb ?_
    rcases hid with hid | hid
    · exact .inl fun hm => hid (mem_backing.mpr ⟨tier, hm⟩)
    · obtain ⟨other, hid⟩ := mem_backing.mp hid
      by_cases ho : other = tier
      · exact .inr (ho ▸ hid)
      · rw [(hsame other ho).backingOf_eq] at hid
        exact .inl (hs.disjoint _ _ ho _ hid)
  · obtain ⟨other, hid⟩ := mem_backing.mp hid
    by_cases ho : other = tier
    · rw [ho] at hid
      exact (hturn.fresh id hid).imp_left fun hm => mem_backing.mpr ⟨tier, hm⟩
    · rw [(hsame other ho).backingOf_eq] at hid
      exact .inl (mem_backing.mpr ⟨other, hid⟩)

end Sound

/-! ## Operations -/

/-- A request of a tier leaves the ranges of other tiers alone. -/
theorem ofTier_taken {answer : Except MemoryError CarveOut}
    (ha : ∀ c, answer = .ok c → Tier.ofSize c.requestedSize = tier) :
    ofTier tier (CarveOut.taken answer out) = CarveOut.taken answer (ofTier tier out) :=
  CarveOut.filter_taken (fun c hc => decide_eq_true (ha c hc)) out

theorem ofTier_taken_other {answer : Except MemoryError CarveOut}
    (ha : ∀ c, answer = .ok c → Tier.ofSize c.requestedSize = tier) (hne : other ≠ tier) :
    ofTier other (CarveOut.taken answer out) = ofTier other out :=
  CarveOut.filter_taken_not
    (fun c hc hd => hne ((of_decide_eq_true hd).symm.trans (ha c hc))) out

theorem release_small {handle : CarveOut} (ht : Tier.ofSize handle.requestedSize = .small) :
    h.release handle =
      ((h.small.release handle).1, { h with small := (h.small.release handle).2 }) := by
  simp only [Hybrid.release, ht]

theorem release_medium {handle : CarveOut} (ht : Tier.ofSize handle.requestedSize = .medium) :
    h.release handle =
      ((h.medium.release handle).1, { h with medium := (h.medium.release handle).2 }) := by
  simp only [Hybrid.release, ht]

theorem release_large {handle : CarveOut} (ht : Tier.ofSize handle.requestedSize = .large) :
    (h.release handle).2 = h := by
  simp only [Hybrid.release, ht]
  fun_cases Arena.release h.large handle <;> rfl

theorem Sound.release (hs : h.Sound t out) (hn : t.Numbered) (handle : CarveOut) :
    (h.release handle).2.Sound t
        (if Tier.ofSize handle.requestedSize = .large then out
          else CarveOut.returned (h.release handle).1 handle out) ∧
      Tracker.Turnover t t h.backing (h.release handle).2.backing := by
  have hsub (answer : Except MemoryError Unit) := CarveOut.returned_sublist answer handle out
  cases htier : Tier.ofSize handle.requestedSize with
  | small =>
    obtain ⟨hpart, hback⟩ := SlabCarver.Sound.release (hs.part .small) handle
    rw [if_neg (by decide), release_small htier]
    refine hs.change .small hn ?_ ?_ (.small rfl rfl) fun other _ => (hsub _).filter _
    · simp only [backingOf, hback]
      exact .refl _ _
    · rw [SoundAt, ofTier, CarveOut.filter_returned]
      exact hpart
  | medium =>
    have hpart := Buddy.Sound.release (hs.part .medium) handle
    rw [if_neg (by decide), release_medium htier]
    refine hs.change .medium hn ?_ ?_ (.medium rfl rfl) fun other _ => (hsub _).filter _
    · simp only [backingOf, Buddy.backing_release]
      exact .refl _ _
    · rw [SoundAt, ofTier, CarveOut.filter_returned]
      exact hpart
  | large =>
    rw [if_pos rfl, release_large htier]
    exact ⟨hs, .refl _ _⟩

variable [Heap H]

theorem allocate_small {size : Nat} (hsize : size ≠ 0) (ht : Tier.ofSize size = .small) :
    h.allocate t size = ((h.small.allocate t size).1, { h with small := (h.small.allocate t size).2.1 },
      (h.small.allocate t size).2.2) := by
  simp only [Hybrid.allocate, if_neg hsize, ht]

theorem allocate_medium {size : Nat} (hsize : size ≠ 0) (ht : Tier.ofSize size = .medium) :
    h.allocate t size =
      ((h.medium.allocate size).1, { h with medium := (h.medium.allocate size).2 }, t) := by
  simp only [Hybrid.allocate, if_neg hsize, ht]

theorem allocate_large {size : Nat} (hsize : size ≠ 0) (ht : Tier.ofSize size = .large) :
    h.allocate t size = ((h.large.allocate t size).1, { h with large := (h.large.allocate t size).2.1 },
      (h.large.allocate t size).2.2) := by
  simp only [Hybrid.allocate, if_neg hsize, ht]

theorem Sound.allocate (hs : h.Sound t out) (hn : t.Numbered) (size : Nat) :
    (h.allocate t size).2.1.Sound (h.allocate t size).2.2
        (CarveOut.taken (h.allocate t size).1 out) ∧
      Tracker.Turnover t (h.allocate t size).2.2 h.backing (h.allocate t size).2.1.backing := by
  by_cases hsize : size = 0
  · rw [Hybrid.allocate, if_pos hsize]
    exact ⟨hs, .refl _ _⟩
  cases htier : Tier.ofSize size with
  | small =>
    have hreq : ∀ c, (h.small.allocate t size).1 = .ok c → Tier.ofSize c.requestedSize = .small :=
      fun c hc => by rw [SlabCarver.requestedSize_of_carve hc, htier]
    obtain ⟨hpart, hturn⟩ := SlabCarver.Sound.allocate (hs.part .small) hn size
    rw [allocate_small hsize htier]
    refine hs.change .small hn hturn ?_ (.small rfl rfl) fun other ho => ?_
    · rwa [SoundAt, ofTier_taken hreq]
    · rw [ofTier_taken_other hreq ho]
  | medium =>
    have hreq : ∀ c, (h.medium.allocate size).1 = .ok c → Tier.ofSize c.requestedSize = .medium :=
      fun c hc => by rw [Buddy.requestedSize_of_carve hc, htier]
    have hpart := Buddy.Sound.allocate (hs.part .medium) size
    rw [allocate_medium hsize htier]
    refine hs.change .medium hn ?_ ?_ (.medium rfl rfl) fun other ho => ?_
    · simp only [backingOf, Buddy.backing_allocate]
      exact .refl _ _
    · rwa [SoundAt, ofTier_taken hreq]
    · rw [ofTier_taken_other hreq ho]
  | large =>
    have hreq : ∀ c, (h.large.allocate t size).1 = .ok c → Tier.ofSize c.requestedSize = .large :=
      fun c hc => by rw [Arena.requestedSize_of_carve hc, htier]
    obtain ⟨hpart, hturn⟩ := Arena.Sound.allocate (hs.part .large) hn size
    rw [allocate_large hsize htier]
    refine hs.change .large hn hturn ?_ (.large rfl rfl) fun other ho => ?_
    · rwa [SoundAt, ofTier_taken hreq]
    · rw [ofTier_taken_other hreq ho]

/-- All parts give up what clients have of them. -/
theorem Sound.reset (hs : h.Sound t out) (hn : t.Numbered) :
    (h.reset t).2.1.Sound (h.reset t).2.2 [] ∧
      Tracker.Turnover t (h.reset t).2.2 h.backing (h.reset t).2.1.backing := by
  -- the small part first, then the others, with the tracker that it leaves
  obtain ⟨hsmall, hturn₁⟩ := SlabCarver.Sound.reset h.small t
  let h₁ : Hybrid := { h with small := (h.small.reset t).1 }
  let h₂ : Hybrid := { h₁ with medium := h.medium.reset }
  let h₃ : Hybrid := (h.reset t).2.1
  obtain ⟨hs₁, hturn₁⟩ : h₁.Sound (h.small.reset t).2 [] ∧ _ :=
    hs.change .small hn hturn₁ hsmall
      (.small rfl rfl) fun _ _ => List.nil_sublist _
  have hn₁ : (h.small.reset t).2.Numbered := by
    show (h.small.dispose t).Numbered
    rw [SlabCarver.dispose_eq]
    exact hn.returnAll _
  have hturn₂ : Tracker.Turnover (h.small.reset t).2 (h.small.reset t).2 h.medium.backing
      h.medium.reset.backing := by
    rw [Buddy.backing_reset]
    exact .refl _ _
  obtain ⟨hs₂, hturn₂⟩ : h₂.Sound (h.small.reset t).2 [] ∧ _ :=
    hs₁.change .medium hn₁ hturn₂ (Buddy.Sound.reset (hs₁.part .medium))
      (.medium rfl rfl) fun _ _ => List.nil_sublist _
  obtain ⟨hlarge, hturn₃⟩ := Arena.Sound.reset (hs₂.part .large)
  obtain ⟨hs₃, hturn₃⟩ : h₃.Sound (h.reset t).2.2 [] ∧ _ :=
    hs₂.change .large hn₁ hturn₃ hlarge
      (.large rfl rfl) fun _ _ => List.nil_sublist _
  exact ⟨hs₃, (hturn₁.trans hturn₂ hn).trans hturn₃ hn⟩

/-- A reset is never refused. -/
theorem Sound.reset_ok (hs : h.Sound t out) : (h.reset t).1 = .ok () := by
  -- the blocks of the large part are live after the small part was reset
  have hlarge : h.large.Sound (h.small.reset t).2 (ofTier .large out) := by
    refine Arena.Sound.keeps (hs.part .large) fun b hb hid => ?_
    exact (h.small.turnover_dispose t).kept_other hb (hs.disjoint .large .small (by decide) _ hid)
  exact Arena.Sound.reset_ok hlarge

theorem dispose_eq (h : Hybrid) (t : Tracker H) :
    h.dispose t =
      t.returnAll (h.small.slabs.map Slab.base ++ h.medium.base :: h.large.blocks.reverse) := by
  rw [Hybrid.dispose, Arena.dispose, Arena.freeBlocks_eq, SlabCarver.dispose_eq,
    Tracker.returnAll_append]
  rfl

/-- All blocks go back to the tracker. -/
theorem turnover_dispose (h : Hybrid) (t : Tracker H) :
    Tracker.Turnover t (h.dispose t) h.backing [] := by
  rw [dispose_eq]
  refine t.turnover_returnAll (fun b hb => ?_) (by simp) (by simp)
  rcases List.mem_append.mp hb with hb | hb
  · obtain ⟨slab, hslab, rfl⟩ := List.mem_map.mp hb
    exact mem_backing.mpr ⟨.small, List.mem_map.mpr ⟨slab, hslab, rfl⟩⟩
  · rcases List.mem_cons.mp hb with rfl | hb
    · exact mem_backing.mpr ⟨.medium, List.mem_singleton_self _⟩
    · exact mem_backing.mpr ⟨.large, List.mem_map_of_mem (List.mem_reverse.mp hb)⟩

/-- A new hybrid, behind which are new blocks. -/
theorem sound_of_make {total : Nat} {alignment : Alignment} (hn : t.Numbered)
    (hm : make t total alignment = (.ok h, t')) :
    h.Sound t' [] ∧ Tracker.Turnover t t' [] h.backing := by
  revert hm
  fun_cases Hybrid.make t total alignment
  case case5 small hsmall medium t₁ hmedium large t₂ hlarge =>
    intro hm
    cases hm
    have hn₁ := hn.allocate (Buddy.make_ok hmedium).2
    have hnil := SlabCarver.slabs_of_make hsmall
    have hback : small.backing = [] := by rw [SlabCarver.backing, hnil, List.map_nil]
    obtain ⟨hsm, hturn₁⟩ := Buddy.sound_of_make hmedium
    obtain ⟨hsl, hturn₂⟩ := Arena.sound_of_make hlarge
    have hold : ∀ id ∈ medium.backing, id < t₁.nextId := fun id hid => by
      obtain ⟨b, hb, rfl⟩ := hsm.owned.live id hid
      exact hn₁.issued b hb
    have hnew : ∀ id ∈ large.backing, t₁.nextId ≤ id := fun id hid =>
      (hturn₂.fresh id hid).resolve_left List.not_mem_nil
    refine ⟨⟨fun tier => ?_, fun i j hij id hi hj => ?_⟩, ?_⟩
    · cases tier with
      | small => exact SlabCarver.sound_nil _ hnil
      | medium => exact hsm.keeps fun b hb _ => hturn₂.kept_other hb List.not_mem_nil
      | large => exact hsl
    · cases i <;> cases j <;> simp only [backingOf, hback, List.not_mem_nil] at hi hj
      · exact hij rfl
      · exact Nat.not_le_of_lt (hold id hi) (hnew id hj)
      · exact Nat.not_le_of_lt (hold id hj) (hnew id hi)
      · exact hij rfl
    · refine (hturn₁.trans (hturn₂.frame medium.backing (by simp)) hn).congr
        (fun _ => Iff.rfl) fun id => ?_
      rw [backing, hback, List.nil_append, List.mem_append, List.mem_append, or_comm]
  all_goals exact fun hm => by cases hm

/-- A hybrid that was refused leaves all blocks as they were. -/
theorem turnover_make_error {total : Nat} {alignment : Alignment} {e : MemoryError} (hn : t.Numbered)
    (hm : make t total alignment = (.error e, t')) : Tracker.Turnover t t' [] [] := by
  revert hm
  fun_cases Hybrid.make t total alignment
  case case3 hmedium =>
    intro hm
    obtain ⟨-, rfl⟩ := Prod.mk.inj hm
    exact Buddy.turnover_make_error hmedium
  case case4 medium t₁ hmedium e' t₂ hlarge =>
    intro hm
    obtain ⟨-, rfl⟩ := Prod.mk.inj hm
    -- the block of the medium part goes back
    have hturn₁ := (Buddy.sound_of_make hmedium).2
    have hturn₂ := (Arena.turnover_make_error hlarge).frame medium.backing (by simp)
    exact (hturn₁.trans hturn₂ hn).trans (t₂.turnover_free medium.base) hn
  case case5 => exact fun hm => by cases hm
  all_goals exact fun hm => (Prod.mk.inj hm).2 ▸ .refl _ _

end Hybrid

end TrackedHeap
