import Mathlib.Data.List.Forall2
import TrackedHeap.Proofs.Ownership.Slab
import TrackedHeap.Proofs.Twin.Basic

/-!
# Twins that grow

Slab carvers and arenas take blocks as they go. Whether a request makes them ask their trackers for one, and for
which, depends on what twins have in common (`SlabCarver.asks`, `Arena.asks`); if both trackers grant it or both
refuse it (`Tracker.Agree`), twins stay twins and answer alike (`SlabCarver.Twin.allocate`,
`Arena.Twin.allocate`). Nothing else of a tracker counts.
-/

namespace TrackedHeap

variable {H₁ H₂ : Type} [Heap H₁] [Heap H₂] {t₁ t₁' : Tracker H₁} {t₂ t₂' : Tracker H₂} {pairs more : Pairing}

open CarveOut (Answers Replies)

/-- Both trackers grant the request, or both refuse it. -/
def Tracker.Agree (t₁ : Tracker H₁) (t₂ : Tracker H₂) (request : Nat × Alignment) : Prop :=
  (t₁.allocate request.1 request.2).1.isOk = (t₂.allocate request.1 request.2).1.isOk

instance (t₁ : Tracker H₁) (t₂ : Tracker H₂) (request : Nat × Alignment) : Decidable (t₁.Agree t₂ request) :=
  inferInstanceAs (Decidable (_ = _))

theorem Tracker.Agree.cases {size : Nat} {alignment : Alignment} (h : t₁.Agree t₂ (size, alignment)) :
    (∃ b₁ b₂ t₁' t₂', t₁.allocate size alignment = (.ok b₁, t₁') ∧
        t₂.allocate size alignment = (.ok b₂, t₂')) ∨
      ∃ e₁ e₂ t₁' t₂', t₁.allocate size alignment = (.error e₁, t₁') ∧
        t₂.allocate size alignment = (.error e₂, t₂') := by
  revert h
  unfold Agree
  rcases t₁.allocate size alignment with ⟨e₁ | b₁, t₁'⟩ <;>
    rcases t₂.allocate size alignment with ⟨e₂ | b₂, t₂'⟩
  · exact fun _ => .inr ⟨e₁, e₂, t₁', t₂', rfl, rfl⟩
  · exact fun h => by cases h
  · exact fun h => by cases h
  · exact fun _ => .inl ⟨b₁, b₂, t₁', t₂', rfl, rfl⟩

/-- Twins after a request, matched by more pairs than before if they took blocks for it. -/
structure Stepped {σ : Type} (Twin : Pairing → σ → σ → Prop) (pairs : Pairing) (t₁ : Tracker H₁)
    (t₂ : Tracker H₂) (o₁ : Outcome CarveOut (σ × Tracker H₁)) (o₂ : Outcome CarveOut (σ × Tracker H₂))
    (more : Pairing) : Prop where
  subset : pairs ⊆ more
  between : more.Between o₁.2.2 o₂.2.2
  twin : Twin more o₁.2.1 o₂.2.1
  answers : Answers more t₁ t₂ o₁.1 o₂.1

/-- A request that leaves the trackers alone. -/
theorem Stepped.aside {σ : Type} {Twin : Pairing → σ → σ → Prop} (hp : pairs.Between t₁ t₂)
    {r₁ r₂ : Except MemoryError CarveOut} {s₁ s₂ : σ} (ht : Twin pairs s₁ s₂)
    (ha : Answers pairs t₁ t₂ r₁ r₂) : Stepped Twin pairs t₁ t₂ (r₁, s₁, t₁) (r₂, s₂, t₂) pairs where
  subset := List.Subset.refl _
  between := hp
  twin := ht
  answers := ha

/-- A request that both trackers refuse. -/
theorem Stepped.passedOn {σ : Type} {Twin : Pairing → σ → σ → Prop} (hp : pairs.Between t₁ t₂) {s₁ s₂ : σ}
    (ht : Twin pairs s₁ s₂) {size : Nat} {alignment : Alignment} {e₁ e₂ : MemoryError}
    (h₁ : t₁.allocate size alignment = (.error e₁, t₁')) (h₂ : t₂.allocate size alignment = (.error e₂, t₂')) :
    Stepped Twin pairs t₁ t₂ (.error e₁, s₁, t₁') (.error e₂, s₂, t₂') pairs where
  subset := List.Subset.refl _
  between := hp.mono (Nat.le_of_eq (Tracker.allocate_error h₁).2.symm)
    (Nat.le_of_eq (Tracker.allocate_error h₂).2.symm)
  twin := ht
  answers := .passedOn (congrArg Prod.fst h₁) (congrArg Prod.fst h₂)

/-- Of related lists the first elements that related tests find are related, if they find any. -/
theorem find?_of_forall₂ {α β : Type} {R : α → β → Prop} {p : α → Bool} {q : β → Bool} {l : List α} {l' : List β}
    (h : List.Forall₂ R l l') (hpq : ∀ x y, R x y → p x = q y) :
    (l.find? p = none ∧ l'.find? q = none) ∨ ∃ x y, R x y ∧ l.find? p = some x ∧ l'.find? q = some y := by
  induction h with
  | nil => exact .inl ⟨rfl, rfl⟩
  | @cons x y l l' hxy _ ih =>
    simp only [List.find?_cons, ← hpq x y hxy]
    cases hx : p x with
    | true => exact .inr ⟨x, y, hxy, rfl, rfl⟩
    | false => exact ih

/-! ## Slabs -/

/-- The other slab lies in another block. -/
inductive Slab.Twin (pairs : Pairing) (x : Slab) : Slab → Prop where
  | intro (base : Block) (paired : (x.base.id, base.id) ∈ pairs) : Twin pairs x { x with base }

theorem Slab.Twin.mono {x y : Slab} (h : x.Twin pairs y) (hs : pairs ⊆ more) : x.Twin more y := by
  cases h with
  | intro base paired => exact .intro base (hs paired)

namespace SlabCarver

/-- The block that the carver asks for to serve a request, if it has to ask for one. -/
def asks (s : SlabCarver) (size : Nat) : Option (Nat × Alignment) :=
  if size = 0 ∨ (s.slabFor? size).isSome ∨ s.cellsFor size = 0 ∨ s.total < s.reserved + s.slabSize then none
  else some (s.slabSize, s.alignment)

/-- The other carver has other blocks and another tally. -/
inductive Twin (pairs : Pairing) (s : SlabCarver) : SlabCarver → Prop where
  | intro (slabs : List Slab) (tally : Tally) (all : List.Forall₂ (Slab.Twin pairs) s.slabs slabs) :
    Twin pairs s { s with slabs, tally }

variable {s s' : SlabCarver} {x y : Slab}

theorem Twin.mono (h : s.Twin pairs s') (hs : pairs ⊆ more) : s.Twin more s' := by
  cases h with
  | intro slabs tally all => exact .intro slabs tally (all.imp fun _ _ hx => hx.mono hs)

theorem Twin.with_tally (h : s.Twin pairs s') (tally tally' : Tally) :
    { s with tally }.Twin pairs { s' with tally := tally' } := by
  cases h with
  | intro slabs _ all => exact .intro slabs tally' all

/-- Both have a slab for a size, or neither has. -/
theorem Twin.slabFor? (h : s.Twin pairs s') (size : Nat) :
    (s.slabFor? size = none ∧ s'.slabFor? size = none) ∨
      ∃ x y, x.Twin pairs y ∧ s.slabFor? size = some x ∧ s'.slabFor? size = some y := by
  cases h with
  | intro slabs tally all => exact find?_of_forall₂ all fun x y hxy => by cases hxy; rfl

/-- Like changes of like slabs. -/
theorem forall₂_update {slabs : List Slab} (all : List.Forall₂ (Slab.Twin pairs) s.slabs slabs) (size : Nat)
    {f g : Slab → Slab} (hf : ∀ x y, x.Twin pairs y → (f x).Twin pairs (g y)) (tally : Tally) :
    List.Forall₂ (Slab.Twin pairs) (s.update size f) ({ s with slabs, tally }.update size g) := by
  refine List.forall₂_map_left_iff.mpr (List.forall₂_map_right_iff.mpr (all.imp fun x y hxy => ?_))
  have hfxy := hf x y hxy
  cases hxy with
  | intro base paired =>
    split
    · exact hfxy
    · exact .intro base paired

theorem Twin.carveFrom (h : s.Twin pairs s') (hx : x.Twin pairs y) (t₁ : Tracker H₁) (t₂ : Tracker H₂) :
    Answers pairs t₁ t₂ (s.carveFrom x).1 (s'.carveFrom y).1 ∧
      (s.carveFrom x).2.Twin pairs (s'.carveFrom y).2 := by
  cases h with
  | intro slabs tally all =>
    cases hx with
    | intro base paired =>
      unfold SlabCarver.carveFrom
      simp only
      split
      · exact ⟨.refused _, .intro _ _ all⟩
      · refine ⟨.granted ⟨paired, rfl, rfl, rfl⟩, .intro _ _ (forall₂_update all _ ?_ tally)⟩
        intro x y hxy
        cases hxy with
        | intro base paired => exact .intro base paired

/-- Twins ask for the same. -/
theorem Twin.asks_eq (h : s.Twin pairs s') (size : Nat) : s'.asks size = s.asks size := by
  unfold SlabCarver.asks
  rcases h.slabFor? size with ⟨hs, hs'⟩ | ⟨x, y, -, hs, hs'⟩ <;> rw [hs, hs'] <;> cases h <;> rfl

/-- A slab of free cells in a block. -/
def freshSlab (s : SlabCarver) (base : Block) (size : Nat) : Slab where
  base := base
  objectSize := size
  cells := s.cellsFor size
  occupancy := .empty (s.cellsFor size)

/-- The carver with one more slab. -/
def withSlab (s : SlabCarver) (slab : Slab) : SlabCarver :=
  { s with slabs := s.slabs ++ [slab], reserved := s.reserved + s.slabSize }

/-- A request that asks for nothing leaves the tracker alone. -/
theorem carve_of_asks_eq_none {s : SlabCarver} {size : Nat} (hsize : size ≠ 0) (hs : s.slabFor? size = none)
    (ha : s.asks size = none) (t : Tracker H₁) :
    s.carve t size =
      (.error (.outOfMemory size (if s.cellsFor size = 0 then s.slabSize else s.total - s.reserved)), s, t) := by
  simp only [carve, if_neg hsize, hs, newSlab]
  by_cases hcells : s.cellsFor size = 0
  · simp only [if_pos hcells]
  · have hfull : s.total < s.reserved + s.slabSize := by
      simpa [asks, hsize, hs, hcells] using ha
    simp only [if_neg hcells, if_pos hfull]

theorem asks_eq_some {s : SlabCarver} {size : Nat} {request : Nat × Alignment}
    (ha : s.asks size = some request) :
    size ≠ 0 ∧ s.slabFor? size = none ∧ s.cellsFor size ≠ 0 ∧ ¬ s.total < s.reserved + s.slabSize ∧
      request = (s.slabSize, s.alignment) := by
  unfold asks at ha
  split at ha
  · cases ha
  · next h =>
    simp only [not_or, Option.not_isSome_iff_eq_none] at h
    exact ⟨h.1, h.2.1, h.2.2.1, h.2.2.2, (Option.some.inj ha).symm⟩

/-- A request that asks for a block is refused as that is, or gets a cell of a slab in it. -/
theorem carve_of_asks_eq_some {s : SlabCarver} {size : Nat} {request : Nat × Alignment}
    (ha : s.asks size = some request) (t : Tracker H₁) :
    (∀ e t', t.allocate s.slabSize s.alignment = (.error e, t') → s.carve t size = (.error e, s, t')) ∧
      ∀ base t', t.allocate s.slabSize s.alignment = (.ok base, t') →
        s.carve t size =
          (((s.withSlab (s.freshSlab base size)).carveFrom (s.freshSlab base size)).1,
            ((s.withSlab (s.freshSlab base size)).carveFrom (s.freshSlab base size)).2, t') := by
  obtain ⟨hsize, hs, hcells, hroom, -⟩ := asks_eq_some ha
  refine ⟨fun e t' h => ?_, fun base t' h => ?_⟩ <;>
    simp only [carve, if_neg hsize, hs, newSlab, if_neg hcells, if_neg hroom, h]
  rfl

/-- A request takes the block that it asks for, and nothing else. -/
theorem allocate_tracker (s : SlabCarver) (t : Tracker H₁) (size : Nat) :
    (s.allocate t size).2.2 = (s.asks size).elim t fun request => (t.allocate request.1 request.2).2 := by
  show (s.carve t size).2.2 = _
  cases ha : s.asks size with
  | none =>
    by_cases hsize : size = 0
    · simp only [carve, if_pos hsize, Option.elim_none]
    · cases hs : s.slabFor? size with
      | some slab => simp only [carve, if_neg hsize, hs, Option.elim_none]
      | none => rw [carve_of_asks_eq_none hsize hs ha, Option.elim_none]
  | some request =>
    obtain ⟨-, -, -, -, rfl⟩ := asks_eq_some ha
    rw [Option.elim_some]
    rcases h : t.allocate s.slabSize s.alignment with ⟨e | base, t'⟩
    · rw [(carve_of_asks_eq_some ha t).1 e t' h]
    · rw [(carve_of_asks_eq_some ha t).2 base t' h]

theorem Twin.withSlab (h : s.Twin pairs s') (hx : x.Twin pairs y) :
    (s.withSlab x).Twin pairs (s'.withSlab y) := by
  cases h with
  | intro slabs tally all => exact .intro _ _ (List.rel_append all (.cons hx .nil))

theorem Twin.carve (h : s.Twin pairs s') (hp : pairs.Between t₁ t₂) {size : Nat}
    (hagree : ∀ request ∈ s.asks size, t₁.Agree t₂ request) :
    ∃ more, Stepped Twin pairs t₁ t₂ (s.carve t₁ size) (s'.carve t₂ size) more := by
  by_cases hsize : size = 0
  · simp only [SlabCarver.carve, if_pos hsize]
    exact ⟨pairs, .aside hp h (.refused _)⟩
  rcases h.slabFor? size with ⟨hs, hs'⟩ | ⟨x, y, hx, hs, hs'⟩
  swap
  · obtain ⟨hans, htwin⟩ := h.carveFrom hx t₁ t₂
    simp only [SlabCarver.carve, if_neg hsize, hs, hs']
    exact ⟨pairs, .aside hp htwin hans⟩
  have hasks' := h.asks_eq size
  cases ha : s.asks size with
  | none =>
    rw [carve_of_asks_eq_none hsize hs ha, carve_of_asks_eq_none hsize hs' (hasks'.trans ha)]
    have hsame : (if s'.cellsFor size = 0 then s'.slabSize else s'.total - s'.reserved) =
        if s.cellsFor size = 0 then s.slabSize else s.total - s.reserved := by cases h; rfl
    rw [hsame]
    exact ⟨pairs, .aside hp h (.refused _)⟩
  | some request =>
    have hfirst := carve_of_asks_eq_some ha t₁
    have hsecond := carve_of_asks_eq_some (hasks'.trans ha) t₂
    obtain ⟨-, -, -, -, rfl⟩ := asks_eq_some ha
    obtain ⟨-, -, -, -, hrequest⟩ := asks_eq_some (hasks'.trans ha)
    obtain ⟨hbytes, halign⟩ := Prod.mk.inj hrequest
    rw [← hbytes, ← halign] at hsecond
    rcases (hagree _ ha).cases with ⟨b₁, b₂, t₁', t₂', h₁, h₂⟩ | ⟨e₁, e₂, t₁', t₂', h₁, h₂⟩
    · have hp' := hp.allocate h₁ h₂
      have hmore := List.subset_cons_self (b₁.id, b₂.id) pairs
      have hslab : (s.freshSlab b₁ size).Twin ((b₁.id, b₂.id) :: pairs) (s'.freshSlab b₂ size) := by
        cases h
        exact .intro b₂ List.mem_cons_self
      obtain ⟨hans, htwin⟩ := ((h.mono hmore).withSlab hslab).carveFrom hslab t₁ t₂
      rw [hfirst.2 b₁ t₁' h₁, hsecond.2 b₂ t₂' h₂]
      exact ⟨_, hmore, hp', htwin, hans⟩
    · rw [hfirst.1 e₁ t₁' h₁, hsecond.1 e₂ t₂' h₂]
      exact ⟨pairs, .passedOn hp h h₁ h₂⟩

theorem Twin.allocate (h : s.Twin pairs s') (hp : pairs.Between t₁ t₂) {size : Nat}
    (hagree : ∀ request ∈ s.asks size, t₁.Agree t₂ request) :
    ∃ more, Stepped Twin pairs t₁ t₂ (s.allocate t₁ size) (s'.allocate t₂ size) more := by
  obtain ⟨more, hs⟩ := h.carve hp hagree
  exact ⟨more, hs.subset, hs.between, hs.twin.with_tally _ _, hs.answers⟩

omit [Heap H₁] [Heap H₂] in
theorem Twin.release (h : s.Twin pairs s') (hp : pairs.Between t₁ t₂) {c d : CarveOut}
    (hlike : c.Like pairs d) :
    Replies (s.release c).1 (s'.release d).1 ∧ (s.release c).2.Twin pairs (s'.release d).2 := by
  have hfind := h.slabFor? c.requestedSize
  rw [← hlike.requestedSize] at hfind
  unfold SlabCarver.release
  rw [← hlike.requestedSize]
  rcases hfind with ⟨hs, hs'⟩ | ⟨x, y, hx, hs, hs'⟩
  · rw [hs, hs']
    exact ⟨.refused (.refl _), h⟩
  rw [hs, hs']
  cases h with
  | intro slabs tally all =>
    cases hx with
    | intro base paired =>
      rcases hp.requireOwned hlike paired with ⟨hc, hd⟩ | ⟨e, e', he, hc, hd⟩
      · simp only [hc, hd, hlike.offset]
        split
        · exact ⟨.refused (.refl _), .intro _ _ all⟩
        · split
          · refine ⟨.done, .intro _ _ (forall₂_update all _ ?_ tally)⟩
            intro x y hxy
            cases hxy with
            | intro base paired => exact .intro base paired
          · exact ⟨.refused (.refl _), .intro _ _ all⟩
      · simp only [hc, hd]
        exact ⟨.refused he, .intro _ _ all⟩

theorem Twin.reset (h : s.Twin pairs s') (t₁ : Tracker H₁) (t₂ : Tracker H₂) :
    (s.reset t₁).1.Twin pairs (s'.reset t₂).1 := by
  cases h with
  | intro slabs tally all => exact .intro _ _ .nil

end SlabCarver

/-! ## Arenas -/

namespace Arena

/-- The block that the arena asks for to serve a request, if it has to ask for one. -/
def asks (a : Arena) (size : Nat) : Option (Nat × Alignment) :=
  if size = 0 ∨ a.arenaSize < size ∨ a.alignment.alignUp a.offset + size ≤ a.arenaSize then none
  else some (a.arenaSize, a.alignment)

/-- The other arena has other blocks and another tally. -/
inductive Twin (pairs : Pairing) (a : Arena) : Arena → Prop where
  | intro (first : Block) (later : List Block) (tally : Tally) (paired : (a.first.id, first.id) ∈ pairs)
    (all : List.Forall₂ (fun b c : Block => (b.id, c.id) ∈ pairs) a.later later) :
    Twin pairs a { a with first, later, tally }

variable {a a' : Arena}

theorem Twin.mono (h : a.Twin pairs a') (hs : pairs ⊆ more) : a.Twin more a' := by
  cases h with
  | intro first later tally paired all =>
    exact .intro first later tally (hs paired) (all.imp fun _ _ hb => hs hb)

theorem Twin.with_tally (h : a.Twin pairs a') (tally tally' : Tally) :
    { a with tally }.Twin pairs { a' with tally := tally' } := by
  cases h with
  | intro first later _ paired all => exact .intro first later tally' paired all

/-- The blocks are matched one by one. -/
theorem Twin.blocks (h : a.Twin pairs a') :
    List.Forall₂ (fun b c : Block => (b.id, c.id) ∈ pairs) a.blocks a'.blocks := by
  cases h with
  | intro first later tally paired all => exact List.rel_append all (.cons paired .nil)

theorem Twin.current (h : a.Twin pairs a') : (a.current.id, a'.current.id) ∈ pairs := by
  cases h with
  | intro first later tally paired all =>
    unfold Arena.current
    cases hl : a.later with
    | nil =>
      rw [hl, List.forall₂_nil_left_iff] at all
      rw [all]
      exact paired
    | cons b bs =>
      rw [hl] at all
      obtain ⟨c, cs, hb, -, hlater⟩ := List.forall₂_cons_left_iff.mp all
      rw [hlater]
      exact hb

theorem Twin.grant (h : a.Twin pairs a') (t₁ : Tracker H₁) (t₂ : Tracker H₂) (start size : Nat) :
    Answers pairs t₁ t₂ (a.grant start size).1 (a'.grant start size).1 ∧
      (a.grant start size).2.Twin pairs (a'.grant start size).2 := by
  refine ⟨.granted ⟨h.current, rfl, rfl, rfl⟩, ?_⟩
  cases h with
  | intro first later tally paired all => exact .intro first later tally paired all

/-- Twins ask for the same. -/
theorem Twin.asks_eq (h : a.Twin pairs a') (size : Nat) : a'.asks size = a.asks size := by
  cases h
  rfl

theorem asks_eq_some {a : Arena} {size : Nat} {request : Nat × Alignment} (ha : a.asks size = some request) :
    size ≠ 0 ∧ ¬ a.arenaSize < size ∧ a.arenaSize < a.alignment.alignUp a.offset + size ∧
      request = (a.arenaSize, a.alignment) := by
  unfold asks at ha
  split at ha
  · cases ha
  · next h =>
    simp only [not_or, Nat.not_le] at h
    exact ⟨h.1, h.2.1, h.2.2, (Option.some.inj ha).symm⟩

/-- A request that asks for a block is refused as that is, or gets the first bytes of it. -/
theorem carve_of_asks_eq_some {a : Arena} {size : Nat} {request : Nat × Alignment}
    (ha : a.asks size = some request) (t : Tracker H₁) :
    (∀ e t', t.allocate a.arenaSize a.alignment = (.error e, t') → a.carve t size = (.error e, a, t')) ∧
      ∀ block t', t.allocate a.arenaSize a.alignment = (.ok block, t') →
        a.carve t size =
          (({ a with later := block :: a.later }.grant 0 size).1,
            ({ a with later := block :: a.later }.grant 0 size).2, t') := by
  obtain ⟨hsize, hfits, hfull, -⟩ := asks_eq_some ha
  refine ⟨fun e t' h => ?_, fun block t' h => ?_⟩ <;>
    simp only [carve, if_neg hsize, if_neg hfits, if_pos hfull, h]

/-- A request that asks for nothing leaves the tracker alone. -/
theorem carve_of_asks_eq_none {a : Arena} {size : Nat} (hsize : size ≠ 0) (hfits : ¬ a.arenaSize < size)
    (ha : a.asks size = none) (t : Tracker H₁) :
    a.carve t size =
      ((a.grant (a.alignment.alignUp a.offset) size).1, (a.grant (a.alignment.alignUp a.offset) size).2, t) := by
  have hroom : ¬ a.arenaSize < a.alignment.alignUp a.offset + size := by
    simpa [asks, hsize, hfits] using ha
  simp only [carve, if_neg hsize, if_neg hfits, if_neg hroom]

/-- A request takes the block that it asks for, and nothing else. -/
theorem allocate_tracker (a : Arena) (t : Tracker H₁) (size : Nat) :
    (a.allocate t size).2.2 = (a.asks size).elim t fun request => (t.allocate request.1 request.2).2 := by
  show (a.carve t size).2.2 = _
  cases ha : a.asks size with
  | none =>
    by_cases hsize : size = 0
    · simp only [carve, if_pos hsize, Option.elim_none]
    · by_cases hfits : a.arenaSize < size
      · simp only [carve, if_neg hsize, if_pos hfits, Option.elim_none]
      · rw [carve_of_asks_eq_none hsize hfits ha, Option.elim_none]
  | some request =>
    obtain ⟨-, -, -, rfl⟩ := asks_eq_some ha
    rw [Option.elim_some]
    rcases h : t.allocate a.arenaSize a.alignment with ⟨e | block, t'⟩
    · rw [(carve_of_asks_eq_some ha t).1 e t' h]
    · rw [(carve_of_asks_eq_some ha t).2 block t' h]

theorem Twin.carve (h : a.Twin pairs a') (hp : pairs.Between t₁ t₂) {size : Nat}
    (hagree : ∀ request ∈ a.asks size, t₁.Agree t₂ request) :
    ∃ more, Stepped Twin pairs t₁ t₂ (a.carve t₁ size) (a'.carve t₂ size) more := by
  have hsize' : a'.arenaSize = a.arenaSize := by cases h; rfl
  have halign' : a'.alignment = a.alignment := by cases h; rfl
  have hoffset' : a'.offset = a.offset := by cases h; rfl
  by_cases hsize : size = 0
  · simp only [Arena.carve, if_pos hsize]
    exact ⟨pairs, .aside hp h (.refused _)⟩
  by_cases hfits : a.arenaSize < size
  · simp only [Arena.carve, if_neg hsize, hsize', if_pos hfits]
    exact ⟨pairs, .aside hp h (.refused _)⟩
  have hasks' := h.asks_eq size
  cases ha : a.asks size with
  | none =>
    obtain ⟨hans, htwin⟩ := h.grant t₁ t₂ (a.alignment.alignUp a.offset) size
    rw [carve_of_asks_eq_none hsize hfits ha, carve_of_asks_eq_none hsize (hsize' ▸ hfits) (hasks'.trans ha),
      halign', hoffset']
    exact ⟨pairs, .aside hp htwin hans⟩
  | some request =>
    have hfirst := carve_of_asks_eq_some ha t₁
    have hsecond := carve_of_asks_eq_some (hasks'.trans ha) t₂
    obtain ⟨-, -, -, rfl⟩ := asks_eq_some ha
    have hcall : t₂.allocate a'.arenaSize a'.alignment = t₂.allocate a.arenaSize a.alignment := by
      rw [hsize', halign']
    rcases (hagree _ ha).cases with ⟨b₁, b₂, t₁', t₂', h₁, h₂⟩ | ⟨e₁, e₂, t₁', t₂', h₁, h₂⟩
    · have hp' := hp.allocate h₁ h₂
      have hmore := List.subset_cons_self (b₁.id, b₂.id) pairs
      have hopened : { a with later := b₁ :: a.later }.Twin ((b₁.id, b₂.id) :: pairs)
          { a' with later := b₂ :: a'.later } := by
        cases h.mono hmore with
        | intro first later tally paired all => exact .intro _ _ _ paired (.cons List.mem_cons_self all)
      obtain ⟨hans, htwin⟩ := hopened.grant t₁ t₂ 0 size
      rw [hfirst.2 b₁ t₁' h₁, hsecond.2 b₂ t₂' (hcall.trans h₂)]
      exact ⟨_, hmore, hp', htwin, hans⟩
    · rw [hfirst.1 e₁ t₁' h₁, hsecond.1 e₂ t₂' (hcall.trans h₂)]
      exact ⟨pairs, .passedOn hp h h₁ h₂⟩

theorem Twin.allocate (h : a.Twin pairs a') (hp : pairs.Between t₁ t₂) {size : Nat}
    (hagree : ∀ request ∈ a.asks size, t₁.Agree t₂ request) :
    ∃ more, Stepped Twin pairs t₁ t₂ (a.allocate t₁ size) (a'.allocate t₂ size) more := by
  obtain ⟨more, hs⟩ := h.carve hp hagree
  exact ⟨more, hs.subset, hs.between, hs.twin.with_tally _ _, hs.answers⟩

omit [Heap H₁] [Heap H₂] in
theorem Twin.release (h : a.Twin pairs a') (hp : pairs.Between t₁ t₂) {c d : CarveOut}
    (hlike : c.Like pairs d) :
    Replies (a.release c).1 (a'.release d).1 ∧ (a.release c).2.Twin pairs (a'.release d).2 := by
  have hown : (a'.blocks.any fun b => b.id == d.block.id) = a.blocks.any fun b => b.id == c.block.id := by
    have hfind := find?_of_forall₂ h.blocks (p := fun b => b.id == c.block.id)
      (q := fun b => b.id == d.block.id) fun b b' hb => by
        rw [Bool.eq_iff_iff, beq_iff_eq, beq_iff_eq]
        exact hp.oneToOne _ hb _ hlike.block
    rw [← List.isSome_find?, ← List.isSome_find?]
    rcases hfind with ⟨hs, hs'⟩ | ⟨x, y, -, hs, hs'⟩
    · rw [hs, hs']
    · rw [hs, hs']
      rfl
  unfold Arena.release
  rw [hown]
  split
  · exact ⟨.done, h⟩
  · exact ⟨.refused (.notAnArena _ _), h⟩

theorem Twin.reset (h : a.Twin pairs a') (t₁ : Tracker H₁) (t₂ : Tracker H₂) :
    (a.reset t₁).2.1.Twin pairs (a'.reset t₂).2.1 := by
  cases h with
  | intro first later tally paired all => exact .intro _ _ _ paired .nil

end Arena

end TrackedHeap
