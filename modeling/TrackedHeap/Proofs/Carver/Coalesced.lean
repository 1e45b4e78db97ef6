import TrackedHeap.Proofs.Carver.Tiling

/-!
# Free chunks that are joined as far as they can be

The free and the live chunks tile the region, no two free chunks are buddies, and the free ones are sorted
(`Chunk.Coalesced`). Halving a free chunk and merging one that has come back keep this
(`Coalesced.split`, `Coalesced.merge`), and it settles the free chunks once the live ones are known: a
chunk is free exactly when no live chunk meets it and the chunk it is a half of is not clear as well
(`Coalesced.mem_free_iff`, `Coalesced.free_eq`).
-/

namespace TrackedHeap

namespace Chunk

variable {c d e : Chunk} {cs ds : List Chunk}

/-! ## Sorted lists -/

theorem precedes_iff :
    c.precedes d = true ↔ c.order < d.order ∨ c.order = d.order ∧ c.index < d.index := by
  simp [precedes]

theorem precedes_trans (h : c.precedes d = true) (h' : d.precedes e = true) :
    c.precedes e = true := by
  rw [precedes_iff] at *
  omega

theorem precedes_of_not (h : ¬ c.precedes d = true) (hne : c ≠ d) : d.precedes c = true := by
  obtain ⟨k, i⟩ := c
  obtain ⟨l, j⟩ := d
  simp only [precedes_iff, ne_eq, Chunk.mk.injEq] at *
  omega

/-- By order and then by place, every chunk once. -/
abbrev Sorted (cs : List Chunk) : Prop :=
  cs.Pairwise fun c d => c.precedes d = true

theorem perm_insert (c : Chunk) (cs : List Chunk) : (insert c cs).Perm (c :: cs) := by
  induction cs with
  | nil => exact .refl _
  | cons d ds ih =>
    unfold insert
    split
    · exact .refl _
    · exact (ih.cons d).trans (.swap c d ds)

theorem Sorted.insert (h : Sorted cs) (hc : c ∉ cs) : Sorted (insert c cs) := by
  induction cs with
  | nil => exact List.pairwise_singleton ..
  | cons d ds ih =>
    obtain ⟨hd, hds⟩ := List.pairwise_cons.mp h
    obtain ⟨hne, hc⟩ := not_or.mp (List.mem_cons.not.mp hc)
    unfold Chunk.insert
    split
    · next hcd =>
      refine List.pairwise_cons.mpr ⟨fun e he => ?_, h⟩
      rcases List.mem_cons.mp he with rfl | he
      · exact hcd
      · exact precedes_trans hcd (hd e he)
    · next hcd =>
      refine List.pairwise_cons.mpr ⟨fun e he => ?_, ih hds hc⟩
      rcases mem_insert.mp he with rfl | he
      · exact precedes_of_not hcd hne
      · exact hd e he

theorem Sorted.nodup (h : Sorted cs) : cs.Nodup :=
  h.imp fun hlt he => by
    subst he
    have := precedes_iff.mp hlt
    omega

/-- Sorted lists of the same chunks are equal. -/
theorem Sorted.eq_of_mem_iff (h : Sorted cs) (h' : Sorted ds) (hm : ∀ c, c ∈ cs ↔ c ∈ ds) :
    cs = ds := by
  have hp := (List.perm_ext_iff_of_nodup h.nodup h'.nodup).mpr hm
  refine hp.eq_of_pairwise (fun c d _ _ hcd hdc => ?_) h h'
  rw [precedes_iff] at *
  omega

theorem order_split (n : Nat) (c : Chunk) (cs : List Chunk) :
    (split n c cs).1.order = c.order - n := by
  induction n generalizing c cs with
  | zero => rfl
  | succ n ih =>
    refine (ih c.lower (c.upper.insert cs)).trans ?_
    simp only [lower]
    omega

/-! ## Free and live chunks -/

/-- Free and live chunks tile a region of `2 ^ order` bytes, and no two free ones can be joined. -/
structure Coalesced (order : Nat) (free live : List Chunk) : Prop where
  tiles : Tiles order (free ++ live)
  separate : ∀ c ∈ free, c.buddy ∉ free
  sorted : Sorted free

namespace Coalesced

variable {order n : Nat} {free live : List Chunk}

/-- A region without live chunks. -/
theorem top (order : Nat) : Coalesced order [⟨order, 0⟩] [] where
  tiles := Tiles.top order
  separate c hc hb := by
    rw [List.mem_singleton.mp hc] at hb
    simp [buddy] at hb
  sorted := List.pairwise_singleton ..

theorem perm_live {live' : List Chunk} (h : Coalesced order free live) (hp : live.Perm live') :
    Coalesced order free live' :=
  ⟨h.tiles.perm (hp.append_left free), h.separate, h.sorted⟩

theorem inside_live (h : Coalesced order free live) (hc : c ∈ live) : c.Inside order :=
  h.tiles.inside c (List.mem_append_right _ hc)

theorem inside_free (h : Coalesced order free live) (hc : c ∈ free) : c.Inside order :=
  h.tiles.inside c (List.mem_append_left _ hc)

theorem apart_live (h : Coalesced order free live) :
    live.Pairwise fun c d => c.extent.Apart d.extent :=
  (List.pairwise_append.mp h.tiles.apart).2.1

theorem apart_of_free (h : Coalesced order free live) (hc : c ∈ free) (hd : d ∈ live) :
    c.extent.Apart d.extent :=
  (List.pairwise_append.mp h.tiles.apart).2.2 c hc d hd

/-- Live chunks start at different places. -/
theorem eq_of_offset (h : Coalesced order free live) (hc : c ∈ live) (hd : d ∈ live)
    (ho : c.offset = d.offset) : c = d :=
  h.tiles.eq_of_has (List.mem_append_right _ hc) (List.mem_append_right _ hd) c.has_offset
    (ho ▸ d.has_offset)

/-- A chunk with a byte of a live one is not free. -/
theorem not_mem_of_has (h : Coalesced order free (c :: live)) {x : Nat} (hc : c.Has x)
    (hd : d.Has x) : d ∉ free := fun hm =>
  not_apart_of_has hd hc (h.apart_of_free hm List.mem_cons_self)

/-! ## Taking chunks and giving them back -/

/-- A free chunk becomes live. -/
theorem take (h : Coalesced order free live) (hc : c ∈ free) :
    Coalesced order (free.erase c) (c :: live) where
  tiles := by
    refine h.tiles.perm (((List.perm_cons_erase hc).append_right live).trans ?_)
    exact List.perm_middle.symm
  separate d hd hb := h.separate d (List.mem_of_mem_erase hd) (List.mem_of_mem_erase hb)
  sorted := h.sorted.sublist List.erase_sublist

/-- A live chunk whose buddy is not free becomes free. -/
theorem give (h : Coalesced order free (c :: live)) (hb : c.buddy ∉ free) :
    Coalesced order (insert c free) live where
  tiles := h.tiles.perm
    (List.perm_middle.trans ((perm_insert c free).append_right live).symm)
  separate d hd hbd := by
    rcases mem_insert.mp hd with rfl | hd <;> rcases mem_insert.mp hbd with he | hbd
    · exact d.buddy_ne he
    · exact hb hbd
    · exact hb (he ▸ (buddy_buddy d).symm ▸ hd)
    · exact h.separate d hd hbd
  sorted := h.sorted.insert (h.not_mem_of_has c.has_offset c.has_offset)

/-- A live chunk keeps its first half, and the second becomes free. -/
theorem halve (h : Coalesced order free (c :: live)) (ho : 0 < c.order) :
    Coalesced order (insert c.upper free) (c.lower :: live) := by
  have hlower := (has_halves ho).mpr (.inl c.lower.has_offset)
  refine give ⟨?_, h.separate, h.sorted⟩ ?_
  · refine ((h.tiles.perm List.perm_middle).halve ho).perm ?_
    exact (List.Perm.swap ..).trans (((List.perm_middle).symm.cons _).trans List.perm_middle.symm)
  · rw [buddy_upper]
    exact h.not_mem_of_has hlower c.lower.has_offset

/-- A live chunk and its free buddy become one live chunk. -/
theorem join (h : Coalesced order free (c :: live)) (hb : c.buddy ∈ free) (ho : c.order < order) :
    Coalesced order (free.erase c.buddy) (c.parent :: live) where
  tiles := by
    have hp : (free ++ c :: live).Perm (c :: c.buddy :: (free.erase c.buddy ++ live)) :=
      List.perm_middle.trans (((List.perm_cons_erase hb).append_right live).cons c)
    exact ((h.tiles.perm hp).join ho).perm List.perm_middle.symm
  separate d hd hbd := h.separate d (List.mem_of_mem_erase hd) (List.mem_of_mem_erase hbd)
  sorted := h.sorted.sublist List.erase_sublist

theorem split (h : Coalesced order free (c :: live)) (hn : n ≤ c.order) :
    Coalesced order (Chunk.split n c free).2 ((Chunk.split n c free).1 :: live) := by
  induction n generalizing c free with
  | zero => exact h
  | succ n ih => exact ih (h.halve (by omega)) (by simp only [lower]; omega)

theorem merge (h : Coalesced order free (c :: live)) (hn : n = order - c.order) :
    Coalesced order (Chunk.merge n c free) live := by
  have hin := h.inside_live List.mem_cons_self
  induction n generalizing c free with
  | zero =>
    refine h.give fun hb => ?_
    -- the chunk is the whole region, and so would be its buddy
    have ho : c.order = order := Nat.le_antisymm hin.order_le (Nat.sub_eq_zero_iff_le.mp hn.symm)
    exact c.buddy_ne (((h.inside_free hb).eq_top ho).trans (hin.eq_top ho).symm)
  | succ n ih =>
    unfold Chunk.merge
    split
    · next hb =>
      have ho : c.order < order := by omega
      refine ih (h.join (List.contains_iff_mem.mp hb) ho) ?_ (hin.parent ho)
      simp only [parent]
      omega
    · next hb => exact h.give fun hm => hb (List.contains_iff_mem.mpr hm)

/-! ## The live chunks settle the free ones -/

/-- What no live chunk meets lies inside one free chunk. -/
theorem exists_free (h : Coalesced order free live) {q : Chunk} (hq : q.Inside order)
    (hclear : ∀ l ∈ live, q.extent.Apart l.extent) :
    ∃ f ∈ free, q.order ≤ f.order ∧ f.Has q.offset := by
  obtain ⟨k, hk⟩ : ∃ k, q.order = k := ⟨_, rfl⟩
  induction k generalizing q with
  | zero =>
    have hlt : q.offset < 2 ^ order := Nat.lt_of_lt_of_le q.has_offset.2 hq
    obtain ⟨c, hc, hx⟩ := h.tiles.covers q.offset hlt
    rcases List.mem_append.mp hc with hc | hc
    · exact ⟨c, hc, by omega, hx⟩
    · exact absurd (hclear c hc) (not_apart_of_has q.has_offset hx)
  | succ k ih =>
    have hpos : 0 < q.order := by omega
    have hhalf {p : Chunk} (hp : ∀ x, p.Has x → q.Has x) (ho : p.order = k) :
        ∃ f ∈ free, p.order ≤ f.order ∧ f.Has p.offset := by
      refine ih (hq.of_has (by omega) (hp _ p.has_offset)) (fun l hl => ?_) ho
      exact apart_iff.mpr fun x hx => apart_iff.mp (hclear l hl) x (hp x hx)
    have hlower : ∀ x, q.lower.Has x → q.Has x := fun x hx => (has_halves hpos).mpr (.inl hx)
    have hupper : ∀ x, q.upper.Has x → q.Has x := fun x hx => (has_halves hpos).mpr (.inr hx)
    obtain ⟨f, hf, hfo, hfx⟩ := hhalf hlower (by simp only [lower]; omega)
    obtain ⟨g, hg, hgo, hgx⟩ := hhalf hupper (by simp only [upper]; omega)
    rcases Nat.lt_or_ge f.order q.order with hlt | hge
    · rcases Nat.lt_or_ge g.order q.order with hlt' | hge'
      · -- both halves are free, though they are buddies
        have hf' : q.lower = f :=
          eq_of_has (by simp only [lower] at *; omega) q.lower.has_offset hfx
        have hg' : q.upper = g :=
          eq_of_has (by simp only [upper] at *; omega) q.upper.has_offset hgx
        rw [← hf'] at hf
        rw [← hg', ← buddy_lower] at hg
        exact absurd hg (h.separate _ hf)
      · exact ⟨g, hg, hge', Has.mono hge' (hupper _ q.upper.has_offset) hgx q.has_offset⟩
    · exact ⟨f, hf, hge, Has.mono hge (hlower _ q.lower.has_offset) hfx q.has_offset⟩

/-- A chunk is free exactly when it is clear of live ones and not a half of a clear one. -/
theorem mem_free_iff (h : Coalesced order free live) :
    c ∈ free ↔ c.Inside order ∧ (∀ l ∈ live, c.extent.Apart l.extent) ∧
      (c.order = order ∨ ∃ l ∈ live, ¬ c.parent.extent.Apart l.extent) := by
  constructor
  · intro hc
    have hin := h.inside_free hc
    refine ⟨hin, fun l hl => h.apart_of_free hc hl, or_iff_not_imp_left.mpr fun ho => ?_⟩
    by_contra hno
    push Not at hno
    have hlt : c.order < order := Nat.lt_of_le_of_ne hin.order_le ho
    obtain ⟨f, hf, hfo, hfx⟩ := h.exists_free (hin.parent hlt) hno
    -- the free chunk around the parent shares the bytes of the chunk, and is larger
    have hcp : c.parent.Has c.offset := has_parent.mpr (.inl c.has_offset)
    have hfc := Has.mono hfo c.parent.has_offset hfx hcp
    have := h.tiles.eq_of_has (List.mem_append_left _ hc) (List.mem_append_left _ hf) c.has_offset hfc
    rw [← this] at hfo
    simp only [parent] at hfo
    omega
  · rintro ⟨hin, hclear, hfull⟩
    obtain ⟨f, hf, hfo, hfx⟩ := h.exists_free hin hclear
    rcases Nat.eq_or_lt_of_le hfo with ho | ho
    · rwa [eq_of_has ho c.has_offset hfx]
    · rcases hfull with htop | ⟨l, hl, hmeet⟩
      · have := (h.inside_free hf).order_le
        omega
      · -- the parent lies inside the free chunk, so no live chunk meets it
        refine absurd (apart_iff.mpr fun x hx hlx => ?_) hmeet
        have hcp : c.parent.Has c.offset := has_parent.mpr (.inl c.has_offset)
        exact not_apart_of_has (Has.mono (c := c.parent) ho hcp hfx hx) hlx (h.apart_of_free hf hl)

/-- Regions with the same live chunks have the same free ones. -/
theorem free_eq {free' live' : List Chunk} (h : Coalesced order free live)
    (h' : Coalesced order free' live') (hm : ∀ c, c ∈ live ↔ c ∈ live') : free = free' := by
  refine h.sorted.eq_of_mem_iff h'.sorted fun c => ?_
  rw [h.mem_free_iff, h'.mem_free_iff]
  simp only [hm]

end Coalesced

end Chunk

end TrackedHeap
