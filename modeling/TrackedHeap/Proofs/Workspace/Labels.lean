import Mathlib.Data.List.Nodup
import TrackedHeap.Proofs.Workspace.Steps

/-!
# Labels and serial numbers

No label is there twice and no serial number is, whatever is asked of a workspace. So a label or a serial
number picks one carver, and when that changes or goes all the others are as they were.
-/

namespace TrackedHeap

namespace Workspace

section Pairs

variable {α : Type} {pairs : List (String × α)} {label : String} {a : α}

theorem unlabel_of_lookup_eq_none (h : pairs.lookup label = none) : unlabel pairs label = pairs := by
  refine List.filter_eq_self.mpr fun p hp => ?_
  rw [bne_comm]
  exact List.lookup_eq_none_iff.mp h p hp

theorem mem_of_lookup (h : pairs.lookup label = some a) : (label, a) ∈ pairs := by
  obtain ⟨before, after, rfl, -⟩ := List.lookup_eq_some_iff.mp h
  exact List.mem_append_right _ List.mem_cons_self

/-- What is under a label is one of the pairs, and the others stay without it. -/
theorem perm_of_lookup (hn : (pairs.map Prod.fst).Nodup) (h : pairs.lookup label = some a) :
    pairs.Perm ((label, a) :: unlabel pairs label) := by
  obtain ⟨before, after, rfl, -⟩ := List.lookup_eq_some_iff.mp h
  have hp : (before ++ (label, a) :: after).Perm ((label, a) :: (before ++ after)) :=
    List.perm_middle
  rw [(hp.map Prod.fst).nodup_iff, List.map_cons, List.nodup_cons] at hn
  have hu : unlabel (before ++ (label, a) :: after) label = before ++ after := by
    have hrest : (before ++ after).filter (fun pair => pair.1 != label) = before ++ after :=
      List.filter_eq_self.mpr fun p hp => by
        simpa using fun he => hn.1 (List.mem_map.mpr ⟨p, hp, he⟩)
    rw [unlabel, List.filter_append, List.filter_cons_of_neg (by simp), ← List.filter_append, hrest]
  rwa [hu]

theorem nodup_unlabel (h : (pairs.map Prod.fst).Nodup) (label : String) :
    ((unlabel pairs label).map Prod.fst).Nodup :=
  h.sublist (List.filter_sublist.map Prod.fst)

theorem nodup_relabel (h : (pairs.map Prod.fst).Nodup) (label : String) (a : α) :
    ((relabel pairs label a).map Prod.fst).Nodup := by
  refine List.nodup_cons.mpr ⟨fun hm => ?_, nodup_unlabel h label⟩
  obtain ⟨p, hp, he⟩ := List.mem_map.mp hm
  simpa [he] using (List.mem_filter.mp hp).2

end Pairs

end Workspace

/-! ## Serial numbers -/

namespace Registry

/-- Serial numbers tell allocators apart, and the next one is new. -/
structure Numbered (r : Registry) : Prop where
  serials : (r.allocators.map Allocator.serial).Nodup
  issued : ∀ a ∈ r.allocators, a.serial < r.nextSerial

variable {r : Registry}

/-- Allocators that keep their serial numbers. -/
theorem Numbered.map (h : r.Numbered) {f : Allocator → Allocator} (hf : ∀ a, (f a).serial = a.serial) :
    Numbered { r with allocators := r.allocators.map f } where
  serials := by
    rw [List.map_map, show Allocator.serial ∘ f = Allocator.serial from funext hf]
    exact h.serials
  issued := List.forall_mem_map.mpr fun a ha => by
    rw [hf]
    exact h.issued a ha

theorem Numbered.setCarver (h : r.Numbered) (serial : Nat) (carver : Carver) :
    (r.setCarver serial carver).Numbered :=
  h.map fun a => by split <;> rfl

theorem Numbered.remove (h : r.Numbered) (name : String) : (r.remove name).Numbered :=
  h.map fun a => by split <;> rfl

/-- When the carver of an allocator changes, those of the others stay. -/
theorem Numbered.perm_setCarver (h : r.Numbered) {a : Allocator} (ha : a ∈ r.allocators) :
    ∃ rest, (r.allocators.map Allocator.carver).Perm (a.carver :: rest) ∧
      ∀ c, ((r.setCarver a.serial c).allocators.map Allocator.carver).Perm (c :: rest) := by
  obtain ⟨before, after, hsplit⟩ := List.append_of_mem ha
  have hnodup := h.serials
  rw [hsplit, (List.perm_middle.map Allocator.serial).nodup_iff, List.map_cons,
    List.nodup_cons] at hnodup
  refine ⟨(before ++ after).map Allocator.carver, ?_, fun c => ?_⟩
  · rw [hsplit]
    exact List.perm_middle.map _
  · let carverOf := Allocator.carver ∘ fun b : Allocator =>
      if b.serial = a.serial then { b with carver := c } else b
    have hother : (before ++ after).map carverOf = (before ++ after).map Allocator.carver :=
      List.map_congr_left fun b hb => congrArg Allocator.carver
        (if_neg fun he => hnodup.1 (List.mem_map.mpr ⟨b, hb, he⟩))
    have hself : carverOf a = c := congrArg Allocator.carver (if_pos rfl)
    have hperm : ((before ++ a :: after).map carverOf).Perm
        (carverOf a :: (before ++ after).map carverOf) := List.perm_middle.map carverOf
    rw [hself, hother] at hperm
    rw [Registry.setCarver, List.map_map, hsplit]
    exact hperm

/-- Allocators that are dropped leave the others as they are. -/
theorem Numbered.filter (h : r.Numbered) (p : Allocator → Bool) :
    Numbered { r with allocators := r.allocators.filter p } where
  serials := h.serials.sublist (List.filter_sublist.map _)
  issued a ha := h.issued a (List.mem_filter.mp ha).1

theorem find?_eq_some {serial : Nat} {a : Allocator} (h : r.find? serial = some a) :
    a ∈ r.allocators ∧ a.serial = serial :=
  ⟨List.mem_of_find?_eq_some h, by simpa using List.find?_some h⟩

theorem Numbered.find?_serial (h : r.Numbered) {a : Allocator} (ha : a ∈ r.allocators) :
    r.find? a.serial = some a := by
  cases hf : r.find? a.serial with
  | none => exact absurd (beq_self_eq_true a.serial) (List.find?_eq_none.mp hf a ha)
  | some b =>
    obtain ⟨hb, he⟩ := find?_eq_some hf
    rw [List.inj_on_of_nodup_map h.serials hb ha he]

variable {H : Type} [Heap H]

theorem Numbered.sweep (h : r.Numbered) (t : Tracker H) (held : List Nat) :
    (r.sweep t held).1.Numbered := by
  rw [Registry.sweep, List.partition_eq_filter_filter]
  exact h.filter _

theorem Numbered.resetAll (h : r.Numbered) (t : Tracker H) (serials : List Nat) :
    (r.resetAll t serials).1.Numbered := by
  induction serials generalizing r t with
  | nil => exact h
  | cons serial serials ih =>
    rw [Registry.resetAll, List.foldl_cons]
    refine ih (r := _) ?_ _
    split
    · exact h
    · exact h.setCarver ..

theorem Numbered.get (h : r.Numbered) (t : Tracker H) (name : String) (strategy : Strategy)
    (total : Nat) (alignment : Alignment) :
    (r.get t name strategy total alignment).2.1.Numbered := by
  fun_cases Registry.get r t name strategy total alignment
  case case4 a =>
    refine ⟨?_, List.forall_mem_append.mpr ⟨fun b hb => Nat.lt_succ_of_lt (h.issued b hb), ?_⟩⟩
    · rw [List.map_append]
      refine List.nodup_append.mpr ⟨h.serials, List.nodup_singleton _, fun s hs s' hs' => ?_⟩
      obtain ⟨b, hb, rfl⟩ := List.mem_map.mp hs
      rw [List.mem_singleton.mp hs']
      exact Nat.ne_of_lt (h.issued b hb)
    · intro b hb
      rw [List.mem_singleton.mp hb]
      exact Nat.lt_succ_self _
  all_goals exact h

end Registry

/-! ## Requests -/

namespace Workspace

variable {H : Type} {w : Workspace H}

/-- No label is there twice, and no serial number is. -/
structure Distinct (w : Workspace H) : Prop where
  labels : (w.holdings.map Prod.fst).Nodup
  registry : w.registry.Numbered

namespace Distinct

theorem with_tracker (h : w.Distinct) (t : Tracker H) : Distinct { w with tracker := t } :=
  ⟨h.labels, h.registry⟩

theorem with_registry (h : w.Distinct) {r : Registry} (hr : r.Numbered) (t : Tracker H) :
    Distinct { w with registry := r, tracker := t } :=
  ⟨h.labels, hr⟩

theorem setCarver (h : w.Distinct) (label : String) (c : Carver) : (w.setCarver label c).Distinct := by
  unfold Workspace.setCarver
  split
  · exact ⟨nodup_relabel h.labels label _, h.registry⟩
  · exact ⟨h.labels, h.registry.setCarver ..⟩
  · exact h

theorem onTracker {α : Type} (h : w.Distinct) (reply : α → Reply) (o : Outcome α (Tracker H)) :
    (w.onTracker reply o).2.Distinct := by
  obtain ⟨_ | _, _⟩ := o <;> exact ⟨h.labels, h.registry⟩

theorem onPool {α : Type} (h : w.Distinct) (label : String) (reply : α → Reply)
    (act : Pool → Tracker H → Outcome α (Pool × Tracker H)) :
    (w.onPool label reply act).2.Distinct := by
  unfold Workspace.onPool
  split
  · exact h
  · exact ⟨h.labels, h.registry⟩

theorem onCarver {α : Type} (h : w.Distinct) (label : String) (reply : α → Reply)
    (act : Carver → Tracker H → Outcome α (Carver × Tracker H)) :
    (w.onCarver label reply act).2.Distinct := by
  unfold Workspace.onCarver
  split
  · exact h
  · exact (h.with_tracker _).setCarver label _

variable [Heap H]

theorem settle (h : w.Distinct) : w.settle.Distinct :=
  ⟨h.labels, h.registry.sweep w.tracker w.held⟩

theorem endHolding (h : w.Distinct) (holding : Holding) : (w.endHolding holding).Distinct := by
  cases holding <;> exact ⟨h.labels, h.registry⟩

theorem letGo (h : w.Distinct) (label : String) : (w.letGo label).Distinct := by
  have hless : Distinct { w with holdings := unlabel w.holdings label } :=
    ⟨nodup_unlabel h.labels label, h.registry⟩
  unfold Workspace.letGo
  split
  · exact h
  · exact (hless.endHolding _).settle

theorem hold (h : w.Distinct) (label : String) (holding : Holding) :
    (w.hold label holding).Distinct := by
  have hnew : Distinct { w with holdings := relabel w.holdings label holding } :=
    ⟨nodup_relabel h.labels label holding, h.registry⟩
  unfold Workspace.hold
  simp only
  split
  · exact hnew
  · exact (hnew.endHolding _).settle

theorem build (h : w.Distinct) (label : String) (strategy : Strategy) (total : Nat)
    (alignment : Alignment) : (w.build label strategy total alignment).2.Distinct := by
  unfold Workspace.build
  split
  · exact h.with_tracker _
  · exact (h.with_tracker _).hold label _

theorem get (h : w.Distinct) (label name : String) (strategy : Strategy) (total : Nat)
    (alignment : Option Alignment) : (w.get label name strategy total alignment).2.Distinct := by
  have hget := h.registry.get w.tracker name strategy total (alignment.getD w.registry.alignment)
  unfold Workspace.get
  split
  · next hr =>
    rw [hr] at hget
    exact h.with_registry hget _
  · next hr =>
    rw [hr] at hget
    exact (h.with_registry hget _).hold label _

theorem remove (h : w.Distinct) (name : String) (label : Option String) :
    (w.remove name label).2.Distinct := by
  have hremoved : Distinct { w with registry := w.registry.remove name } :=
    ⟨h.labels, h.registry.remove name⟩
  unfold Workspace.remove
  split
  · exact h
  · cases label with
    | none => exact hremoved.settle
    | some label => exact hremoved.hold label _

theorem shutdown (h : w.Distinct) : w.shutdown.2.Distinct := by
  have hreset : (w.registry.shutdown w.tracker).2.1.Numbered :=
    (h.registry.resetAll w.tracker _).map fun _ => rfl
  exact (h.with_registry hreset _).settle

/-- Labels and serial numbers stay distinct, whatever is asked. -/
theorem perform (h : w.Distinct) (request : Request) : (w.perform request).2.Distinct := by
  cases request
  case wait => exact ⟨h.labels, h.registry⟩
  case allocate => exact h.onTracker ..
  case free => exact h.onTracker ..
  case reallocate => exact h.onTracker ..
  case fill => exact h.onTracker ..
  case write => exact h.onTracker ..
  case copy => exact h.onTracker ..
  case freeAll => exact ⟨h.labels, h.registry⟩
  case read => simpa only [Workspace.perform, answer_tracker] using h
  case compare => simpa only [Workspace.perform, answer_tracker] using h
  case makePool =>
    unfold Workspace.perform
    simp only
    split
    · exact h
    · exact ⟨h.labels, h.registry⟩
  case acquire => exact h.onPool ..
  case release => exact h.onPool ..
  case clear => exact h.onPool ..
  case poolStats => exact h.onPool ..
  case dropPool =>
    simp only [Workspace.perform, Workspace.dropPool]
    split <;> exact ⟨h.labels, h.registry⟩
  case build => exact h.build ..
  case get => exact h.get ..
  case carve => exact h.onCarver ..
  case giveBack => exact h.onCarver ..
  case reset => exact h.onCarver ..
  case carverStats => exact h.onCarver ..
  case letGo => exact h.letGo _
  case remove => exact h.remove ..
  case shutdown => exact h.shutdown
  all_goals exact h

end Distinct

end Workspace

end TrackedHeap
