import TrackedHeap.Proofs.Ownership.Estate
import TrackedHeap.Proofs.Ownership.Pool
import TrackedHeap.Proofs.Tracker.Stale
import TrackedHeap.Proofs.Workspace.Labels

/-!
# The carvers of a workspace

The carvers that clients hold under labels and those of allocators are all the carvers over the tracker. What
may be said of a tracker and its carvers and is kept when one of these comes, goes or is reset
(`Carver.Upkeep`) is kept when carvers are put under labels, let go of, swept away and shut down. Estates are
kept so (`Estate.upkeep`).
-/

namespace TrackedHeap

/-- The carver that nobody else has, if the holding is one. -/
def Holding.own? : Holding → Option Carver
  | .own carver => some carver
  | .shared _ => none

namespace Workspace

variable {H : Type}

/-- The carvers that clients hold alone. -/
def ownCarvers (holdings : List (String × Holding)) : List Carver :=
  holdings.filterMap fun p => p.2.own?

/-- All carvers, with those of allocators. -/
def carvers (w : Workspace H) : List Carver :=
  ownCarvers w.holdings ++ w.registry.allocators.map Allocator.carver

/-- The blocks behind carvers. -/
def backing (w : Workspace H) : List Nat :=
  w.carvers.flatMap Carver.backing

/-- The live blocks that are not behind a carver. -/
def clientBlocks (w : Workspace H) : List Block :=
  w.tracker.blocks.filter fun b => b.id ∉ w.backing

/-- The blocks that pools keep. -/
def pooled (w : Workspace H) : List Nat :=
  w.pools.flatMap fun p => p.2.kept

variable {w : Workspace H} {label : String} {c : Carver}

theorem ownCarvers_cons (label : String) (holding : Holding) (holdings : List (String × Holding)) :
    ownCarvers ((label, holding) :: holdings) = holding.own?.toList ++ ownCarvers holdings := by
  cases holding <;> rfl

theorem perm_ownCarvers {holdings : List (String × Holding)} {holding : Holding}
    (hn : (holdings.map Prod.fst).Nodup) (hl : holdings.lookup label = some holding) :
    (ownCarvers holdings).Perm (holding.own?.toList ++ ownCarvers (unlabel holdings label)) := by
  rw [← ownCarvers_cons label]
  exact (perm_of_lookup hn hl).filterMap _

/-- Holdings that are let go of one after the other end the carvers that clients hold alone. -/
theorem foldl_endHolding [Heap H] (w : Workspace H) (holdings : List (String × Holding)) :
    (holdings.map Prod.snd).foldl endHolding w =
      { w with tracker := (ownCarvers holdings).foldl (fun t c => c.dispose t) w.tracker } := by
  induction holdings generalizing w with
  | nil => rfl
  | cons x holdings ih =>
    obtain ⟨label, holding⟩ := x
    cases holding with
    | own c => exact ih { w with tracker := c.dispose w.tracker }
    | shared serial => exact ih w

/-- The carver under a label is one of a list whose others stay when it changes. -/
theorem Distinct.perm_setCarver (h : w.Distinct) (hc : w.carver? label = some c) :
    ∃ rest, w.carvers.Perm (c :: rest) ∧
      ∀ (t : Tracker H) (c' : Carver), ({ w with tracker := t }.setCarver label c').carvers.Perm (c' :: rest) := by
  unfold carver? at hc
  split at hc
  · next own hl =>
    obtain rfl := Option.some.inj hc
    refine ⟨_, (perm_ownCarvers h.labels hl).append_right _, fun t c' => ?_⟩
    simp only [Workspace.setCarver, hl]
    exact List.Perm.refl _
  · next serial hl =>
    obtain ⟨a, hfind, rfl⟩ := Option.map_eq_some_iff.mp hc
    obtain ⟨ha, rfl⟩ := Registry.find?_eq_some hfind
    obtain ⟨rest, hp, hset⟩ := h.registry.perm_setCarver ha
    refine ⟨ownCarvers w.holdings ++ rest, (hp.append_left _).trans List.perm_middle, fun t c' => ?_⟩
    simp only [Workspace.setCarver, hl]
    exact ((hset c').append_left _).trans List.perm_middle
  · cases hc

/-- Only the carver under the label changes. -/
theorem Distinct.onCarver_cases {α : Type} (hd : w.Distinct) (label : String) (reply : α → Reply)
    (act : Carver → Tracker H → Outcome α (Carver × Tracker H)) :
    w.carver? label = none ∧ (w.onCarver label reply act).2 = w ∨
      ∃ c others, w.carver? label = some c ∧ w.carvers.Perm (c :: others) ∧
        (w.onCarver label reply act).2.tracker = (act c w.tracker).2.2 ∧
        (w.onCarver label reply act).2.carvers.Perm ((act c w.tracker).2.1 :: others) := by
  unfold Workspace.onCarver
  split
  · next hl => exact .inl ⟨hl, rfl⟩
  · next c hl =>
    obtain ⟨others, hp, hset⟩ := hd.perm_setCarver hl
    exact .inr ⟨c, others, hl, hp, setCarver_tracker .., hset ..⟩

end Workspace

/-! ## Carvers that come and go -/

/-- What may be said of a tracker and the carvers over it, in whatever order these are, with an account that
resets change: it is kept when a carver is done with, is built, cannot be built, and is reset. -/
structure Carver.Upkeep {H σ : Type} [Heap H] (afterReset : Carver → σ → σ)
    (E : σ → Tracker H → List Carver → Prop) : Prop where
  perm {s : σ} {t : Tracker H} {carvers carvers' : List Carver} :
    carvers.Perm carvers' → E s t carvers → E s t carvers'
  drop {s : σ} {t : Tracker H} {c : Carver} {carvers : List Carver} :
    E s t (c :: carvers) → E s (c.dispose t) carvers
  built {s : σ} {t t' : Tracker H} {c : Carver} {carvers : List Carver} {strategy : Strategy} {total : Nat}
    {alignment : Alignment} : t.Numbered → build t strategy total alignment = (.ok c, t') →
      E s t carvers → E s t' (c :: carvers)
  refused {s : σ} {t t' : Tracker H} {e : MemoryError} {carvers : List Carver} {strategy : Strategy}
    {total : Nat} {alignment : Alignment} : t.Numbered → build t strategy total alignment = (.error e, t') →
      E s t carvers → E s t' carvers
  reset {s : σ} {t : Tracker H} {c : Carver} {carvers : List Carver} : t.Numbered →
    E s t (c :: carvers) → E (afterReset c s) (c.reset t).2.2 ((c.reset t).2.1 :: carvers)

namespace Carver.Upkeep

open Workspace

variable {H σ : Type} [Heap H] {afterReset : Carver → σ → σ} {E : σ → Tracker H → List Carver → Prop} {s : σ}
  {w : Workspace H} {label : String}

theorem dropAll (hE : Upkeep afterReset E) {t : Tracker H} {carvers rest : List Carver}
    (h : E s t (carvers ++ rest)) : E s (carvers.foldl (fun t c => c.dispose t) t) rest := by
  induction carvers generalizing t with
  | nil => exact h
  | cons c carvers ih => exact ih (hE.drop h)

/-- Allocators that nobody holds are done with. -/
theorem settle (hE : Upkeep afterReset E) (h : E s w.tracker w.carvers) :
    E s w.settle.tracker w.settle.carvers := by
  let p : Allocator → Bool := fun a => a.registered || w.held.contains a.serial
  have hp : w.carvers.Perm ((w.registry.allocators.filter (!p ·)).map Allocator.carver ++
      (ownCarvers w.holdings ++ (w.registry.allocators.filter p).map Allocator.carver)) := by
    have hsplit := (List.filter_append_perm p w.registry.allocators).symm.map Allocator.carver
    rw [List.map_append] at hsplit
    refine (hsplit.append_left (ownCarvers w.holdings)).trans ?_
    rw [← List.append_assoc]
    exact List.perm_append_comm
  have hdrop := hE.dropAll (hE.perm hp h)
  rw [List.foldl_map] at hdrop
  unfold Workspace.settle Registry.sweep
  rw [List.partition_eq_filter_filter]
  exact hdrop

/-- The carver of a holding that is let go of is done with. -/
theorem endHolding (hE : Upkeep afterReset E) {holding : Holding}
    (h : E s w.tracker (holding.own?.toList ++ w.carvers)) :
    E s (w.endHolding holding).tracker (w.endHolding holding).carvers := by
  cases holding with
  | own c => exact hE.drop h
  | shared serial => exact h

theorem letGo (hE : Upkeep afterReset E) (hd : w.Distinct) (h : E s w.tracker w.carvers) (label : String) :
    E s (w.letGo label).tracker (w.letGo label).carvers := by
  unfold Workspace.letGo
  split
  · exact h
  · next holding hl =>
    have hp := (perm_ownCarvers hd.labels hl).append_right
      (w.registry.allocators.map Allocator.carver)
    rw [List.append_assoc] at hp
    have hless : E s w.tracker (holding.own?.toList ++
        carvers { w with holdings := unlabel w.holdings label }) := hE.perm hp h
    exact hE.settle (hE.endHolding hless)

/-- Something new is under the label, and what was there before is let go of. -/
theorem hold (hE : Upkeep afterReset E) (hd : w.Distinct) (new : Holding)
    (h : E s w.tracker (new.own?.toList ++ w.carvers)) (label : String) :
    E s (w.hold label new).tracker (w.hold label new).carvers := by
  let w' : Workspace H := { w with holdings := relabel w.holdings label new }
  have hcarvers : w'.carvers = new.own?.toList ++
      (ownCarvers (unlabel w.holdings label) ++ w.registry.allocators.map Allocator.carver) := by
    rw [carvers, ← List.append_assoc, ← ownCarvers_cons label]
    rfl
  unfold Workspace.hold
  simp only
  split
  · next hl =>
    rw [unlabel_of_lookup_eq_none hl] at hcarvers
    show E s w'.tracker w'.carvers
    rw [hcarvers]
    exact h
  · next old hl =>
    refine hE.settle (hE.endHolding ?_)
    show E s w.tracker (old.own?.toList ++ w'.carvers)
    rw [hcarvers]
    -- what was held comes first, then the new carver
    refine hE.perm ?_ h
    have hp := (perm_ownCarvers hd.labels hl).append_right
      (w.registry.allocators.map Allocator.carver)
    rw [List.append_assoc] at hp
    exact ((hp.append_left new.own?.toList).trans (List.perm_append_comm_assoc ..))

theorem letGoAll (hE : Upkeep afterReset E) (h : E s w.tracker w.carvers) :
    E s w.letGoAll.tracker w.letGoAll.carvers := by
  unfold Workspace.letGoAll
  rw [foldl_endHolding]
  exact hE.settle (hE.dropAll h)

/-! ### New carvers -/

theorem build (hE : Upkeep afterReset E) (hn : w.tracker.Numbered) (hd : w.Distinct)
    (h : E s w.tracker w.carvers) (label : String) (strategy : Strategy) (total : Nat)
    (alignment : Alignment) :
    E s (w.build label strategy total alignment).2.tracker
      (w.build label strategy total alignment).2.carvers := by
  unfold Workspace.build
  split
  · next hb => exact hE.refused hn hb h
  · next c t hb =>
    exact hE.hold (hd.with_tracker t) (.own c) (hE.built hn hb h) label

/-- An allocator that is asked for is there already or is new. -/
theorem allocator (hE : Upkeep afterReset E) {r : Registry} {t : Tracker H} {own : List Carver}
    (hn : t.Numbered) (h : E s t (own ++ r.allocators.map Allocator.carver)) (name : String)
    (strategy : Strategy) (total : Nat) (alignment : Alignment) :
    E s (r.get t name strategy total alignment).2.2
      (own ++ (r.get t name strategy total alignment).2.1.allocators.map Allocator.carver) := by
  fun_cases Registry.get r t name strategy total alignment
  case case1 => exact h
  case case2 => exact h
  case case3 hb => exact hE.refused hn hb h
  case case4 c t' hb a =>
    refine hE.perm ?_ (hE.built hn hb h)
    rw [List.map_append, ← List.append_assoc]
    exact (List.perm_append_singleton c _).symm

theorem get (hE : Upkeep afterReset E) (hn : w.tracker.Numbered) (hd : w.Distinct)
    (h : E s w.tracker w.carvers) (label name : String) (strategy : Strategy) (total : Nat)
    (alignment : Option Alignment) :
    E s (w.get label name strategy total alignment).2.tracker
      (w.get label name strategy total alignment).2.carvers := by
  have hget := hE.allocator hn h name strategy total (alignment.getD w.registry.alignment)
  have hreg := hd.registry.get w.tracker name strategy total (alignment.getD w.registry.alignment)
  unfold Workspace.get
  split
  · next hr =>
    rw [hr] at hget
    exact hget
  · next a r t hr =>
    rw [hr] at hget hreg
    exact hE.hold (hd.with_registry hreg t) (.shared a.serial) hget label

/-! ### Freeing names -/

theorem remove (hE : Upkeep afterReset E) (hd : w.Distinct) (h : E s w.tracker w.carvers) (name : String)
    (label : Option String) :
    E s (w.remove name label).2.tracker (w.remove name label).2.carvers := by
  have hcarvers : carvers { w with registry := w.registry.remove name } = w.carvers := by
    simp only [carvers, Registry.remove, List.map_map]
    refine congrArg (ownCarvers w.holdings ++ ·) (List.map_congr_left fun a _ => ?_)
    simp only [Function.comp]
    split <;> rfl
  have hremoved : E s w.tracker (carvers { w with registry := w.registry.remove name }) := by
    rwa [hcarvers]
  unfold Workspace.remove
  split
  · exact h
  · next a _ =>
    cases label with
    | none => exact hE.settle hremoved
    | some label =>
      have hd' : Distinct { w with registry := w.registry.remove name } :=
        ⟨hd.labels, hd.registry.remove name⟩
      exact hE.hold hd' (.shared a.serial) hremoved label

/-- The allocators of serial numbers are reset one after the other. -/
theorem resetAll (hE : Upkeep afterReset E) {r : Registry} {t : Tracker H} {own : List Carver}
    {allocators : List Allocator} (hr : r.Numbered) (hsub : ∀ a ∈ allocators, a ∈ r.allocators)
    (hnodup : (allocators.map Allocator.serial).Nodup) (hn : t.Numbered)
    (h : E s t (own ++ r.allocators.map Allocator.carver)) :
    E (allocators.foldl (fun s a => afterReset a.carver s) s)
      (r.resetAll t (allocators.map Allocator.serial)).2
      (own ++ (r.resetAll t (allocators.map Allocator.serial)).1.allocators.map Allocator.carver) := by
  induction allocators generalizing r t s with
  | nil => exact h
  | cons a allocators ih =>
    obtain ⟨ha, hrest⟩ := List.forall_mem_cons.mp hsub
    obtain ⟨hnew, hnodup⟩ := List.nodup_cons.mp hnodup
    obtain ⟨rest, hp, hset⟩ := hr.perm_setCarver ha
    have hstep : r.resetAll t ((a :: allocators).map Allocator.serial) =
        (r.setCarver a.serial (a.carver.reset t).2.1).resetAll (a.carver.reset t).2.2
          (allocators.map Allocator.serial) := by
      simp only [Registry.resetAll, List.map_cons, List.foldl_cons, hr.find?_serial ha]
    have hreset := hE.reset hn (hE.perm ((hp.append_left own).trans List.perm_middle) h)
    have hback := ((hset (a.carver.reset t).2.1).append_left own).trans List.perm_middle
    rw [hstep]
    refine ih (hr.setCarver ..) (fun b hb => ?_) hnodup ((a.carver.steps_reset t).numbered hn)
      (hE.perm hback.symm hreset)
    -- an allocator that is reset later is still as it was
    refine List.mem_map.mpr ⟨b, hrest b hb, if_neg fun he => ?_⟩
    exact hnew (List.mem_map.mpr ⟨b, hb, he⟩)

theorem shutdown (hE : Upkeep afterReset E) (hn : w.tracker.Numbered) (hd : w.Distinct)
    (h : E s w.tracker w.carvers) :
    E (w.registry.registered.foldl (fun s a => afterReset a.carver s) s) w.shutdown.2.tracker
      w.shutdown.2.carvers := by
  have hsub : ∀ a ∈ w.registry.registered, a ∈ w.registry.allocators := fun a ha =>
    (List.mem_filter.mp ha).1
  have hreset := hE.resetAll hd.registry hsub
    (hd.registry.serials.sublist (List.filter_sublist.map _)) hn h
  let w' : Workspace H := { w with
    registry := (w.registry.shutdown w.tracker).2.1
    tracker := (w.registry.shutdown w.tracker).2.2 }
  have hcarvers : w'.carvers = ownCarvers w.holdings ++
      (w.registry.resetAll w.tracker (w.registry.registered.map Allocator.serial)).1.allocators.map
        Allocator.carver := by
    simp only [w', carvers, Registry.shutdown, List.map_map]
    rfl
  have h' : E (w.registry.registered.foldl (fun s a => afterReset a.carver s) s) w'.tracker w'.carvers := by
    rw [hcarvers]
    exact hreset
  exact hE.settle h'

end Carver.Upkeep

/-- An estate is kept up, clients having nothing more of a carver that was reset unless it is an object pool. -/
theorem Estate.upkeep {H : Type} [Heap H] (issued : List CarveOut) (others : List Nat) :
    Carver.Upkeep (H := H) Carver.afterReset fun out t carvers => Estate t carvers issued out others where
  perm hp h := h.perm hp
  drop h := h.drop
  built hn hb h := h.add hn (Carver.sound_of_build hn hb).2 (Carver.sound_of_build hn hb).1
  refused hn hb h := h.elsewhere (Carver.turnover_build_error hn hb) (by simp)
  reset hn h := (h.reset hn).1

namespace Workspace

variable {H : Type} [Heap H]

/-! ## Pools stay as they are -/

theorem pools_endHolding (w : Workspace H) (holding : Holding) :
    (w.endHolding holding).pools = w.pools := by
  cases holding <;> rfl

theorem pools_hold (w : Workspace H) (label : String) (holding : Holding) :
    (w.hold label holding).pools = w.pools := by
  unfold hold
  simp only
  split
  · rfl
  · exact pools_endHolding _ _

theorem pools_letGo (w : Workspace H) (label : String) : (w.letGo label).pools = w.pools := by
  unfold letGo
  split
  · rfl
  · exact pools_endHolding _ _

theorem pools_build (w : Workspace H) (label : String) (strategy : Strategy) (total : Nat)
    (alignment : Alignment) : (w.build label strategy total alignment).2.pools = w.pools := by
  unfold build
  split
  · rfl
  · exact pools_hold _ label _

theorem pools_get (w : Workspace H) (label name : String) (strategy : Strategy) (total : Nat)
    (alignment : Option Alignment) :
    (w.get label name strategy total alignment).2.pools = w.pools := by
  unfold get
  split
  · rfl
  · exact pools_hold _ label _

theorem pools_remove (w : Workspace H) (name : String) (label : Option String) :
    (w.remove name label).2.pools = w.pools := by
  unfold remove
  split
  · rfl
  · cases label with
    | none => rfl
    | some label => exact pools_hold _ label _

/-! ## Requests about carvers -/

/-- The request is about carvers, and no client gets a block from one or gives one back. -/
def Arranges : Request → Prop
  | .build .. | .get .. | .reset _ | .carverStats _ | .letGo _ | .remove .. | .shutdown => True
  | _ => False

/-- The request is about carvers. -/
def Concerns : Request → Prop
  | .carve .. | .giveBack .. => True
  | request => Arranges request

/-- A request that is about something else leaves what clients hold and the registry alone. -/
theorem concerns_or_same (w : Workspace H) (request : Request) : Concerns request ∨
    (w.perform request).2.holdings = w.holdings ∧ (w.perform request).2.registry = w.registry := by
  have hsame {α : Type} (reply : α → Reply) (o : Outcome α (Tracker H)) :
      (w.onTracker reply o).2.holdings = w.holdings ∧ (w.onTracker reply o).2.registry = w.registry := by
    obtain ⟨_ | _, _⟩ := o <;> exact ⟨rfl, rfl⟩
  have hpool {α : Type} (label : String) (reply : α → Reply)
      (act : Pool → Tracker H → Outcome α (Pool × Tracker H)) :
      (w.onPool label reply act).2.holdings = w.holdings ∧
        (w.onPool label reply act).2.registry = w.registry := by
    unfold onPool
    split <;> exact ⟨rfl, rfl⟩
  cases request
  case allocate | free | reallocate | fill | write | copy => exact .inr (hsame ..)
  case acquire | release | clear | poolStats => exact .inr (hpool ..)
  case read | compare => simp only [perform, answer_tracker, and_self, or_true]
  case makePool =>
    simp only [perform]
    split <;> exact .inr ⟨rfl, rfl⟩
  case dropPool =>
    simp only [perform, dropPool]
    split <;> exact .inr ⟨rfl, rfl⟩
  case build | get | reset | carverStats | letGo | remove | shutdown | carve | giveBack => exact .inl trivial
  all_goals exact .inr ⟨rfl, rfl⟩

end Workspace

end TrackedHeap
