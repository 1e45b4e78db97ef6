import TrackedHeap.Proofs.Teardown.Stores

/-!
# What carvers are supplied with

The bases of a workspace are the blocks behind its carvers that clients never have as a whole. A request that
supplies carvers draws them from the tracker (`Workspace.draws_of_supplies`), and any other leaves them as they
are (`Workspace.perm_bases`).
-/

namespace TrackedHeap

namespace Workspace

variable {H : Type} {w : Workspace H} {label : String}

/-- The blocks behind carvers that clients never have as a whole. -/
def bases (w : Workspace H) : List Nat :=
  w.carvers.flatMap Carver.base

/-- The tracker may be asked for blocks of a carver's own. -/
def Supplies (w : Workspace H) : Request → Prop
  | .carve label _ => ∃ c, w.carver? label = some c ∧ c.strategy ≠ .objectPool
  | request => Arranges request

theorem Distinct.perm_bases_onCarver {α : Type} (hd : w.Distinct) (reply : α → Reply)
    {act : Carver → Tracker H → Outcome α (Carver × Tracker H)}
    (hact : ∀ c, w.carver? label = some c → (act c w.tracker).2.1.base = c.base) :
    (w.onCarver label reply act).2.bases.Perm w.bases := by
  rcases hd.onCarver_cases label reply act with ⟨-, hsame⟩ | ⟨c, others, hl, hp, -, hp'⟩
  · rw [hsame]
  · have hafter : (w.onCarver label reply act).2.bases.Perm (c.base ++ others.flatMap Carver.base) :=
      hact c hl ▸ hp'.flatMap_right Carver.base
    exact hafter.trans (hp.flatMap_right Carver.base).symm

variable [Heap H]

/-- What carvers are supplied with they have from then on, or it goes back. -/
theorem draws_of_supplies (h : w.InOrder) {request : Request} (hs : w.Supplies request) :
    w.tracker.Draws (w.perform request).2.tracker w.bases (w.perform request).2.bases := by
  cases request
  case carve label size =>
    obtain ⟨c, hc, hstrategy⟩ := hs
    refine h.distinct.draws_onCarver _ fun c' hc' => ?_
    obtain rfl := Option.some.inj (hc.symm.trans hc')
    exact Carver.draws_allocate hstrategy w.tracker size
  all_goals exact draws_arranged Carver.charge_base h hs

/-- What a client gets or gives back is none of the blocks that carvers have for themselves. -/
theorem perm_bases (h : w.InOrder) {request : Request} (hs : ¬ w.Supplies request) :
    (w.perform request).2.bases.Perm w.bases := by
  rcases w.concerns_or_same request with hr | ⟨hholdings, hregistry⟩
  swap
  · rw [bases, bases, carvers, carvers, hholdings, hregistry]
  cases request
  case carve label size =>
    refine h.distinct.perm_bases_onCarver _ fun c hc => ?_
    have hstrategy : c.strategy = .objectPool := Decidable.not_not.mp fun hne => hs ⟨c, hc, hne⟩
    rw [Carver.base_of_objectPool hstrategy, Carver.base_of_objectPool]
    exact c.strategy_allocate w.tracker size ▸ hstrategy
  case giveBack label handle =>
    exact h.distinct.perm_bases_onCarver _ fun c _ => c.base_release w.tracker handle
  all_goals exact absurd hr hs

/-- A block that is newly behind a carver was given out for one. -/
theorem mem_bases_perform (h : w.InOrder) (request : Request) {id : Nat}
    (hid : id ∈ (w.perform request).2.bases) :
    id ∈ w.bases ∨ w.Supplies request ∧ w.tracker.Gives (w.perform request).2.tracker id := by
  by_cases hs : w.Supplies request
  · exact ((draws_of_supplies h hs).given id hid).imp_right fun hgives => ⟨hs, hgives⟩
  · exact .inl ((perm_bases h hs).mem_iff.mp hid)

end Workspace

end TrackedHeap
