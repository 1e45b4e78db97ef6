import TrackedHeap.Proofs.Heap.Budgeted

/-!
# The accounts of a heap with a budget

A client asks a heap with a budget for ranges, resizes them and hands them back, and knows what it holds
from the answers alone (`Budgeted.Client`). The heap below may be any heap and may fail at any call; all
that is asked of it is that it grants no address that the client still holds.

Then the heap with a budget keeps exact accounts in every state of every run (`Client.run_exact`): what it
has charged is what the client holds and within the budget, its list is the client's, and a request is
refused by the budget exactly if its bytes do not fit, added without any bound. The word that counts the
bytes goes round and the test is made with a sum that is cut, so this says that neither is ever seen.
-/

namespace TrackedHeap

namespace Extent

/-- The bytes of some ranges. -/
def total (extents : List Extent) : Nat :=
  (extents.map Extent.size).sum

variable {extents : List Extent} {e : Extent} {start : Nat}

theorem without_eq_self (h : start ∉ extents.map Extent.start) : without extents start = extents :=
  List.filter_eq_self.mpr fun _ he => bne_iff_ne.mpr fun hs => h (hs ▸ List.mem_map_of_mem he)

/-- If no start occurs twice, the range at a start is the only one that goes with it. -/
theorem perm_cons_without (h : (extents.map Extent.start).Nodup) (he : e ∈ extents) :
    extents.Perm (e :: without extents e.start) := by
  have hgone : e ∉ without extents e.start := fun hm => (mem_without.mp hm).2 rfl
  have hnodup := h.of_map _
  refine (List.perm_ext_iff_of_nodup hnodup (List.nodup_cons.mpr ⟨hgone, hnodup.filter _⟩)).mpr fun d => ?_
  rw [List.mem_cons, mem_without]
  constructor
  · intro hd
    by_cases hs : d.start = e.start
    · exact .inl (List.inj_on_of_nodup_map h hd he hs)
    · exact .inr ⟨hd, hs⟩
  · rintro (rfl | ⟨hd, -⟩)
    · exact he
    · exact hd

theorem total_without (h : (extents.map Extent.start).Nodup) (he : e ∈ extents) :
    total extents = total (without extents e.start) + e.size := by
  unfold total
  rw [((perm_cons_without h he).map Extent.size).sum_nat, List.map_cons, List.sum_cons, Nat.add_comm]

theorem sizeAt?_eq_of_nodup (h : (extents.map Extent.start).Nodup) (he : e ∈ extents) :
    sizeAt? extents e.start = some e.size := by
  cases hf : extents.find? fun d => d.start == e.start with
  | none => exact absurd (List.find?_eq_none.mp hf e he) (by simp)
  | some d =>
    have hd : d.start = e.start := by simpa using List.find?_some hf
    rw [sizeAt?, hf, List.inj_on_of_nodup_map h (List.mem_of_find?_eq_some hf) he hd, Option.map_some]

end Extent

namespace Budgeted

variable {H : Type}

/-- What a heap with a budget makes of a request that charges some bytes, by its answer and that of the
heap below: the budget refuses it, changing nothing, exactly if the bytes do not fit; it is passed on
otherwise. If it fails in the end, the accounts are what they were. -/
structure Gated (h : Budgeted H) (charge : Nat) (answer : Outcome Nat (Budgeted H))
    (below : Outcome Nat H) : Prop where
  refused : h.budget < h.used + charge → answer = (.error (.outOfMemory charge (h.budget - h.used)), h)
  passed : h.used + charge ≤ h.budget → answer.1 = below.1 ∧ answer.2.inner = below.2
  failed : ∀ e, answer.1 = .error e → answer.2.used = h.used ∧ answer.2.sizes = h.sizes

/-- The accounts agree with the ranges that are held, and each request is answered by them. -/
structure Exact [Heap H] (h : Budgeted H) (bytes : Nat) (held : List Extent) : Prop where
  budget_eq : h.budget = bytes
  used_eq : h.used = Extent.total held
  used_le : h.used ≤ bytes
  sizes_eq : h.sizes = held
  alloc : ∀ size, h.Gated size (h.alloc size) (Heap.alloc h.inner size)
  realloc : ∀ e ∈ held, ∀ size,
    h.Gated (size - e.size) (h.realloc e.start size) (Heap.realloc h.inner e.start size)

/-- What the accounts are, and that no start is held twice. -/
structure Balanced (h : Budgeted H) (bytes : Nat) (held : List Extent) : Prop where
  charged : h.Charged bytes (Extent.total held)
  sizes : h.sizes = held
  starts : (held.map Extent.start).Nodup

variable {h h' : Budgeted H} {bytes total size address fresh : Nat} {held : List Extent} {e : Extent}
  {error : MemoryError}

/-- A budget below the largest word is compared with the sum itself. -/
theorem Charged.reserve_eq (hc : h.Charged bytes total) (hb : bytes < Word.largest) (size : Nat) :
    h.reserve size =
      if h.budget < h.used + size then .error (.outOfMemory size (h.budget - h.used))
      else .ok { h with used := Word.addWrap h.used size } := by
  have hlt : h.budget < Word.addSat h.used size ↔ h.budget < h.used + size := by
    rw [hc.budget_eq]
    unfold Word.addSat
    omega
  unfold Budgeted.reserve
  simp only [hlt]
  rfl

namespace Balanced

theorem sizeAt? (hs : h.Balanced bytes held) (he : e ∈ held) :
    Extent.sizeAt? h.sizes e.start = some e.size :=
  (congrArg (Extent.sizeAt? · e.start) hs.sizes).trans (Extent.sizeAt?_eq_of_nodup hs.starts he)

/-- The bytes of one range that is held stand apart in the charge. -/
theorem charged_split (hs : h.Balanced bytes held) (he : e ∈ held) :
    h.Charged bytes (Extent.total (Extent.without held e.start) + e.size) :=
  Extent.total_without hs.starts he ▸ hs.charged

theorem starts_without (hs : h.Balanced bytes held) (address : Nat) :
    ((Extent.without held address).map Extent.start).Nodup :=
  hs.starts.sublist (List.filter_sublist.map _)

/-- Two balanced states with the same ranges show the same accounts. -/
theorem accounts_eq (hs : h.Balanced bytes held) (hs' : h'.Balanced bytes held) (hb : bytes < Word.largest) :
    h'.used = h.used ∧ h'.sizes = h.sizes :=
  ⟨(hs'.charged.used_eq_of_lt hb).trans (hs.charged.used_eq_of_lt hb).symm, hs'.sizes.trans hs.sizes.symm⟩

/-! ## One request -/

variable [Heap H]

theorem alloc_ok (hs : h.Balanced bytes held) (hnew : address ∉ held.map Extent.start)
    (ha : h.alloc size = (.ok address, h')) : h'.Balanced bytes (⟨address, size⟩ :: held) := by
  obtain ⟨hc, hsizes⟩ := hs.charged.alloc_ok ha
  refine ⟨?_, ?_, List.nodup_cons.mpr ⟨hnew, hs.starts⟩⟩
  · rwa [Extent.total, List.map_cons, List.sum_cons, Nat.add_comm]
  · rw [hsizes, hs.sizes, Extent.insert, Extent.without_eq_self hnew]

theorem alloc_error (hs : h.Balanced bytes held) (ha : h.alloc size = (.error error, h')) :
    h'.Balanced bytes held := by
  obtain ⟨hc, hsizes⟩ := hs.charged.alloc_error ha
  exact ⟨hc, hsizes.trans hs.sizes, hs.starts⟩

theorem release (hs : h.Balanced bytes held) (he : e ∈ held) :
    (h.release e.start).Balanced bytes (Extent.without held e.start) := by
  obtain ⟨hc, hsizes⟩ := (hs.charged_split he).release (hs.sizeAt? he)
  exact ⟨hc, hsizes.trans (by rw [hs.sizes]), hs.starts_without e.start⟩

theorem realloc_ok (hs : h.Balanced bytes held) (he : e ∈ held)
    (hnew : fresh ∉ (Extent.without held e.start).map Extent.start)
    (ha : h.realloc e.start size = (.ok fresh, h')) :
    h'.Balanced bytes (⟨fresh, size⟩ :: Extent.without held e.start) := by
  obtain ⟨hc, hsizes⟩ := (hs.charged_split he).realloc_ok (hs.sizeAt? he) ha
  refine ⟨?_, ?_, List.nodup_cons.mpr ⟨hnew, hs.starts_without e.start⟩⟩
  · rwa [Extent.total, List.map_cons, List.sum_cons, Nat.add_comm]
  · rw [hsizes, hs.sizes, Extent.insert, Extent.without_eq_self hnew]

theorem realloc_error (hs : h.Balanced bytes held) (ha : h.realloc address size = (.error error, h')) :
    h'.Balanced bytes held := by
  obtain ⟨hc, hsizes⟩ := hs.charged.realloc_error ha
  exact ⟨hc, hsizes.trans hs.sizes, hs.starts⟩

/-! ## What the accounts say of the next request -/

theorem gated_alloc (hs : h.Balanced bytes held) (hb : bytes < Word.largest) (size : Nat) :
    h.Gated size (h.alloc size) (Heap.alloc h.inner size) where
  refused hlt := by
    unfold Budgeted.alloc
    rw [hs.charged.reserve_eq hb, if_pos hlt]
  passed hle := by
    unfold Budgeted.alloc
    rw [hs.charged.reserve_eq hb, if_neg (Nat.not_lt_of_le hle)]
    cases hbelow : Heap.alloc h.inner size with
    | mk result inner => cases result <;> exact ⟨rfl, rfl⟩
  failed error herr := hs.accounts_eq (hs.alloc_error (Prod.ext herr rfl)) hb

/-- A range that does not grow is charged nothing, and nothing always fits. -/
theorem gated_realloc (hs : h.Balanced bytes held) (hb : bytes < Word.largest) (he : e ∈ held) (size : Nat) :
    h.Gated (size - e.size) (h.realloc e.start size) (Heap.realloc h.inner e.start size) where
  refused hlt := by
    have hgrows : size - e.size ≠ 0 := by
      have hle := hs.charged.used_le
      rw [hs.charged.budget_eq] at hlt
      omega
    unfold Budgeted.realloc
    simp only [hs.sizeAt? he, Option.getD_some, if_neg hgrows, hs.charged.reserve_eq hb, if_pos hlt]
  passed hle := by
    have hcharged : ∃ charged, (if size - e.size = 0 then .ok h else h.reserve (size - e.size)) =
        Except.ok charged := by
      split
      · exact ⟨h, rfl⟩
      · exact ⟨_, (hs.charged.reserve_eq hb _).trans (if_neg (Nat.not_lt_of_le hle))⟩
    obtain ⟨charged, hcharged⟩ := hcharged
    unfold Budgeted.realloc
    simp only [hs.sizeAt? he, Option.getD_some, hcharged]
    cases hbelow : Heap.realloc h.inner e.start size with
    | mk result inner => cases result <;> exact ⟨rfl, rfl⟩
  failed error herr := hs.accounts_eq (hs.realloc_error (Prod.ext herr rfl)) hb

theorem exact (hs : h.Balanced bytes held) (hb : bytes < Word.largest) : h.Exact bytes held where
  budget_eq := hs.charged.budget_eq
  used_eq := hs.charged.used_eq_of_lt hb
  used_le := hs.charged.used_le
  sizes_eq := hs.sizes
  alloc := hs.gated_alloc hb
  realloc _ he := hs.gated_realloc hb he

end Balanced

/-! ## Runs -/

/-- What a client asks of a heap with a budget. -/
inductive Call where
  | alloc (size : Nat)
  | release (address : Nat)
  | realloc (address size : Nat)
deriving DecidableEq, Repr

/-- A heap with a budget, and the ranges that its answers have given to its client. -/
structure Client (H : Type) where
  heap : Budgeted H
  held : List Extent := []

namespace Client

/-- A heap with a budget before any request. -/
def opened (inner : H) (bytes : Nat) : Client H where
  heap := ⟨inner, bytes, 0, []⟩

theorem balanced_opened (inner : H) (bytes : Nat) :
    (opened inner bytes).heap.Balanced bytes (opened inner bytes).held where
  charged := .start inner bytes
  sizes := rfl
  starts := List.nodup_nil

variable [Heap H]

def perform (c : Client H) : Call → Client H
  | .alloc size =>
    match c.heap.alloc size with
    | (.ok address, heap) => ⟨heap, ⟨address, size⟩ :: c.held⟩
    | (.error _, heap) => ⟨heap, c.held⟩
  | .release address => ⟨c.heap.release address, Extent.without c.held address⟩
  | .realloc address size =>
    match c.heap.realloc address size with
    | (.ok fresh, heap) => ⟨heap, ⟨fresh, size⟩ :: Extent.without c.held address⟩
    | (.error _, heap) => ⟨heap, c.held⟩

def run (c : Client H) (calls : List Call) : Client H :=
  calls.foldl perform c

/-- Only what the client holds may be handed back or resized. -/
def Holds (c : Client H) : Call → Prop
  | .alloc _ => True
  | .release address | .realloc address _ => address ∈ c.held.map Extent.start

/-- The address that answers the call is not the start of a range that the client goes on holding. -/
def Anew (c : Client H) : Call → Prop
  | .alloc size =>
    match (c.heap.alloc size).1 with
    | .ok address => address ∉ c.held.map Extent.start
    | .error _ => True
  | .release _ => True
  | .realloc address size =>
    match (c.heap.realloc address size).1 with
    | .ok fresh => fresh ∉ (Extent.without c.held address).map Extent.start
    | .error _ => True

/-- All calls of a run are about ranges that are held, and are answered anew. -/
def Disciplined (c : Client H) : List Call → Prop
  | [] => True
  | call :: calls => c.Holds call ∧ c.Anew call ∧ (c.perform call).Disciplined calls

instance (c : Client H) (call : Call) : Decidable (c.Holds call) := by
  unfold Holds
  split <;> infer_instance

instance (c : Client H) (call : Call) : Decidable (c.Anew call) := by
  unfold Anew
  repeat' split
  all_goals infer_instance

instance decidableDisciplined (c : Client H) : (calls : List Call) → Decidable (c.Disciplined calls)
  | [] => .isTrue trivial
  | call :: calls =>
    have : Decidable ((c.perform call).Disciplined calls) := decidableDisciplined _ calls
    inferInstanceAs (Decidable (c.Holds call ∧ c.Anew call ∧ (c.perform call).Disciplined calls))

variable {c : Client H} {call : Call} {calls : List Call}

theorem balanced_perform (hs : c.heap.Balanced bytes c.held) (hholds : c.Holds call) (hanew : c.Anew call) :
    (c.perform call).heap.Balanced bytes (c.perform call).held := by
  cases call with
  | alloc size =>
    simp only [Anew] at hanew
    simp only [perform]
    cases ha : c.heap.alloc size with
    | mk result heap =>
      rw [ha] at hanew
      cases result with
      | ok address => exact hs.alloc_ok hanew ha
      | error error => exact hs.alloc_error ha
  | release address =>
    obtain ⟨e, he, rfl⟩ := List.mem_map.mp hholds
    exact hs.release he
  | realloc address size =>
    obtain ⟨e, he, rfl⟩ := List.mem_map.mp hholds
    simp only [Anew] at hanew
    simp only [perform]
    cases ha : c.heap.realloc e.start size with
    | mk result heap =>
      rw [ha] at hanew
      cases result with
      | ok fresh => exact hs.realloc_ok he hanew ha
      | error error => exact hs.realloc_error ha

theorem balanced_run (hs : c.heap.Balanced bytes c.held) (hd : c.Disciplined calls) :
    (c.run calls).heap.Balanced bytes (c.run calls).held := by
  induction calls generalizing c with
  | nil => exact hs
  | cons call calls ih => exact ih (balanced_perform hs hd.1 hd.2.1) hd.2.2

/-- A heap with a budget keeps exact accounts in every run, over any heap below. -/
theorem run_exact {inner : H} {bytes : Nat} (hb : bytes < Word.largest) {calls : List Call}
    (hd : (opened inner bytes).Disciplined calls) :
    ((opened inner bytes).run calls).heap.Exact bytes ((opened inner bytes).run calls).held :=
  (balanced_run (balanced_opened inner bytes) hd).exact hb

/-- The second and the fifth request that reach the heap below fail there, one is near the largest word,
and one range moves as it shrinks. -/
theorem run_exact_failing :
    let inner := BumpHeap.ofPlan { gap := 16, failing := [2, 5] }
    let calls : List Call :=
      [.alloc 600, .alloc 300, .alloc (2 ^ 64 - 2), .alloc 300, .realloc 65536 701, .realloc 65536 700,
        .realloc 66160 2000, .realloc 66160 10, .realloc 66160 10, .alloc 0, .release 66480, .alloc 300]
    let client := (opened inner 1000).run calls
    1000 < Word.largest ∧ (opened inner 1000).Disciplined calls ∧ client.heap.used = 310 ∧
      client.heap.Exact 1000 client.held := by
  intro inner calls client
  have hd : (opened inner 1000).Disciplined calls := by decide +kernel
  exact ⟨by decide, hd, by decide +kernel, run_exact (by decide) hd⟩

end Client

end Budgeted

end TrackedHeap
