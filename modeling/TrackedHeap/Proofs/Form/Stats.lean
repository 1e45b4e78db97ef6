import TrackedHeap.Form.Stats
import TrackedHeap.Proofs.Form.Values

/-!
# Forms of figures and their texts

The figures of pools are a record of words. Those of a carver are a tree, and its form is read as the tree as long as
it does not nest more deeply than readers look (`CarverStats.Held`).
-/

namespace TrackedHeap

open Json (Reader Written written_natural written_record)
open Json.Reader (Gives memberSlot record_record gives_record gives_array of_defaulted lt_of_required
  array_map)

@[simp]
theorem Strategy.read_toJson (s : Strategy) (room : Nat) : Strategy.reader room s.toJson = some s := by
  cases s <;> rfl

/-! ## Figures of pools -/

namespace PoolStats

/-- All figures of the pool are words. -/
structure Words (s : PoolStats) : Prop where
  blockSize : s.blockSize < Word.limit
  limit : s.limit < Word.limit
  available : s.available < Word.limit
  acquired : s.acquired < Word.limit
  reused : s.reused < Word.limit
  created : s.created < Word.limit
  overflowed : s.overflowed < Word.limit

theorem written_toJson {s : PoolStats} (h : s.Words) : s.toJson.Written := by
  refine written_record ?_
  simp only [List.forall_mem_cons]
  exact ⟨written_natural h.blockSize, .string _, written_natural h.limit, written_natural h.available,
    written_natural h.acquired, written_natural h.reused, written_natural h.created,
    written_natural h.overflowed, fun _ hm => absurd hm List.not_mem_nil⟩

theorem read_toJson (s : PoolStats) {room : Nat} (h : 2 ≤ room) : reader room s.toJson = some s := by
  have hrecord : Reader.record fields room s.toJson = some (room - 1, memberSlot _) :=
    record_record fields (by show fields.Nodup; decide) h
  simp [reader, hrecord]

theorem gives_words : Gives reader Words := by
  intro room j s hj h
  simp only [reader, Option.bind_eq_bind, Option.bind_eq_some_iff] at h
  obtain ⟨⟨inner, slot⟩, hslot, size, hsize, alignment, -, limit, hlimit, available, havailable, acquired,
    hacquired, reused, hreused, created, hcreated, overflowed, hoverflowed, h⟩ := h
  have hs := gives_record fields hj hslot
  cases h
  exact ⟨lt_of_required (hs _) hsize, lt_of_required (hs _) hlimit, lt_of_required (hs _) havailable,
    lt_of_required (hs _) hacquired, lt_of_required (hs _) hreused, lt_of_required (hs _) hcreated,
    lt_of_required (hs _) hoverflowed⟩

theorem faithful : Json.Faithful reader toJson Words :=
  .of (fun _ => written_toJson) (fun s _ => s.read_toJson (by decide)) fun _ _ hj h => gives_words hj h

end PoolStats

/-! ## Figures of carvers -/

namespace Json

mutual

/-- How deeply arrays and objects are nested in a document. -/
def depth : Json → Nat
  | .array items => depthItems items + 1
  | .object members => depthMembers members + 1
  | _ => 0

def depthItems : List Json → Nat
  | [] => 0
  | j :: rest => max (depth j) (depthItems rest)

def depthMembers : List (Option String × Json) → Nat
  | [] => 0
  | (_, j) :: rest => max (depth j) (depthMembers rest)

end

theorem depthItems_lt_iff {items : List Json} {n : Nat} :
    depthItems items < n ↔ 0 < n ∧ ∀ j ∈ items, j.depth < n := by
  induction items with
  | nil => simp [depthItems]
  | cons j rest ih => rw [depthItems, Nat.max_lt, ih, List.forall_mem_cons, and_left_comm]

theorem depthMembers_lt_iff {members : List (Option String × Json)} {n : Nat} :
    depthMembers members < n ↔ 0 < n ∧ ∀ m ∈ members, m.2.depth < n := by
  induction members with
  | nil => simp [depthMembers]
  | cons m rest ih => rw [depthMembers.eq_2, Nat.max_lt, ih, List.forall_mem_cons, and_left_comm]

theorem depth_array_lt_iff {items : List Json} {n : Nat} :
    (array items).depth < n + 1 ↔ 0 < n ∧ ∀ j ∈ items, j.depth < n := by
  rw [depth, Nat.add_lt_add_iff_right, depthItems_lt_iff]

theorem depth_record_lt_iff {members : List (String × Json)} {n : Nat} :
    (record members).depth < n + 1 ↔ 0 < n ∧ ∀ m ∈ members, m.2.depth < n := by
  rw [record, depth, Nat.add_lt_add_iff_right, depthMembers_lt_iff, List.forall_mem_map]

end Json

namespace CarverStats

/-- All figures of the carver and of its parts are words. -/
inductive Words : CarverStats → Prop
  | intro {s : CarverStats} (total : s.total < Word.limit) (allocated : s.allocated < Word.limit)
    (free : s.free < Word.limit) (allocations : s.allocations < Word.limit)
    (deallocations : s.deallocations < Word.limit) (failures : s.failures < Word.limit)
    (components : ∀ part ∈ s.components, Words part) : Words s

theorem listToJson_eq_map (parts : List CarverStats) : listToJson parts = parts.map toJson := by
  induction parts with
  | nil => rw [listToJson, List.map_nil]
  | cons part parts ih => rw [listToJson, ih, List.map_cons]

/-- The member for the parts, where there are any. -/
def partMembers (parts : List CarverStats) : List (String × Json) :=
  if parts = [] then [] else [("components", .array (parts.map toJson))]

theorem toJson_eq (s : CarverStats) : s.toJson = .record (s.ownMembers ++ partMembers s.components) := by
  obtain ⟨strategy, total, allocated, free, allocations, deallocations, failures, components⟩ := s
  cases components with
  | nil => rw [toJson]; rfl
  | cons part parts => rw [toJson, listToJson_eq_map]; rfl

theorem forall_mem_partMembers {p : String × Json → Prop} {parts : List CarverStats} :
    (∀ m ∈ partMembers parts, p m) ↔ parts ≠ [] → p ("components", .array (parts.map toJson)) := by
  by_cases h : parts = [] <;> simp [partMembers, h]

theorem written_toJson {s : CarverStats} (h : s.Words) : s.toJson.Written := by
  induction h with
  | intro total allocated free allocations deallocations failures _ ih =>
    rw [toJson_eq]
    refine written_record (List.forall_mem_append.mpr ⟨?_, ?_⟩)
    · simp only [ownMembers, List.forall_mem_cons]
      exact ⟨.string _, written_natural total, written_natural allocated, written_natural free,
        written_natural allocations, written_natural deallocations, written_natural failures,
        fun _ hm => absurd hm List.not_mem_nil⟩
    · exact forall_mem_partMembers.mpr fun _ => .array (List.forall_mem_map.mpr ih)

/-- A carver takes a level, and its parts two, where it has any. -/
theorem depth_toJson_lt_iff (s : CarverStats) (room : Nat) :
    s.toJson.depth < room + 2 ↔ ∀ part ∈ s.components, part.toJson.depth < room := by
  have hown : ∀ m ∈ s.ownMembers, m.2.depth < room + 1 := by
    simp only [ownMembers, List.forall_mem_cons]
    exact ⟨room.succ_pos, room.succ_pos, room.succ_pos, room.succ_pos, room.succ_pos, room.succ_pos, room.succ_pos,
      fun _ hm => absurd hm List.not_mem_nil⟩
  rw [toJson_eq, Json.depth_record_lt_iff, List.forall_mem_append, forall_mem_partMembers,
    Json.depth_array_lt_iff, List.forall_mem_map]
  constructor
  · intro h part hpart
    exact (h.2.2 (List.ne_nil_of_mem hpart)).2 part hpart
  · intro h
    refine ⟨room.succ_pos, hown, fun hne => ?_⟩
    obtain ⟨part, hpart⟩ := List.exists_mem_of_ne_nil _ hne
    exact ⟨Nat.zero_lt_of_lt (h part hpart), h⟩

theorem depth_toJson_pos (s : CarverStats) : 0 < s.toJson.depth := by
  rw [toJson_eq]
  exact Nat.succ_pos _

theorem nodup_names (s : CarverStats) : ((s.ownMembers ++ partMembers s.components).map Prod.fst).Nodup := by
  unfold partMembers
  split
  · show fields.dropLast.Nodup
    decide
  · show fields.Nodup
    decide

/-- The two levels that a part takes are those that the reader counts down by. -/
theorem read_toJson : ∀ (room : Nat) (s : CarverStats), s.toJson.depth < room → reader room s.toJson = some s
  | 0, _, h => by cases h
  | 1, s, h => absurd s.depth_toJson_pos (Nat.not_lt.mpr (Nat.le_of_lt_succ h))
  | outer + 2, s, h => by
    have hparts := (s.depth_toJson_lt_iff outer).mp h
    have hrecord : Reader.record fields (outer + 2) s.toJson =
        some (outer + 1, memberSlot (s.ownMembers ++ partMembers s.components)) := by
      rw [toJson_eq]
      exact record_record fields s.nodup_names (Nat.le_add_left 2 outer)
    have hcomponents : Reader.defaulted [] (.array fun _ part => reader outer part) (outer + 1)
        (memberSlot (s.ownMembers ++ partMembers s.components) "components") = some s.components := by
      unfold partMembers
      split
      · next hnil => simp [ownMembers, hnil]
      · next hcons =>
        obtain ⟨part, hpart⟩ := List.exists_mem_of_ne_nil _ hcons
        have hroom : 2 ≤ outer + 1 := Nat.succ_le_succ (Nat.zero_lt_of_lt (hparts part hpart))
        have hitems : Reader.array (fun _ part => reader outer part) (outer + 1)
            (.array (s.components.map toJson)) = some s.components :=
          array_map hroom fun part hpart => read_toJson outer part (hparts part hpart)
        simpa [ownMembers] using hitems
    simp only [reader, hrecord, hcomponents, Option.bind_eq_bind, Option.bind_some]
    cases s
    simp [ownMembers]

theorem gives_words : ∀ room : Nat,
    Gives (fun _ j => reader room j) fun s => s.Words ∧ s.toJson.depth < room
  | 0 => by
    intro _ j s _ h
    cases h
  | 1 => by
    intro _ j s _ h
    cases h
  | outer + 2 => by
    intro _ j s hj h
    simp only [reader, Option.bind_eq_bind, Option.bind_eq_some_iff] at h
    obtain ⟨⟨inner, slot⟩, hslot, strategy, -, total, htotal, allocated, hallocated, free, hfree, allocations,
      hallocations, deallocations, hdeallocations, failures, hfailures, components, hcomponents, h⟩ := h
    have hs := gives_record fields hj hslot
    have hparts := of_defaulted (gives_array (gives_words outer)) (fun _ hpart => absurd hpart List.not_mem_nil)
      (hs _) hcomponents
    cases h
    refine ⟨.intro (lt_of_required (hs _) htotal) (lt_of_required (hs _) hallocated)
      (lt_of_required (hs _) hfree) (lt_of_required (hs _) hallocations)
      (lt_of_required (hs _) hdeallocations) (lt_of_required (hs _) hfailures) fun part hpart => ?_, ?_⟩
    · exact (hparts part hpart).1
    · exact (depth_toJson_lt_iff _ outer).mpr fun part hpart => (hparts part hpart).2

/-- The figures that have a form which readers look through: all are words, and the parts do not nest too deeply. -/
def Held (s : CarverStats) : Prop :=
  s.Words ∧ s.toJson.depth < Json.nestingLimit

theorem faithful : Json.Faithful reader toJson Held :=
  .of (fun _ h => written_toJson h.1) (fun s h => read_toJson Json.nestingLimit s h.2) fun _ _ hj h =>
    @gives_words Json.nestingLimit Json.nestingLimit _ _ hj h

end CarverStats

end TrackedHeap
