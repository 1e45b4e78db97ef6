import TrackedHeap.Proofs.Config.Spelling
import TrackedHeap.Proofs.Form.Values
import TrackedHeap.Registry

/-!
# Settings from documents and from variables

Some of the settings may be given values, and the others keep their defaults. An object with the values under their
names and the variables with spellings of the same values are read as the same settings, except that those read from
variables are refused if they are unfit for use, and then as a tracker or a registry refuses them
(`frontEnds_agree`).
-/

namespace TrackedHeap

open Json.Reader (memberSlot)

/-- Values for some of the settings. -/
structure Assignment where
  alignment : Option Alignment
  budget : Option Nat
  leakAge : Option Nat
  poolBlockSize : Option Nat
  poolLimit : Option Nat

/-! ## Members of an object -/

namespace Json

/-- The values that stand under a name. -/
def valuesOf (members : List (String × Json)) (name : String) : List Json :=
  (members.filter fun m => m.1 == name).map Prod.snd

/-- What stands under the name is one form of the value, or nothing if there is no value. -/
def Binds {α : Type} (members : List (String × Json)) (name : String) (form : α → Json → Prop) :
    Option α → Prop
  | none => valuesOf members name = []
  | some a => ∃ j, form a j ∧ valuesOf members name = [j]

theorem length_valuesOf (members : List (String × Json)) (name : String) :
    (valuesOf members name).length = (members.map Prod.fst).count name := by
  rw [valuesOf, List.length_map, List.count, List.countP_map, List.countP_eq_length_filter]
  rfl

theorem memberSlot_eq (members : List (String × Json)) (name : String) :
    memberSlot members name = match (valuesOf members name).head? with
      | some j => .given j
      | none => .omitted := by
  induction members with
  | nil => rfl
  | cons member members ih =>
    obtain ⟨other, j⟩ := member
    rw [Reader.memberSlot_cons, ih]
    by_cases h : name = other
    · subst h; simp [valuesOf]
    · simp [valuesOf, h, Ne.symm h]

variable {α : Type} {members : List (String × Json)} {name : String} {form : α → Json → Prop} {o : Option α}

theorem Binds.count_le (h : Binds members name form o) : (members.map Prod.fst).count name ≤ 1 := by
  rw [← length_valuesOf]
  cases o with
  | none => rw [show valuesOf members name = [] from h]; exact Nat.zero_le 1
  | some a => obtain ⟨j, -, hj⟩ := h; rw [hj]; exact Nat.le_refl 1

/-- A field is read from the value that is bound, and has its default where none is. -/
theorem Binds.defaulted (h : Binds members name form o) {β : Type} {reader : Reader β} {f : α → β} {room : Nat}
    (hread : ∀ a j, form a j → reader room j = some (f a)) (value : β) :
    Reader.defaulted value reader room (memberSlot members name) = some ((o.map f).getD value) := by
  rw [memberSlot_eq]
  cases o with
  | none => rw [show valuesOf members name = [] from h]; rfl
  | some a =>
    obtain ⟨j, hj, hvalues⟩ := h
    rw [hvalues]
    exact hread a j hj

end Json

/-! ## Variables -/

/-- The variable spells the value, and is not set or blank if there is none. -/
def Environment.Binds {α : Type} (env : Environment) (name : String) (spells : α → String → Prop) :
    Option α → Prop
  | none => ∀ text ∈ env name, Text.allBlank text
  | some a => ∃ text, env name = some text ∧ spells a text

namespace Environment.Binds

variable {α : Type} {env : Environment} {name : String} {spells : α → String → Prop} {n : Nat}

theorem setText?_eq_none (h : env.Binds name spells none) : Config.setText? env name = none := by
  refine Option.filter_eq_none_iff.mpr fun text htext => ?_
  simp [h text htext]

theorem exists_setText? {a : α} (h : env.Binds name spells (some a))
    (hset : ∀ text, spells a text → Text.allBlank text = false) :
    ∃ text, Config.setText? env name = some text ∧ spells a text := by
  obtain ⟨text, htext, hspells⟩ := h
  exact ⟨text, Option.filter_eq_some_iff.mpr ⟨htext, by rw [hset text hspells]; rfl⟩, hspells⟩

theorem readAlignment {o : Option Alignment} (h : env.Binds name Alignment.Spells o) (otherwise : Alignment) :
    Config.readAlignment env name otherwise = .ok (o.getD otherwise) := by
  unfold Config.readAlignment
  cases o with
  | none => rw [h.setText?_eq_none]; rfl
  | some a =>
    obtain ⟨text, hset, hspells⟩ := h.exists_setText? fun _ => Alignment.Spells.not_allBlank
    rw [hset]
    exact hspells.parse

variable {o : Option Nat}

theorem readNumber (h : env.Binds name SpellsWord o) (hwords : ∀ n ∈ o, n < Word.limit) (otherwise : Nat) :
    Config.readNumber env name otherwise = .ok (o.getD otherwise) := by
  unfold Config.readNumber
  cases o with
  | none => rw [h.setText?_eq_none]; rfl
  | some n =>
    obtain ⟨text, hset, hspells⟩ := h.exists_setText? fun _ => SpellsWord.not_allBlank
    simp only [hset, hspells.parseWord? (hwords n rfl)]
    rfl

theorem readOptional (h : env.Binds name SpellsWord o) (hwords : ∀ n ∈ o, n < Word.limit) :
    Config.readOptional env name = .ok o := by
  have hnumber := h.readNumber hwords 0
  unfold Config.readOptional
  cases o with
  | none => rw [h.setText?_eq_none]
  | some n =>
    obtain ⟨text, hset, -⟩ := h.exists_setText? fun _ => SpellsWord.not_allBlank
    rw [hset, hnumber]
    rfl

end Environment.Binds

/-! ## Both ways -/

namespace Assignment

/-- The defaults where there is no value. -/
def applied (a : Assignment) : Config where
  alignment := a.alignment.getD ({} : Config).alignment
  budget := a.budget
  leakAge := a.leakAge.getD ({} : Config).leakAge
  poolBlockSize := a.poolBlockSize.getD ({} : Config).poolBlockSize
  poolLimit := a.poolLimit.getD ({} : Config).poolLimit

/-- All numbers given are words. -/
structure Words (a : Assignment) : Prop where
  budget : ∀ n ∈ a.budget, n < Word.limit
  leakAge : ∀ n ∈ a.leakAge, n < Word.limit
  poolBlockSize : ∀ n ∈ a.poolBlockSize, n < Word.limit
  poolLimit : ∀ n ∈ a.poolLimit, n < Word.limit

/-- An alignment in a document: its name alone, or as the only member of an object, with the value null. -/
def NamesAlignment (alignment : Alignment) (j : Json) : Prop :=
  j = .string alignment.name ∨ j = .object [(some alignment.name, .null)]

/-- A number in a document. -/
def IsNatural (n : Nat) (j : Json) : Prop :=
  j = .natural n

/-- The members bind the values to their names and leave out the others. Other names do not matter. -/
structure InMembers (a : Assignment) (members : List (String × Json)) : Prop where
  alignment : Json.Binds members "default_alignment" NamesAlignment a.alignment
  budget : Json.Binds members "raw_budget" IsNatural a.budget
  leakAge : Json.Binds members "leak_age_ms" IsNatural a.leakAge
  poolBlockSize : Json.Binds members "pool_block_size" IsNatural a.poolBlockSize
  poolLimit : Json.Binds members "pool_max_size" IsNatural a.poolLimit

/-- The variables spell the values, and those of the others are not set or blank. -/
structure InVariables (a : Assignment) (env : Environment) : Prop where
  alignment : env.Binds "RAWMEM_ALIGNMENT" Alignment.Spells a.alignment
  budget : env.Binds "RAWMEM_RAW_BUDGET" SpellsWord a.budget
  leakAge : env.Binds "RAWMEM_LEAK_AGE_MS" SpellsWord a.leakAge
  poolBlockSize : env.Binds "RAWMEM_POOL_BLOCK_SIZE" SpellsWord a.poolBlockSize
  poolLimit : env.Binds "RAWMEM_POOL_MAX_SIZE" SpellsWord a.poolLimit

theorem read_namesAlignment {room : Nat} (hroom : 2 ≤ room) (alignment : Alignment) (j : Json)
    (h : NamesAlignment alignment j) : Alignment.reader room j = some alignment := by
  rcases h with rfl | rfl
  · exact alignment.read_toJson room
  · have henter := Json.Reader.enter_eq_some hroom
    simp only [Alignment.reader, Json.Reader.choice, henter, Option.bind_eq_bind, Option.bind_some]
    cases alignment <;> rfl

theorem read_isNatural {room : Nat} (n : Nat) (j : Json) (h : IsNatural n j) :
    Json.Reader.word room j = some n := by
  rw [h, Json.Reader.word_natural]

theorem nullable_isNatural {room : Nat} (n : Nat) (j : Json) (h : IsNatural n j) :
    Json.Reader.nullable .word room j = some (some n) := by
  rw [h]
  rfl

/-- An object that binds the values is read as the settings with these values. -/
theorem InMembers.read {a : Assignment} {members : List (String × Json)} (h : a.InMembers members) {room : Nat}
    (hroom : 3 ≤ room) : Config.reader room (.record members) = some a.applied := by
  have hcount : ∀ field ∈ Config.fields, (members.map Prod.fst).count field ≤ 1 := by
    simp only [Config.fields, List.forall_mem_cons]
    exact ⟨h.alignment.count_le, h.budget.count_le, h.leakAge.count_le, h.poolBlockSize.count_le,
      h.poolLimit.count_le, fun _ hm => absurd hm List.not_mem_nil⟩
  have hrecord : Json.Reader.record Config.fields room (.record members) =
      some (room - 1, memberSlot members) :=
    Json.Reader.object_of_count_le hcount (Nat.le_of_succ_le hroom)
  have hinner : 2 ≤ room - 1 := Nat.le_sub_one_of_lt hroom
  have hbudget : (a.budget.map some).getD none = a.budget := by
    cases a.budget <;> rfl
  simp only [Config.reader, hrecord, h.alignment.defaulted (read_namesAlignment hinner),
    h.budget.defaulted nullable_isNatural, hbudget, h.leakAge.defaulted read_isNatural,
    h.poolBlockSize.defaulted read_isNatural, h.poolLimit.defaulted read_isNatural, Option.map_id',
    Option.bind_eq_bind, Option.bind_some]
  rfl

theorem InVariables.overridden {a : Assignment} (ha : a.Words) {env : Environment} (h : a.InVariables env) :
    Config.overridden env = .ok a.applied := by
  simp only [Config.overridden, h.alignment.readAlignment, h.budget.readOptional ha.budget,
    h.leakAge.readNumber ha.leakAge, h.poolBlockSize.readNumber ha.poolBlockSize,
    h.poolLimit.readNumber ha.poolLimit]
  rfl

/-- Variables that spell the values give the settings with these values, unless they are unfit for use. -/
theorem InVariables.ofEnvironment {a : Assignment} (ha : a.Words) {env : Environment} (h : a.InVariables env) :
    Config.ofEnvironment env = a.applied.validate.bind fun _ => .ok a.applied := by
  rw [Config.ofEnvironment, h.overridden ha]
  rfl

/-- A document that binds the values and variables that spell them give the same settings. Those from the variables
are refused if they are unfit for use, and a tracker or a registry refuses those from the document with the same
error. -/
theorem frontEnds_agree (a : Assignment) (ha : a.Words) :
    (∀ text members, Json.parse? text = some (.record members) → a.InMembers members →
      Config.ofText text = .ok a.applied) ∧
    (∀ members, (∀ m ∈ members, m.2.Written) → a.InMembers members →
      Config.ofText (Json.record members).render = .ok a.applied) ∧
    ∀ env, a.InVariables env →
      match a.applied.validate with
      | .ok () =>
        Config.ofEnvironment env = .ok a.applied ∧ (Tracker.ofConfig a.applied).isOk ∧
          (Registry.ofConfig a.applied).isOk
      | .error e =>
        Config.ofEnvironment env = .error e ∧ Tracker.ofConfig a.applied = .error e ∧
          Registry.ofConfig a.applied = .error e := by
  have htext (text : String) (members : List (String × Json)) (hparse : Json.parse? text = some (.record members))
      (h : a.InMembers members) : Config.ofText text = .ok a.applied := by
    rw [Config.ofText, Json.decode?, hparse, Option.bind_some, h.read (by decide)]
  refine ⟨htext, fun members hwritten h => ?_, fun env h => ?_⟩
  · exact htext _ members (Json.parse?_render (Json.written_record hwritten)) h
  · rw [h.ofEnvironment ha]
    unfold Registry.ofConfig Tracker.ofConfig
    cases a.applied.validate with
    | ok u => exact ⟨rfl, rfl, rfl⟩
    | error e => exact ⟨rfl, rfl, rfl⟩

/-- With a budget of 0, an alignment between blanks in mixed case and the largest pool block, in another order than
that of the fields and between unknown names, of which one stands twice. -/
theorem frontEnds_agree_zero_budget :
    let a : Assignment :=
      { alignment := some .cacheLine, budget := some 0, leakAge := none,
        poolBlockSize := some 18446744073709551615, poolLimit := none }
    let members : List (String × Json) :=
      [("unknown", .null), ("pool_block_size", .natural 18446744073709551615), ("unknown", .array []),
        ("raw_budget", .natural 0), ("default_alignment", .string "cache_line")]
    let env : Environment := fun name =>
      [("RAWMEM_ALIGNMENT", "\t Cache_Line_ALIGNED "), ("RAWMEM_RAW_BUDGET", "+000"), ("RAWMEM_LEAK_AGE_MS", "  "),
        ("RAWMEM_POOL_BLOCK_SIZE", "18446744073709551615\n"), ("OTHER", "x")].lookup name
    a.Words ∧ Config.ofText (Json.record members).render = .ok a.applied ∧
      Config.ofEnvironment env = .error .zeroBudget ∧ Tracker.ofConfig a.applied = .error .zeroBudget ∧
      Registry.ofConfig a.applied = .error .zeroBudget := by
  intro a members env
  have ha : a.Words :=
    ⟨fun n hn => Option.some.inj hn ▸ (by decide : 0 < Word.limit), nofun,
      fun n hn => Option.some.inj hn ▸ (by decide : 18446744073709551615 < Word.limit), nofun⟩
  have hmembers : a.InMembers members :=
    { alignment := ⟨_, .inl rfl, by simp [members, Json.valuesOf, Alignment.name]⟩
      budget := ⟨_, rfl, by simp [members, Json.valuesOf]⟩
      leakAge := by simp [a, Json.Binds, members, Json.valuesOf]
      poolBlockSize := ⟨_, rfl, by simp [members, Json.valuesOf]⟩
      poolLimit := by simp [a, Json.Binds, members, Json.valuesOf] }
  have hwritten : ∀ m ∈ members, m.2.Written := by
    simp only [members, List.forall_mem_cons]
    exact ⟨.null, Json.written_natural (by decide), .array nofun, Json.written_natural (by decide), .string _, nofun⟩
  have henv : a.InVariables env :=
    { alignment := ⟨_, rfl, "Cache_Line_ALIGNED", by decide, ['\t', ' '], [' '], by decide, by decide, by decide⟩
      budget := ⟨_, rfl, ['+'], ['0', '0', '0'], by decide, by decide, by decide, by decide, [], [], by decide,
        by decide, by decide⟩
      leakAge := fun text h => Option.some.inj h ▸ (by decide : Text.allBlank "  ")
      poolBlockSize := ⟨_, rfl, [], "18446744073709551615".toList, by decide, by decide, by decide, by decide, [],
        ['\n'], by decide, by decide, by decide⟩
      poolLimit := nofun }
  exact ⟨ha, (frontEnds_agree a ha).2.1 members hwritten hmembers, (frontEnds_agree a ha).2.2 env henv⟩

end Assignment

end TrackedHeap
