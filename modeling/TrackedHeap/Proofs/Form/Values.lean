import TrackedHeap.Form.CopyMode
import TrackedHeap.Form.Error
import TrackedHeap.Proofs.Form.Reader

/-!
# Forms and their texts

For blocks, carved ranges, settings, modes of copying and errors: the text of a value is read as the value exactly
if its numbers are words. Each type has the same three lemmas: its form is determined by its text
(`written_toJson`), the form is read as the value where there is room for it (`read_toJson`), and whatever is read
has words as its numbers (`gives_words`).
-/

namespace TrackedHeap

open Json (Reader written_natural written_record)
open Json.Reader (Gives memberSlot record_record object_record gives_word gives_record gives_object of_required
  of_optional of_defaulted lt_of_required lt_of_defaulted enter_eq_some members?_record mem_of_members?
  sized_memberSlot)

/-! ## Names and numbers -/

@[simp]
theorem Alignment.read_toJson (a : Alignment) (room : Nat) : Alignment.reader room a.toJson = some a := by
  cases a <;> rfl

theorem Json.written_ofOption {o : Option Nat} (h : ∀ n ∈ o, n < Word.limit) : (Json.ofOption o).Written := by
  cases o with
  | none => exact .null
  | some n => exact written_natural (h n rfl)

/-- An id is written as its number. -/
theorem Json.faithful_word : Json.Faithful Reader.word Json.natural (· < Word.limit) :=
  .of (fun _ => written_natural) (fun _ _ => rfl) fun _ _ hj h => gives_word hj h

/-! ## Blocks -/

namespace Block

/-- All numbers of the block are words. -/
structure Words (b : Block) : Prop where
  id : b.id < Word.limit
  address : b.address < Word.limit
  rawAddress : b.rawAddress < Word.limit
  requestedSize : b.requestedSize < Word.limit
  paddedSize : b.paddedSize < Word.limit
  createdAt : b.createdAt < Word.limit
  freedAt : ∀ n ∈ b.freedAt, n < Word.limit

theorem written_toJson {b : Block} (h : b.Words) : b.toJson.Written := by
  refine written_record ?_
  simp only [List.forall_mem_cons]
  exact ⟨written_natural h.id, written_natural h.address, written_natural h.rawAddress,
    written_natural h.requestedSize, written_natural h.paddedSize, .string _,
    written_natural h.createdAt, .bool _, Json.written_ofOption h.freedAt,
    fun _ hm => absurd hm List.not_mem_nil⟩

theorem read_toJson (b : Block) {room : Nat} (h : 2 ≤ room) : reader room b.toJson = some b := by
  have hrecord : Reader.record fields room b.toJson = some (room - 1, memberSlot _) :=
    record_record fields (by show fields.Nodup; decide) h
  simp [reader, hrecord]

theorem gives_words : Gives reader Words := by
  intro room j b hj h
  simp only [reader, Option.bind_eq_bind, Option.bind_eq_some_iff] at h
  obtain ⟨⟨inner, slot⟩, hslot, id, hid, address, haddress, raw, hraw, size, hsize, padded, hpadded, alignment,
    -, created, hcreated, freed, -, freedAt, hfreedAt, h⟩ := h
  have hs := gives_record fields hj hslot
  cases h
  exact ⟨lt_of_required (hs _) hid, lt_of_required (hs _) haddress,
    lt_of_required (hs _) hraw, lt_of_required (hs _) hsize,
    lt_of_required (hs _) hpadded, lt_of_required (hs _) hcreated,
    of_optional gives_word (hs _) hfreedAt⟩

theorem faithful : Json.Faithful reader toJson Words :=
  .of (fun _ => written_toJson) (fun b _ => b.read_toJson (by decide)) fun _ _ hj h => gives_words hj h

end Block

namespace CarveOut

/-- All numbers of the range and its block are words. -/
structure Words (c : CarveOut) : Prop where
  block : c.block.Words
  offset : c.offset < Word.limit
  grantedSize : c.grantedSize < Word.limit
  requestedSize : c.requestedSize < Word.limit

theorem written_toJson {c : CarveOut} (h : c.Words) : c.toJson.Written := by
  refine written_record ?_
  simp only [List.forall_mem_cons]
  exact ⟨Block.written_toJson h.block, written_natural h.offset, written_natural h.grantedSize,
    written_natural h.requestedSize, fun _ hm => absurd hm List.not_mem_nil⟩

theorem read_toJson (c : CarveOut) {room : Nat} (h : 3 ≤ room) : reader room c.toJson = some c := by
  have hrecord : Reader.record fields room c.toJson = some (room - 1, memberSlot _) :=
    record_record fields (by show fields.Nodup; decide) (by omega)
  simp [reader, hrecord, Block.read_toJson c.block (Nat.le_sub_one_of_lt h)]

theorem gives_words : Gives reader Words := by
  intro room j c hj h
  simp only [reader, Option.bind_eq_bind, Option.bind_eq_some_iff] at h
  obtain ⟨⟨inner, slot⟩, hslot, block, hblock, offset, hoffset, granted, hgranted, requested, hrequested, h⟩ := h
  have hs := gives_record fields hj hslot
  cases h
  exact ⟨of_required Block.gives_words (hs _) hblock, lt_of_required (hs _) hoffset,
    lt_of_required (hs _) hgranted, lt_of_required (hs _) hrequested⟩

theorem faithful : Json.Faithful reader toJson Words :=
  .of (fun _ => written_toJson) (fun c _ => c.read_toJson (by decide)) fun _ _ hj h => gives_words hj h

end CarveOut

/-! ## Settings -/

namespace Config

/-- All numbers of the settings are words. -/
structure Words (c : Config) : Prop where
  budget : ∀ n ∈ c.budget, n < Word.limit
  leakAge : c.leakAge < Word.limit
  poolBlockSize : c.poolBlockSize < Word.limit
  poolLimit : c.poolLimit < Word.limit

theorem words_default : ({} : Config).Words :=
  ⟨nofun, by decide, by decide, by decide⟩

theorem written_toJson {c : Config} (h : c.Words) : c.toJson.Written := by
  refine written_record ?_
  simp only [List.forall_mem_cons]
  exact ⟨.string _, Json.written_ofOption h.budget, written_natural h.leakAge, written_natural h.poolBlockSize,
    written_natural h.poolLimit, fun _ hm => absurd hm List.not_mem_nil⟩

theorem read_toJson (c : Config) {room : Nat} (h : 2 ≤ room) : reader room c.toJson = some c := by
  have hrecord : Reader.record fields room c.toJson = some (room - 1, memberSlot _) :=
    record_record fields (by show fields.Nodup; decide) h
  simp [reader, hrecord]

theorem gives_words : Gives reader Words := by
  intro room j c hj h
  simp only [reader, Option.bind_eq_bind, Option.bind_eq_some_iff] at h
  obtain ⟨⟨inner, slot⟩, hslot, alignment, -, budget, hbudget, age, hage, size, hsize, limit, hlimit, h⟩ := h
  have hs := gives_record fields hj hslot
  cases h
  exact ⟨of_defaulted (Json.Reader.gives_nullable gives_word) words_default.budget (hs _) hbudget,
    lt_of_defaulted words_default.leakAge (hs _) hage,
    lt_of_defaulted words_default.poolBlockSize (hs _) hsize,
    lt_of_defaulted words_default.poolLimit (hs _) hlimit⟩

theorem faithful : Json.Faithful reader toJson Words :=
  .of (fun _ => written_toJson) (fun c _ => c.read_toJson (by decide)) fun _ _ hj h => gives_words hj h

end Config

/-! ## Modes of copying -/

namespace CopyMode

/-- The width, where there is one, is a word. -/
def Words : CopyMode → Prop
  | plain => True
  | byteSwap width => width < Word.limit

theorem written_toJson {mode : CopyMode} (h : mode.Words) : mode.toJson.Written := by
  cases mode with
  | plain => exact .string _
  | byteSwap width =>
    have hwidth : ∀ m ∈ [("element_size", Json.natural width)], m.2.Written :=
      List.forall_mem_singleton.mpr (written_natural h)
    exact written_record (List.forall_mem_singleton.mpr (written_record hwidth))

theorem read_toJson (mode : CopyMode) {room : Nat} (h : 3 ≤ room) : reader room mode.toJson = some mode := by
  cases mode with
  | plain => rfl
  | byteSwap width =>
    have henter := enter_eq_some (Nat.le_of_succ_le h)
    have hrecord : Reader.record ["element_size"] (room - 1) (.record [("element_size", .natural width)]) =
        some (room - 1 - 1, memberSlot _) :=
      record_record _ (by show ["element_size"].Nodup; decide) (by omega)
    simp only [Json.record, List.map_cons, List.map_nil] at hrecord
    simp [toJson, Json.record, reader, henter, hrecord]

theorem gives_words : Gives reader Words := by
  intro room j mode hj h
  unfold reader at h
  split at h
  · cases h; trivial
  · obtain ⟨_, -, h⟩ := Option.bind_eq_some_iff.mp h
    cases h; trivial
  · simp only [Option.bind_eq_bind, Option.bind_eq_some_iff] at h
    obtain ⟨_, -, ⟨inner, slot⟩, hslot, width, hwidth, h⟩ := h
    have hs := gives_record _ (hj.values _ List.mem_cons_self) hslot
    cases h
    exact lt_of_required (hs _) hwidth
  · cases h

theorem faithful : Json.Faithful reader toJson Words :=
  .of (fun _ => written_toJson) (fun mode _ => mode.read_toJson (by decide)) fun _ _ hj h => gives_words hj h

end CopyMode

/-! ## Errors -/

namespace MemoryError

/-- The sizes, where there are any, are words. -/
def Words : MemoryError → Prop
  | invalidArgument _ => True
  | outOfMemory requested available => requested < Word.limit ∧ available < Word.limit
  | illegalState _ => True
  | boundsViolation offset length size =>
    offset < Word.limit ∧ length < Word.limit ∧ size < Word.limit

theorem written_details {e : MemoryError} (h : e.Words) : e.details.Written := by
  cases e with
  | invalidArgument text => exact .string text
  | outOfMemory requested available =>
    refine written_record ?_
    simp only [List.forall_mem_cons]
    exact ⟨written_natural h.1, written_natural h.2, fun _ hm => absurd hm List.not_mem_nil⟩
  | illegalState text => exact .string text
  | boundsViolation offset length size =>
    refine written_record ?_
    simp only [List.forall_mem_cons]
    exact ⟨written_natural h.1, written_natural h.2.1, written_natural h.2.2,
      fun _ hm => absurd hm List.not_mem_nil⟩

theorem written_toJson {e : MemoryError} (h : e.Words) : e.toJson.Written := by
  refine written_record ?_
  simp only [List.forall_mem_cons]
  exact ⟨.string _, written_details h, fun _ hm => absurd hm List.not_mem_nil⟩

theorem read_details (e : MemoryError) {room : Nat} (h : 2 ≤ room) :
    detailsReader e.tag room e.details = some e := by
  cases e with
  | invalidArgument text => rfl
  | outOfMemory requested available =>
    have hobject : Reader.object ["requested", "available"] room
        (outOfMemory requested available).details = some (room - 1, memberSlot _) :=
      object_record _ (by show ["requested", "available"].Nodup; decide) h
    simp [tag, detailsReader, hobject]
  | illegalState text => rfl
  | boundsViolation offset length size =>
    have hobject : Reader.object ["offset", "length", "size"] room
        (boundsViolation offset length size).details = some (room - 1, memberSlot _) :=
      object_record _ (by show ["offset", "length", "size"].Nodup; decide) h
    simp [tag, detailsReader, hobject]

theorem read_toJson (e : MemoryError) {room : Nat} (h : 3 ≤ room) : reader room e.toJson = some e := by
  have henter := enter_eq_some (Nat.le_of_succ_le h)
  have hnames : ([("error_type", Json.string e.tag.name), ("details", e.details)].map Prod.fst).Nodup := by
    show ["error_type", "details"].Nodup
    decide
  have hmembers : Reader.members? ["error_type", "details"] _ = some _ :=
    members?_record fun field _ => List.nodup_iff_count.mp hnames field
  have htag : Reader.choice ErrorTag.all ErrorTag.name (room - 1) (.string e.tag.name) = some e.tag := by
    cases e <;> rfl
  have hdetails := e.read_details (Nat.le_sub_one_of_lt h)
  simp only [List.map_cons, List.map_nil] at hmembers
  simp [toJson, Json.record, reader, henter, hmembers, List.lookup_cons, htag, hdetails, detailsFirst]

theorem gives_details (tag : ErrorTag) : Gives (detailsReader tag) Words := by
  intro room j e hj h
  cases tag with
  | invalidArgument =>
    obtain ⟨text, -, rfl⟩ := Option.map_eq_some_iff.mp h
    trivial
  | outOfMemory =>
    simp only [detailsReader, Option.bind_eq_bind, Option.bind_eq_some_iff] at h
    obtain ⟨⟨inner, slot⟩, hslot, requested, hrequested, available, havailable, h⟩ := h
    have hs := gives_object _ hj hslot
    cases h
    exact ⟨lt_of_required (hs _) hrequested, lt_of_required (hs _) havailable⟩
  | illegalState =>
    obtain ⟨text, -, rfl⟩ := Option.map_eq_some_iff.mp h
    trivial
  | boundsViolation =>
    simp only [detailsReader, Option.bind_eq_bind, Option.bind_eq_some_iff] at h
    obtain ⟨⟨inner, slot⟩, hslot, offset, hoffset, length, hlength, size, hsize, h⟩ := h
    have hs := gives_object _ hj hslot
    cases h
    exact ⟨lt_of_required (hs _) hoffset, lt_of_required (hs _) hlength, lt_of_required (hs _) hsize⟩

theorem gives_words : Gives reader Words := by
  intro room j e hj h
  unfold reader at h
  split at h
  · simp only [Option.bind_eq_bind, Option.bind_eq_some_iff] at h
    obtain ⟨inner, -, found, hfound, tag, -, details, hdetails, h⟩ := h
    split at h
    · cases h
    · obtain ⟨tag, -, h⟩ := Option.bind_eq_some_iff.mp h
      have hsized := sized_memberSlot (fun m hm => hj.values _ (mem_of_members? hfound m hm)) "details"
      simp only [memberSlot, hdetails] at hsized
      exact gives_details tag hsized h
  · simp only [Option.bind_eq_bind, Option.bind_eq_some_iff] at h
    obtain ⟨inner, -, tag, -, h⟩ := h
    exact gives_details tag (hj.items _ (List.mem_cons_of_mem _ List.mem_cons_self)) h
  · cases h

theorem faithful : Json.Faithful reader toJson Words :=
  .of (fun _ => written_toJson) (fun e _ => e.read_toJson (by decide)) fun _ _ hj h => gives_words hj h

end MemoryError

end TrackedHeap
