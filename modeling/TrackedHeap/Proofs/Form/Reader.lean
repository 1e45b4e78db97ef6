import TrackedHeap.Form.Config
import TrackedHeap.Proofs.Json.RoundTrip
import TrackedHeap.Proofs.Json.Sized

/-!
# Readers and what they read

A record that has every known name once is seen by its readers field by field (`record_record`). In the other
direction, what a reader makes of a document whose integers are words has only words in it (`Gives`, one
lemma for each way of combining readers). From both follows when a form and its reader belong together
(`Faithful.of`): the text of a value is read as the value exactly for the values that the form can hold, and those
are all that any text is read as.
-/

namespace TrackedHeap.Json

/-! ## Values and their texts -/

/-- The text of a value is read as the value if and only if the form can hold it, and every value that was read from
a text can be held: written out again, it is read as the same. -/
structure Faithful {α : Type} (reader : Reader α) (form : α → Json) (Held : α → Prop) : Prop where
  decode?_render (a : α) : decode? reader (form a).render = some a ↔ Held a
  decode?_again {text : String} {a : α} :
    decode? reader text = some a → decode? reader (form a).render = some a

/-- A value whose form is determined by its text and read as the value, from a reader that has no other values. -/
theorem Faithful.of {α : Type} {reader : Reader α} {form : α → Json} {Held : α → Prop}
    (hwritten : ∀ a, Held a → (form a).Written) (hread : ∀ a, Held a → reader nestingLimit (form a) = some a)
    (hheld : ∀ j a, j.Sized → reader nestingLimit j = some a → Held a) : Faithful reader form Held := by
  have hback (a : α) (ha : Held a) : decode? reader (form a).render = some a := by
    rw [decode?, parse?_render (hwritten a ha), Option.bind_some, hread a ha]
  have hgot (text : String) (a : α) (h : decode? reader text = some a) : Held a := by
    obtain ⟨j, hparse, hj⟩ := Option.bind_eq_some_iff.mp h
    exact hheld j a (sized_of_parse? hparse) hj
  exact ⟨fun a => ⟨hgot _ a, hback a⟩, fun h => hback _ (hgot _ _ h)⟩

namespace Reader

/-! ## Records -/

theorem enter_eq_some {room : Nat} (h : 2 ≤ room) : enter room = some (room - 1) :=
  if_pos h

/-- Names that are not among the known ones may stand there as often as they like. -/
theorem members?_record {fields : List String} {members : List (String × Json)}
    (h : ∀ field ∈ fields, (members.map Prod.fst).count field ≤ 1) :
    members? fields (members.map fun (name, value) => (some name, value)) = some members := by
  induction members with
  | nil => rfl
  | cons member members ih =>
    obtain ⟨name, j⟩ := member
    have hrest (field : String) (hf : field ∈ fields) : (members.map Prod.fst).count field ≤ 1 :=
      Nat.le_trans List.count_le_count_cons (h field hf)
    have hknown : (fields.contains name && members.any (fun m => m.1 == name)) = false := by
      refine Bool.eq_false_iff.mpr fun hboth => ?_
      obtain ⟨hfield, hagain⟩ := Bool.and_eq_true_iff.mp hboth
      obtain ⟨m, hm, he⟩ := List.any_eq_true.mp hagain
      have hone := h name (List.contains_iff_mem.mp hfield)
      rw [List.map_cons, List.count_cons_self] at hone
      have hpos : 0 < (members.map Prod.fst).count name :=
        List.count_pos_iff.mpr (List.mem_map.mpr ⟨m, hm, eq_of_beq he⟩)
      omega
    simp only [List.map_cons, members?, ih hrest, Option.bind_eq_bind, Option.bind_some, hknown,
      Bool.false_eq_true, if_false]

/-- An object that has each known name at most once is read field by field. -/
theorem object_of_count_le {fields : List String} {members : List (String × Json)}
    (h : ∀ field ∈ fields, (members.map Prod.fst).count field ≤ 1) {room : Nat} (hroom : 2 ≤ room) :
    object fields room (Json.record members) = some (room - 1, memberSlot members) := by
  simp only [Json.record, object, enter_eq_some hroom, members?_record h, Option.bind_eq_bind,
    Option.bind_some]
  rfl

theorem object_record (fields : List String) {members : List (String × Json)}
    (h : (members.map Prod.fst).Nodup) {room : Nat} (hroom : 2 ≤ room) :
    object fields room (Json.record members) = some (room - 1, memberSlot members) :=
  object_of_count_le (fun field _ => List.nodup_iff_count.mp h field) hroom

theorem record_record (fields : List String) {members : List (String × Json)}
    (h : (members.map Prod.fst).Nodup) {room : Nat} (hroom : 2 ≤ room) :
    record fields room (Json.record members) = some (room - 1, memberSlot members) :=
  object_record fields h hroom

@[simp]
theorem memberSlot_cons (name : String) (j : Json) (members : List (String × Json)) (field : String) :
    memberSlot ((name, j) :: members) field =
      if field = name then .given j else memberSlot members field := by
  unfold memberSlot
  by_cases h : field = name
  · subst h
    rw [List.lookup_cons_self, if_pos rfl]
  · rw [List.lookup_cons, beq_false_of_ne h, if_neg h]

@[simp]
theorem memberSlot_nil (field : String) : memberSlot [] field = .omitted :=
  rfl

section

variable {α : Type} (reader : Reader α) (room : Nat) (j : Json)

@[simp]
theorem required_given : required reader room (.given j) = reader room j :=
  rfl

@[simp]
theorem optional_given : optional reader room (.given j) = nullable reader room j :=
  rfl

@[simp]
theorem defaulted_given (value : α) : defaulted value reader room (.given j) = reader room j :=
  rfl

@[simp]
theorem defaulted_omitted (value : α) : defaulted value reader room .omitted = some value :=
  rfl

end

@[simp]
theorem word_natural (room n : Nat) : word room (natural n) = some n :=
  rfl

@[simp]
theorem bool_bool (room : Nat) (b : Bool) : Reader.bool room (.bool b) = some b :=
  rfl

@[simp]
theorem nullable_word_ofOption (room : Nat) (o : Option Nat) :
    nullable .word room (Json.ofOption o) = some o := by
  cases o <;> rfl

/-- An array of forms that are all read as their values is read as the values. -/
theorem array_map {α : Type} {reader : Reader α} {form : α → Json} {items : List α} {room : Nat}
    (hroom : 2 ≤ room) (h : ∀ a ∈ items, reader (room - 1) (form a) = some a) :
    array reader room (.array (items.map form)) = some items := by
  have hitems : (items.map form).mapM (reader (room - 1)) = some items := by
    induction items with
    | nil => rfl
    | cons a items ih =>
      obtain ⟨ha, hrest⟩ := List.forall_mem_cons.mp h
      rw [List.map_cons, List.mapM_cons, ha, ih hrest]
      rfl
  simp only [array, enter_eq_some hroom, Option.bind_eq_bind, Option.bind_some, hitems]

/-! ## What readers give -/

/-- All that the reader gives, for documents whose integers are words, has the property. -/
def Gives {α : Type} (reader : Reader α) (p : α → Prop) : Prop :=
  ∀ ⦃room : Nat⦄ ⦃j : Json⦄ ⦃a : α⦄, j.Sized → reader room j = some a → p a

/-- What a record has for a field is sized. -/
def Slot.Sized : Slot → Prop
  | .given j => j.Sized
  | _ => True

theorem gives_word : Gives word (· < Word.limit) := by
  intro room j n hj h
  unfold word at h
  split at h
  · cases h
    exact Int.ofNat_lt.mp hj.fits.2
  · cases h

theorem gives_nullable {α : Type} {reader : Reader α} {p : α → Prop} (h : Gives reader p) :
    Gives (nullable reader) fun o => ∀ a ∈ o, p a := by
  intro room j o hj hread
  unfold nullable at hread
  split at hread
  · cases hread
    exact fun a ha => by cases ha
  · obtain ⟨a, ha, rfl⟩ := Option.map_eq_some_iff.mp hread
    exact fun b hb => Option.some.inj hb ▸ h hj ha

theorem forall_of_mapM {α : Type} {f : Json → Option α} {p : α → Prop} {items : List Json} {found : List α}
    (hf : ∀ j ∈ items, ∀ a, f j = some a → p a) (h : items.mapM f = some found) : ∀ a ∈ found, p a := by
  induction items generalizing found with
  | nil => cases h; exact fun a ha => absurd ha List.not_mem_nil
  | cons j items ih =>
    obtain ⟨hj, hrest⟩ := List.forall_mem_cons.mp hf
    simp only [List.mapM_cons, Option.bind_eq_bind, Option.bind_eq_some_iff] at h
    obtain ⟨a, ha, others, hothers, hfound⟩ := h
    cases hfound
    exact List.forall_mem_cons.mpr ⟨hj a ha, ih hrest hothers⟩

theorem gives_array {α : Type} {reader : Reader α} {p : α → Prop} (h : Gives reader p) :
    Gives (array reader) fun items => ∀ a ∈ items, p a := by
  intro room j found hj hread
  unfold array at hread
  split at hread
  · obtain ⟨inner, -, hitems⟩ := Option.bind_eq_some_iff.mp hread
    exact forall_of_mapM (fun j hmem a => h (hj.items j hmem)) hitems
  · cases hread

theorem mem_of_members? {fields : List String} {members : List (Option String × Json)} {found : List (String × Json)}
    (h : members? fields members = some found) : ∀ m ∈ found, (some m.1, m.2) ∈ members := by
  fun_induction members? fields members generalizing found with
  | case1 => cases h; exact fun m hm => absurd hm List.not_mem_nil
  | case2 => cases h
  | case3 name j rest ih =>
    obtain ⟨others, hothers, h⟩ := Option.bind_eq_some_iff.mp h
    split at h
    · cases h
    · cases h
      exact List.forall_mem_cons.mpr
        ⟨List.mem_cons_self, fun m hm => List.mem_cons_of_mem _ (ih hothers m hm)⟩

theorem sized_memberSlot {members : List (String × Json)} (h : ∀ m ∈ members, m.2.Sized)
    (field : String) : (memberSlot members field).Sized := by
  unfold memberSlot
  split
  · next j hj =>
    obtain ⟨front, back, hmembers, -⟩ := List.lookup_eq_some_iff.mp hj
    exact h (field, j) (by simp [hmembers])
  · trivial

theorem sized_itemSlot {fields : List String} {items : List Json} (h : ∀ j ∈ items, j.Sized) (field : String) :
    (itemSlot fields items field).Sized := by
  unfold itemSlot
  split
  · next j hj =>
    obtain ⟨front, back, hzip, -⟩ := List.lookup_eq_some_iff.mp hj
    have hmem : (field, j) ∈ fields.zip items := hzip ▸ List.mem_append_right _ List.mem_cons_self
    exact h j (List.of_mem_zip hmem).2
  · trivial

/-- What is found for a field of an object or an array is in it. -/
theorem gives_object (fields : List String) :
    Gives (object fields) fun found => ∀ field, (found.2 field).Sized := by
  intro room j found hj h
  unfold object at h
  split at h
  · obtain ⟨inner, -, h⟩ := Option.bind_eq_some_iff.mp h
    obtain ⟨members, hmembers, h⟩ := Option.bind_eq_some_iff.mp h
    cases h
    exact sized_memberSlot fun m hm => hj.values _ (mem_of_members? hmembers m hm)
  · cases h

theorem gives_record (fields : List String) :
    Gives (record fields) fun found => ∀ field, (found.2 field).Sized := by
  intro room j found hj h
  unfold record at h
  split at h
  · obtain ⟨inner, -, h⟩ := Option.bind_eq_some_iff.mp h
    split at h
    · cases h
    · cases h
      exact sized_itemSlot hj.items
  · exact gives_object fields hj h

section

variable {α : Type} {reader : Reader α} {p : α → Prop} {room : Nat} {place : Slot} {a : α} {n : Nat}

theorem of_required (hr : Gives reader p) (hs : place.Sized) (h : required reader room place = some a) :
    p a := by
  cases place with
  | given j => exact hr hs h
  | omitted => cases h
  | cut => cases h

theorem of_optional (hr : Gives reader p) (hs : place.Sized) {o : Option α}
    (h : optional reader room place = some o) : ∀ a ∈ o, p a := by
  cases place with
  | given j => exact gives_nullable hr hs h
  | omitted => cases h; exact fun a ha => by cases ha
  | cut => cases h

theorem of_defaulted (hr : Gives reader p) {value : α} (hv : p value) (hs : place.Sized)
    (h : defaulted value reader room place = some a) : p a := by
  cases place with
  | given j => exact hr hs h
  | omitted => exact Option.some.inj h ▸ hv
  | cut => exact Option.some.inj h ▸ hv

theorem lt_of_required (hs : place.Sized) (h : required .word room place = some n) : n < Word.limit :=
  of_required (p := (· < Word.limit)) gives_word hs h

theorem lt_of_defaulted {value : Nat} (hv : value < Word.limit) (hs : place.Sized)
    (h : defaulted value .word room place = some n) : n < Word.limit :=
  of_defaulted (p := (· < Word.limit)) gives_word hv hs h

end

end Reader

end TrackedHeap.Json
