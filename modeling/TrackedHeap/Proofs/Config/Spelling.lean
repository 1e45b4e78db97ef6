import TrackedHeap.Config

/-!
# Spelled values

How numbers and alignments may be spelled in a text: between blanks, a number as its decimal digits with or without
a plus and zeros before them, an alignment as one of its names or as its number of bytes, in any case. Every such
spelling is read as the value (`SpellsWord.parseWord?`, `Alignment.Spells.parse`).
-/

namespace TrackedHeap

namespace Text

/-- The text is the core with blanks around it. -/
def Surrounds (text : String) (core : List Char) : Prop :=
  ∃ front back : List Char, front.all isBlank ∧ back.all isBlank ∧ text.toList = front ++ core ++ back

/-- Text without blanks that is not empty is what trimming leaves of it between blanks. -/
theorem trimChars_of_surrounds {text : String} {core : List Char} (h : Surrounds text core)
    (hne : core ≠ []) (hcore : ∀ c ∈ core, isBlank c = false) : trimChars text.toList = core := by
  obtain ⟨front, back, hfront, hback, htext⟩ := h
  have hdrop (cs rest : List Char) (hne : cs ≠ []) (hcs : ∀ c ∈ cs, isBlank c = false) :
      (cs ++ rest).dropWhile isBlank = cs ++ rest := by
    obtain ⟨c, cs, rfl⟩ := List.exists_cons_of_ne_nil hne
    exact List.dropWhile_cons_of_neg (by simp [hcs c List.mem_cons_self])
  have hreverse : core.reverse ≠ [] := by simpa using hne
  rw [List.all_eq_true] at hfront hback
  rw [trimChars, htext, List.append_assoc, List.dropWhile_append_of_pos hfront, hdrop core back hne hcore,
    List.reverse_append, List.dropWhile_append_of_pos fun c hc => hback c (List.mem_reverse.mp hc),
    ← List.append_nil core.reverse, hdrop _ _ hreverse fun c hc => hcore c (List.mem_reverse.mp hc),
    List.append_nil, List.reverse_reverse]

/-- A text around something that is not blank is not blank. -/
theorem allBlank_of_surrounds {text : String} {core : List Char} (h : Surrounds text core)
    (hne : core ≠ []) (hcore : ∀ c ∈ core, isBlank c = false) : allBlank text = false := by
  obtain ⟨front, back, -, -, htext⟩ := h
  obtain ⟨c, cs, rfl⟩ := List.exists_cons_of_ne_nil hne
  rw [allBlank, htext]
  exact List.all_eq_false.mpr ⟨c, by simp, by simp [hcore c List.mem_cons_self]⟩

end Text

/-! ## Numbers -/

/-- The text spells the number in decimal. -/
def SpellsWord (n : Nat) (text : String) : Prop :=
  ∃ sign digits : List Char, (sign = [] ∨ sign = ['+']) ∧ digits ≠ [] ∧ digits.all Char.isDigit ∧
    Nat.ofDigitChars 10 digits 0 = n ∧ Text.Surrounds text (sign ++ digits)

theorem isBlank_of_isDigit {c : Char} (h : c.isDigit) : Text.isBlank c = false := by
  obtain ⟨hlow, hhigh⟩ := Char.isDigit_iff_toNat.mp h
  change 48 ≤ c.toNat at hlow
  change c.toNat ≤ 57 at hhigh
  simp only [Text.isBlank, Bool.or_eq_false_iff, Bool.and_eq_false_iff, decide_eq_false_iff_not,
    beq_eq_false_iff_ne]
  omega

theorem isBlank_of_spelled {sign digits : List Char} (hsign : sign = [] ∨ sign = ['+'])
    (hdigits : digits.all Char.isDigit) : ∀ c ∈ sign ++ digits, Text.isBlank c = false := by
  refine List.forall_mem_append.mpr ⟨?_, fun c hc => isBlank_of_isDigit (List.all_eq_true.mp hdigits c hc)⟩
  rcases hsign with rfl | rfl
  · exact fun c hc => absurd hc List.not_mem_nil
  · exact List.forall_mem_singleton.mpr (by decide)

theorem SpellsWord.not_allBlank {n : Nat} {text : String} (h : SpellsWord n text) :
    Text.allBlank text = false := by
  obtain ⟨sign, digits, hsign, hne, hdigits, -, htext⟩ := h
  exact Text.allBlank_of_surrounds htext (List.append_ne_nil_of_right_ne_nil _ hne)
    (isBlank_of_spelled hsign hdigits)

/-- A number that is a word is read from every one of its spellings. -/
theorem SpellsWord.parseWord? {n : Nat} {text : String} (h : SpellsWord n text) (hn : n < Word.limit) :
    parseWord? text = some n := by
  obtain ⟨sign, digits, hsign, hne, hdigits, rfl, htext⟩ := h
  have htrim := Text.trimChars_of_surrounds htext (List.append_ne_nil_of_right_ne_nil _ hne)
    (isBlank_of_spelled hsign hdigits)
  have hplus : ∀ rest, digits ≠ '+' :: rest := by
    rintro rest rfl
    exact absurd (List.all_eq_true.mp hdigits '+' List.mem_cons_self) (by decide)
  unfold TrackedHeap.parseWord?
  rw [htrim]
  rcases hsign with rfl | rfl
  · simp [hne, hdigits, hn]
  · simp [hne, hdigits, hn]

/-! ## Alignments -/

namespace Alignment

/-- The names and the number of bytes, in small letters. -/
def spellings : Alignment → List String
  | byte => ["none", "1"]
  | word => ["word", "word_aligned", "8"]
  | cacheLine => ["cache_line", "cache_line_aligned", "64"]
  | page => ["page", "page_aligned", "4096"]

/-- The text spells the alignment, in any case. -/
def Spells (a : Alignment) (text : String) : Prop :=
  ∃ core : String, Text.lower core ∈ a.spellings ∧ Text.Surrounds text core.toList

theorem toLower_of_isBlank {c : Char} (h : Text.isBlank c) : c.toLower = c := by
  refine dif_neg fun ⟨hlow, hhigh⟩ => ?_
  change 65 ≤ c.toNat at hlow
  change c.toNat ≤ 90 at hhigh
  simp only [Text.isBlank, Bool.or_eq_true, Bool.and_eq_true, decide_eq_true_iff, beq_iff_eq] at h
  omega

theorem isBlank_of_mem_spellings (a : Alignment) :
    ∀ s ∈ a.spellings, s.toList ≠ [] ∧ s.toList.all (!Text.isBlank ·) := by
  cases a <;> decide

theorem isBlank_of_lower {a : Alignment} {core : String} (h : Text.lower core ∈ a.spellings) :
    core.toList ≠ [] ∧ ∀ c ∈ core.toList, Text.isBlank c = false := by
  obtain ⟨hne, hspelled⟩ := a.isBlank_of_mem_spellings _ h
  rw [Text.lower, String.toList_ofList] at hne hspelled
  refine ⟨fun he => hne (by rw [he, List.map_nil]), fun c hc => ?_⟩
  have hlower := List.all_eq_true.mp hspelled _ (List.mem_map_of_mem hc)
  cases hb : Text.isBlank c with
  | false => rfl
  | true => rw [toLower_of_isBlank hb, hb] at hlower; cases hlower

theorem Spells.not_allBlank {a : Alignment} {text : String} (h : a.Spells text) :
    Text.allBlank text = false := by
  obtain ⟨core, hcore, htext⟩ := h
  obtain ⟨hne, hblank⟩ := isBlank_of_lower hcore
  exact Text.allBlank_of_surrounds htext hne hblank

/-- An alignment is read from every one of its spellings. -/
theorem Spells.parse {a : Alignment} {text : String} (h : a.Spells text) : parse text = .ok a := by
  obtain ⟨core, hcore, htext⟩ := h
  obtain ⟨hne, hblank⟩ := isBlank_of_lower hcore
  have hkey : Text.lower (Text.trim text) = Text.lower core := by
    rw [Text.trim, Text.trimChars_of_surrounds htext hne hblank, String.ofList_toList]
  unfold Alignment.parse
  rw [hkey]
  generalize Text.lower core = key at hcore
  cases a <;> simp only [spellings, List.mem_cons, List.not_mem_nil, or_false] at hcore <;>
    rcases hcore with rfl | rfl | rfl <;> simp

end Alignment

end TrackedHeap
