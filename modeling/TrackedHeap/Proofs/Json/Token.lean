import TrackedHeap.Json.Printer
import TrackedHeap.Json.Token

/-!
# Tokens of written documents

What is written as a string or as an integer is read as that one token, whatever follows a string, and
whatever does not go on with the number after an integer (`scanToken_quote`, `scanToken_writeInteger`).
-/

namespace TrackedHeap.Json

/-! ## Strings -/

/-- The escape of a character below the space names it. -/
theorem hexUnit?_control : ∀ n < 32,
    hexUnit? '0' '0' (hexDigit (n / 16)) (hexDigit (n % 16)) = some n := by
  decide

/-- Four characters that are no digits have no value, whatever follows. -/
theorem scanString_of_hexUnit?_eq_none {a b c d : Char} (h : hexUnit? a b c d = none)
    (rest : List Char) : scanString ('\\' :: 'u' :: a :: b :: c :: d :: rest) = none := by
  rw [scanString.eq_def]
  split
  case h_3 heq => cases heq; simp [h]
  case h_4 heq => cases heq; simp [h]
  case h_5 hno heq => cases heq; exact absurd rfl (hno _ _ _ _ _ rfl)
  case h_6 hno heq => cases heq; exact absurd rfl (hno _ _ rfl)
  all_goals simp_all

theorem scanString_unit {a b c d : Char} {unit : Nat} (h : hexUnit? a b c d = some unit)
    (hunit : unit < 0xD800) (rest : List Char) :
    scanString ('\\' :: 'u' :: a :: b :: c :: d :: rest) =
      (scanString rest).map (before (Char.ofNat unit)) := by
  have hhigh : isHighSurrogate unit = false := by simp [isHighSurrogate]; omega
  have hlow : isLowSurrogate unit = false := by simp [isLowSurrogate]; omega
  rw [scanString.eq_def]
  split
  case h_3 a' b' c' d' rest heq =>
    cases heq
    rw [h]
    cases h' : hexUnit? a' b' c' d' with
    | none => simp only [scanString_of_hexUnit?_eq_none h', Option.map_none]
    | some low => simp [hhigh, hlow]
  case h_4 heq => cases heq; simp [h, hhigh, hlow]
  case h_5 hno heq => cases heq; exact absurd rfl (hno _ _ _ _ _ rfl)
  case h_6 hno heq => cases heq; exact absurd rfl (hno _ _ rfl)
  all_goals simp_all

theorem scanString_letter {c e : Char} (h : escapedChar? c = some e) (rest : List Char) :
    scanString ('\\' :: c :: rest) = (scanString rest).map (before e) := by
  have hu : c ≠ 'u' := by rintro rfl; cases h
  rw [scanString.eq_def]
  split
  case h_5 heq => cases heq; simp [h]
  case h_6 hno heq => cases heq; exact absurd rfl (hno _ _ rfl)
  all_goals simp_all

/-- A character that is not escaped. -/
theorem scanString_plain {c : Char} (hquote : c ≠ '"') (hback : c ≠ '\\') (hcontrol : ¬ c < ' ')
    (rest : List Char) : scanString (c :: rest) = (scanString rest).map (before c) := by
  rw [scanString.eq_def]
  split
  case h_6 heq => cases heq; simp [hcontrol]
  all_goals simp_all

theorem scanString_escape (c : Char) (rest : List Char) :
    scanString (escape c ++ rest) = (scanString rest).map (before c) := by
  fun_cases escape c
  case case8 h =>
    have hn : c.toNat < 32 := h
    simpa [Char.ofNat_toNat] using scanString_unit (hexUnit?_control c.toNat hn) (by omega) rest
  case case9 hquote hback _ _ _ _ _ hcontrol => exact scanString_plain hquote hback hcontrol rest
  all_goals subst_vars; exact scanString_letter rfl rest

theorem scanString_escaped (cs rest : List Char) :
    scanString (cs.flatMap escape ++ '"' :: rest) = some (some cs, rest) := by
  induction cs with
  | nil => rfl
  | cons c cs ih =>
    rw [List.flatMap_cons, List.append_assoc, scanString_escape, ih]
    rfl

theorem scanToken_quote (s : String) (rest : List Char) :
    scanToken (quote s ++ rest) = some (.string (some s), rest) := by
  have hbody : quote s ++ rest = '"' :: (s.toList.flatMap escape ++ '"' :: rest) := by
    simp [quote]
  rw [hbody]
  show (scanString _).map _ = _
  rw [scanString_escaped]
  simp

/-! ## Numbers -/

/-- A number that is written before this text ends there. -/
def EndsNumber (rest : List Char) : Prop :=
  ∀ c ∈ rest.head?, ¬ c.isDigit ∧ c ≠ '.' ∧ c ≠ 'e' ∧ c ≠ 'E'

theorem scanDigits_append {digits rest : List Char} (hd : ∀ c ∈ digits, c.isDigit)
    (hr : EndsNumber rest) : scanDigits (digits ++ rest) = (digits, rest) := by
  have htake : rest.takeWhile Char.isDigit = [] := by
    cases rest with
    | nil => rfl
    | cons c rest => exact List.takeWhile_cons_of_neg (hr c rfl).1
  have hdrop : rest.dropWhile Char.isDigit = rest := by
    cases rest with
    | nil => rfl
    | cons c rest => exact List.dropWhile_cons_of_neg (hr c rfl).1
  rw [scanDigits, List.takeWhile_append_of_pos hd, List.dropWhile_append_of_pos hd, htake, hdrop,
    List.append_nil]

theorem head?_toDigits {n : Nat} (hn : 0 < n) : (Nat.toDigits 10 n).head? ≠ some '0' := by
  induction n using Nat.strongRecOn with
  | ind n ih =>
    rcases Nat.lt_or_ge n 10 with hlt | hge
    · have hdigit : ∀ n < 10, 0 < n → Nat.digitChar n ≠ '0' := by decide
      rw [Nat.toDigits_of_lt_base hlt, List.head?_singleton]
      exact fun h => hdigit n hlt hn (Option.some.inj h)
    · have hne : ((Nat.toDigits 10 (n / 10)).head?).isSome :=
        List.isSome_head?.mpr Nat.toDigits_ne_nil
      rw [Nat.toDigits_of_base_le (by decide) hge, List.head?_append, Option.or_of_isSome hne]
      exact ih (n / 10) (by omega) (by omega)

/-- The digits of a number are all there is of it, and have no 0 before them. -/
theorem scanWhole_toDigits (n : Nat) {rest : List Char} (hr : EndsNumber rest) :
    scanWhole (Nat.toDigits 10 n ++ rest) = some (Nat.toDigits 10 n, rest) := by
  have hscan : scanDigits (Nat.toDigits 10 n ++ rest) = (Nat.toDigits 10 n, rest) :=
    scanDigits_append (fun c hc => Nat.isDigit_of_mem_toDigits (by decide) (by decide) hc) hr
  have hzero : ((Nat.toDigits 10 n).head? != some '0' || (Nat.toDigits 10 n).length == 1) = true := by
    rcases Nat.eq_zero_or_pos n with rfl | hn
    · decide
    · rw [bne_iff_ne.mpr (head?_toDigits hn), Bool.true_or]
  simp only [scanWhole, scanSomeDigits, hscan, if_neg Nat.toDigits_ne_nil]
  exact Option.filter_eq_some_iff.mpr ⟨rfl, hzero⟩

theorem scanFraction_of_endsNumber {rest : List Char} (hr : EndsNumber rest) :
    scanFraction rest = some (none, rest) := by
  unfold scanFraction
  split
  · exact absurd rfl (hr '.' rfl).2.1
  · rfl

theorem scanExponent_of_endsNumber {rest : List Char} (hr : EndsNumber rest) :
    scanExponent rest = some (none, rest) := by
  unfold scanExponent
  split
  · exact absurd rfl (hr 'e' rfl).2.2.1
  · exact absurd rfl (hr 'E' rfl).2.2.2
  · rfl

/-- A whole number with the given sign. -/
def Literal.ofNat (negative : Bool) (n : Nat) : Literal where
  negative := negative
  whole := Nat.toDigits 10 n
  fraction := none
  exponent := none

theorem scanUnsigned_toDigits (negative : Bool) (n : Nat) {rest : List Char} (hr : EndsNumber rest) :
    scanUnsigned negative (Nat.toDigits 10 n ++ rest) = some (Literal.ofNat negative n, rest) := by
  unfold scanUnsigned
  rw [scanWhole_toDigits n hr]
  simp only [Option.bind_eq_bind, Option.bind_some, scanFraction_of_endsNumber hr,
    scanExponent_of_endsNumber hr]
  rfl

/-- A text that begins with a digit or a minus is read as a number or not at all. -/
theorem scanToken_eq_scanNumber {c : Char} (h : c.isDigit ∨ c = '-') (cs : List Char) :
    scanToken (c :: cs) =
      (scanNumber (c :: cs)).map fun (literal, rest) => (.number literal.value?, rest) := by
  unfold scanToken
  split
  case h_11 => rfl
  all_goals next heq => cases heq; exact absurd h (by decide)

/-- The integers that are read as such, not as floats. -/
def Fits (i : Int) : Prop :=
  -(Word.limit / 2 : Nat) ≤ i ∧ i < Word.limit

theorem value?_ofNat_false {n : Nat} (hn : n < Word.limit) :
    (Literal.ofNat false n).value? = some (.integer n) := by
  simp [Literal.value?, Literal.integer?, Literal.ofNat, Nat.ofDigitChars_ten_toDigits, hn]

theorem value?_ofNat_true {n : Nat} (hn : n + 1 ≤ Word.limit / 2) :
    (Literal.ofNat true (n + 1)).value? = some (.integer (.negSucc n)) := by
  simp [Literal.value?, Literal.integer?, Literal.ofNat, Nat.ofDigitChars_ten_toDigits, hn,
    Int.negSucc_eq]

theorem scanToken_toDigits {n : Nat} (hn : n < Word.limit) {rest : List Char} (hr : EndsNumber rest) :
    scanToken (Nat.toDigits 10 n ++ rest) = some (.number (some (.integer n)), rest) := by
  obtain ⟨c, cs, hcs⟩ := List.exists_cons_of_ne_nil (Nat.toDigits_ne_nil (n := n) (b := 10))
  have hc : c.isDigit :=
    Nat.isDigit_of_mem_toDigits (n := n) (by decide) (by decide) (hcs ▸ List.mem_cons_self)
  have hsign : scanNumber (Nat.toDigits 10 n ++ rest) = scanUnsigned false (Nat.toDigits 10 n ++ rest) := by
    rw [hcs, List.cons_append]
    unfold scanNumber
    split
    · next heq => cases heq; exact absurd hc (by decide)
    · rfl
  have hread := scanToken_eq_scanNumber (.inl hc) (cs ++ rest)
  rw [← List.cons_append, ← hcs, hsign, scanUnsigned_toDigits false n hr] at hread
  simpa only [Option.map_some, value?_ofNat_false hn] using hread

/-- An integer is read as itself if the text after it does not go on with it. -/
theorem scanToken_writeInteger {i : Int} (hi : Fits i) {rest : List Char} (hr : EndsNumber rest) :
    scanToken (writeInteger i ++ rest) = some (.number (some (.integer i)), rest) := by
  cases i with
  | ofNat n => exact scanToken_toDigits (Int.ofNat_lt.mp hi.2) hr
  | negSucc n =>
    have hn : n + 1 ≤ Word.limit / 2 := by
      have := hi.1
      omega
    rw [writeInteger, List.cons_append, scanToken_eq_scanNumber (.inr rfl)]
    show (scanUnsigned true _).map _ = _
    rw [scanUnsigned_toDigits true (n + 1) hr]
    simp only [Option.map_some, value?_ofNat_true hn]

end TrackedHeap.Json
