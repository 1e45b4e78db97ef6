import TrackedHeap.Json.Number

/-!
# Tokens of documents

A text splits into braces, brackets, colons, commas, words, numbers and strings, with spaces, tabs and
line ends between them. `scanToken` reads the token at the start of a text, and `length_scanToken` says that
it takes at least one character.
-/

namespace TrackedHeap.Json

/-- A token; a number or a string may have no value. -/
inductive Token where
  | openBrace
  | closeBrace
  | openBracket
  | closeBracket
  | colon
  | comma
  | null
  | bool (b : Bool)
  | number (n : Option Number)
  | string (s : Option String)

/-! ## Strings -/

/-- The value of a hexadecimal digit. -/
def hexValue? (c : Char) : Option Nat :=
  if c.isDigit then some (c.toNat - '0'.toNat)
  else if 'a' ≤ c ∧ c ≤ 'f' then some (c.toNat - 'a'.toNat + 10)
  else if 'A' ≤ c ∧ c ≤ 'F' then some (c.toNat - 'A'.toNat + 10)
  else none

/-- The value of four hexadecimal digits. -/
def hexUnit? (a b c d : Char) : Option Nat := do
  let a ← hexValue? a
  let b ← hexValue? b
  let c ← hexValue? c
  let d ← hexValue? d
  return ((a * 16 + b) * 16 + c) * 16 + d

/-- The first half of a surrogate pair. -/
def isHighSurrogate (unit : Nat) : Bool :=
  0xD800 ≤ unit && unit < 0xDC00

/-- The second half of a surrogate pair. -/
def isLowSurrogate (unit : Nat) : Bool :=
  0xDC00 ≤ unit && unit < 0xE000

/-- The character of a surrogate pair. -/
def pairChar (high low : Nat) : Char :=
  Char.ofNat (0x10000 + (high - 0xD800) * 0x400 + (low - 0xDC00))

/-- The character of an escape of one letter. -/
def escapedChar? (c : Char) : Option Char :=
  match c with
  | '"' => some '"'
  | '\\' => some '\\'
  | '/' => some '/'
  | 'b' => some '\x08'
  | 'f' => some '\x0c'
  | 'n' => some '\n'
  | 'r' => some '\r'
  | 't' => some '\t'
  | _ => none

/-- A scanned text with one more character before it. -/
def before (c : Char) : Option (List Char) × List Char → Option (List Char) × List Char
  | (text, rest) => (text.map (c :: ·), rest)

/-- A scanned text that has lost its value. -/
def valueless : Option (List Char) × List Char → Option (List Char) × List Char
  | (_, rest) => (none, rest)

/-- Reads up to the closing quote: the characters, if every escape names one, and what follows. -/
def scanString : List Char → Option (Option (List Char) × List Char)
  | [] => none
  | '"' :: rest => some (some [], rest)
  | '\\' :: 'u' :: a :: b :: c :: d :: '\\' :: 'u' :: a' :: b' :: c' :: d' :: rest =>
    match hexUnit? a b c d, hexUnit? a' b' c' d' with
    | some high, some low =>
      if isHighSurrogate high && isLowSurrogate low then
        (scanString rest).map (before (pairChar high low))
      else if isHighSurrogate high || isLowSurrogate high then
        (scanString ('\\' :: 'u' :: a' :: b' :: c' :: d' :: rest)).map valueless
      else
        (scanString ('\\' :: 'u' :: a' :: b' :: c' :: d' :: rest)).map (before (Char.ofNat high))
    | _, _ => none
  | '\\' :: 'u' :: a :: b :: c :: d :: rest =>
    match hexUnit? a b c d with
    | some unit =>
      if isHighSurrogate unit || isLowSurrogate unit then (scanString rest).map valueless
      else (scanString rest).map (before (Char.ofNat unit))
    | none => none
  | '\\' :: c :: rest =>
    match escapedChar? c with
    | some e => (scanString rest).map (before e)
    | none => none
  | c :: rest => if c < ' ' then none else (scanString rest).map (before c)

/-! ## Numbers -/

/-- The digits at the start, and what follows. -/
def scanDigits (cs : List Char) : List Char × List Char :=
  (cs.takeWhile Char.isDigit, cs.dropWhile Char.isDigit)

/-- The digits at the start, if there is one, and what follows. -/
def scanSomeDigits (cs : List Char) : Option (List Char × List Char) :=
  if (scanDigits cs).1 = [] then none else some (scanDigits cs)

/-- Digits of which the first is not 0 unless it is the only one. -/
def scanWhole (cs : List Char) : Option (List Char × List Char) :=
  (scanSomeDigits cs).filter fun (digits, _) => digits.head? != some '0' || digits.length == 1

/-- A point and digits, or nothing. -/
def scanFraction : List Char → Option (Option (List Char) × List Char)
  | '.' :: rest => (scanSomeDigits rest).map fun (digits, rest) => (some digits, rest)
  | rest => some (none, rest)

/-- The sign of an exponent: whether it is negative, and what follows. -/
def scanSign : List Char → Bool × List Char
  | '-' :: rest => (true, rest)
  | '+' :: rest => (false, rest)
  | rest => (false, rest)

/-- The exponent after its letter. -/
def scanPower (cs : List Char) : Option (Option (Bool × List Char) × List Char) :=
  let (negative, rest) := scanSign cs
  (scanSomeDigits rest).map fun (digits, rest) => (some (negative, digits), rest)

/-- An exponent, or nothing. -/
def scanExponent : List Char → Option (Option (Bool × List Char) × List Char)
  | 'e' :: rest => scanPower rest
  | 'E' :: rest => scanPower rest
  | rest => some (none, rest)

/-- The number at the start after its sign, and what follows. -/
def scanUnsigned (negative : Bool) (cs : List Char) : Option (Literal × List Char) := do
  let (whole, rest) ← scanWhole cs
  let (fraction, rest) ← scanFraction rest
  let (exponent, rest) ← scanExponent rest
  return ({ negative, whole, fraction, exponent }, rest)

/-- The number at the start, and what follows. -/
def scanNumber : List Char → Option (Literal × List Char)
  | '-' :: rest => scanUnsigned true rest
  | cs => scanUnsigned false cs

/-! ## Texts -/

/-- A character between tokens. -/
def isSpace (c : Char) : Bool :=
  c == ' ' || c == '\n' || c == '\t' || c == '\r'

/-- What follows a word at the start. -/
def scanWord : List Char → List Char → Option (List Char)
  | [], rest => some rest
  | _ :: _, [] => none
  | w :: ws, c :: cs => if w = c then scanWord ws cs else none

/-- The token at the start, and what follows. -/
def scanToken (cs : List Char) : Option (Token × List Char) :=
  match cs with
  | '{' :: rest => some (.openBrace, rest)
  | '}' :: rest => some (.closeBrace, rest)
  | '[' :: rest => some (.openBracket, rest)
  | ']' :: rest => some (.closeBracket, rest)
  | ':' :: rest => some (.colon, rest)
  | ',' :: rest => some (.comma, rest)
  | '"' :: rest => (scanString rest).map fun (text, rest) => (.string (text.map String.ofList), rest)
  | 'n' :: rest => (scanWord ['u', 'l', 'l'] rest).map (Token.null, ·)
  | 't' :: rest => (scanWord ['r', 'u', 'e'] rest).map (Token.bool true, ·)
  | 'f' :: rest => (scanWord ['a', 'l', 's', 'e'] rest).map (Token.bool false, ·)
  | _ => (scanNumber cs).map fun (literal, rest) => (.number literal.value?, rest)

/-! ## Every token takes characters -/

theorem length_scanString {cs rest : List Char} {text : Option (List Char)}
    (h : scanString cs = some (text, rest)) : rest.length < cs.length := by
  fun_induction scanString cs generalizing text rest <;>
    simp_all [before, valueless] <;> grind

theorem length_scanSomeDigits {cs digits rest : List Char}
    (h : scanSomeDigits cs = some (digits, rest)) : rest.length < cs.length := by
  have hl := congrArg List.length (List.takeWhile_append_dropWhile (p := Char.isDigit) (l := cs))
  have hp : 0 < (cs.takeWhile Char.isDigit).length := by grind [scanSomeDigits, scanDigits]
  grind [scanSomeDigits, scanDigits]

theorem length_scanWhole {cs digits rest : List Char} (h : scanWhole cs = some (digits, rest)) :
    rest.length < cs.length :=
  length_scanSomeDigits (Option.filter_eq_some_iff.mp h).1

theorem length_scanFraction {cs rest : List Char} {digits : Option (List Char)}
    (h : scanFraction cs = some (digits, rest)) : rest.length ≤ cs.length := by
  revert h
  fun_cases scanFraction cs with
  | case1 => simp only [Option.map_eq_some_iff]; grind [→ length_scanSomeDigits]
  | case2 => grind

theorem length_scanSign (cs : List Char) : (scanSign cs).2.length ≤ cs.length := by
  fun_cases scanSign cs <;> simp

theorem length_scanPower {cs rest : List Char} {power : Option (Bool × List Char)}
    (h : scanPower cs = some (power, rest)) : rest.length < cs.length := by
  have := length_scanSign cs
  simp only [scanPower, Option.map_eq_some_iff] at h
  grind [→ length_scanSomeDigits]

theorem length_scanExponent {cs rest : List Char} {power : Option (Bool × List Char)}
    (h : scanExponent cs = some (power, rest)) : rest.length ≤ cs.length := by
  revert h
  fun_cases scanExponent cs <;> grind [→ length_scanPower]

theorem length_scanUnsigned {cs rest : List Char} {negative : Bool} {literal : Literal}
    (h : scanUnsigned negative cs = some (literal, rest)) : rest.length < cs.length := by
  simp only [scanUnsigned, Option.bind_eq_bind, Option.bind_eq_some_iff] at h
  obtain ⟨⟨_, r⟩, hw, ⟨_, r'⟩, hf, ⟨_, r''⟩, he, hr⟩ := h
  have := length_scanWhole hw
  have := length_scanFraction hf
  have := length_scanExponent he
  grind

theorem length_scanNumber {cs rest : List Char} {literal : Literal}
    (h : scanNumber cs = some (literal, rest)) : rest.length < cs.length := by
  revert h
  fun_cases scanNumber cs <;> grind [→ length_scanUnsigned]

theorem length_scanWord {ws cs rest : List Char} (h : scanWord ws cs = some rest) :
    rest.length ≤ cs.length := by
  fun_induction scanWord ws cs <;> grind

theorem length_scanToken {cs rest : List Char} {token : Token}
    (h : scanToken cs = some (token, rest)) : rest.length < cs.length := by
  revert h
  fun_cases scanToken cs <;>
    grind [Option.map_eq_some_iff, → length_scanString, → length_scanNumber, → length_scanWord]

end TrackedHeap.Json
