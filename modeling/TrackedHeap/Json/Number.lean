import TrackedHeap.Word

/-!
# Numbers in documents

A number is written as decimal digits with or without sign, fraction and exponent. Its value is an integer
if it is written without fraction and exponent and is a word or the negative of at most `2 ^ 63`, and a
float otherwise. Some numbers, those beyond the largest finite float, have no value.

A float is read from the digits that fit in a word: whole digits past them count only for their place, and
digits of the fraction not at all. The word is rounded to a float and then multiplied or divided by a power
of ten, so the result is not always the float nearest to what is written.
-/

namespace TrackedHeap.Json

/-- The value of a number. -/
inductive Number where
  | integer (i : Int)
  | real (x : Float)

/-- The parts of a written number. -/
structure Literal where
  negative : Bool
  /-- The digits before the point. -/
  whole : List Char
  /-- The digits after the point. -/
  fraction : Option (List Char)
  /-- The sign and the digits of the exponent. -/
  exponent : Option (Bool × List Char)
deriving DecidableEq, Repr

namespace Literal

/-- Appends digits to a word as long as the result is a word, and says how many digits were left over. -/
def takeDigits : Nat → List Char → Nat × Nat
  | n, [] => (n, 0)
  | n, c :: cs =>
    let m := 10 * n + (c.toNat - '0'.toNat)
    if m < Word.limit then takeDigits m cs else (n, cs.length + 1)

/-- The float nearest to a power of ten. -/
def powerOfTen (n : Nat) : Float :=
  Float.ofScientific 1 false n

/-- The largest exponent for which there is a power of ten among the floats. -/
def largestPower : Nat := 308

/-- Multiplies or divides by a power of ten; `none` if the product is infinite. An exponent too small for
one division is used up in steps. -/
def scale (x : Float) (exponent : Int) : Option Float :=
  if exponent.natAbs ≤ largestPower then
    if 0 ≤ exponent then
      let product := x * powerOfTen exponent.natAbs
      if product.isInf then none else some product
    else some (x / powerOfTen exponent.natAbs)
  else if x == 0 then some x
  else if 0 ≤ exponent then none
  else scale (x / powerOfTen largestPower) (exponent + largestPower)
termination_by exponent.natAbs
decreasing_by
  simp only [largestPower] at *
  omega

/-- The largest exponent that is looked at; a larger one stands for zero or for no value. -/
def exponentLimit : Nat := 2147483647

/-- The float without its sign. -/
def magnitude? (l : Literal) : Option Float :=
  let (head, dropped) := takeDigits 0 l.whole
  let fraction := l.fraction.getD []
  let (significand, unused) := takeDigits head fraction
  let place : Int := (dropped : Int) + (unused : Int) - (fraction.length : Int)
  match l.exponent with
  | none => scale (Word.toFloat significand) place
  | some (negative, digits) =>
    let n := Nat.ofDigitChars 10 digits 0
    if exponentLimit < n then
      if significand ≠ 0 ∧ !negative then none else some 0
    else scale (Word.toFloat significand) (if negative then place - n else place + n)

/-- The value of a number without fraction and exponent, if it is an integer of the right range. -/
def integer? (l : Literal) : Option Int :=
  let n := Nat.ofDigitChars 10 l.whole 0
  if l.fraction.isSome ∨ l.exponent.isSome then none
  else if l.negative then if 0 < n ∧ n ≤ Word.limit / 2 then some (-n) else none
  else if n < Word.limit then some n else none

/-- The value. -/
def value? (l : Literal) : Option Number :=
  match l.integer? with
  | some i => some (.integer i)
  | none => l.magnitude?.map fun x => .real (if l.negative then -x else x)

end Literal

end TrackedHeap.Json
