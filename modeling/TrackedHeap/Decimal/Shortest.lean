/-!
# The shortest decimals of floats

A finite float is written with the fewest digits of which it is the nearest float, and of those with the
digits nearest to it. `Decimal.shortest` finds them in exact arithmetic: the reals of which a float
`m * 2 ^ q` is the nearest float are an interval, and for one digit, two digits and so on the two multiples
of a power of ten next to the float are looked for in it.

A `Layout` says where the point goes and from where on an exponent is written.
-/

namespace TrackedHeap.Decimal

/-- A positive float as `mantissa * 2 ^ exponent`, with the neighbour below at half the usual distance
where the float is the first with its exponent. -/
structure Binary where
  mantissa : Nat
  exponent : Int
  /-- Whether the neighbour below is nearer than the one above. -/
  narrowBelow : Bool

/-- The parts of a float that is neither zero nor infinite nor no number, without its sign. -/
def binary (x : Float) : Binary :=
  let bits := x.toBits.toNat
  let fraction : Nat := bits % (1 <<< 52)
  let power : Nat := bits / (1 <<< 52) % (1 <<< 11)
  if power = 0 then ⟨fraction, -1074, false⟩
  else ⟨(1 <<< 52) + fraction, (power : Int) - 1075, fraction == 0 && 1 < power⟩

/-- The digits of a natural number and the power of ten that the number is to be multiplied by. -/
structure Digits where
  significand : Nat
  power : Int
deriving DecidableEq, Repr

/-- A power of 2 or 10 as numerator and denominator. -/
def fractionOf (base : Nat) (e : Int) : Nat × Nat :=
  if 0 ≤ e then (Nat.pow base e.toNat, 1) else (1, Nat.pow base (-e).toNat)

/-- Four times a float, and four times the ends of its interval, in units of `10 ^ power`: three
numerators over one denominator. -/
structure Scaled where
  low : Nat
  value : Nat
  high : Nat
  denominator : Nat

def Binary.scaled (b : Binary) (power : Int) : Scaled :=
  let (n, d) := fractionOf 2 b.exponent
  let (n', d') := fractionOf 10 power
  let unit := n * d'
  { low := (4 * b.mantissa - if b.narrowBelow then 1 else 2) * unit
    value := 4 * b.mantissa * unit
    high := (4 * b.mantissa + 2) * unit
    denominator := 4 * d * n' }

/-- Whether a multiple of the unit lies in the interval, whose ends belong to it if the mantissa is
even. -/
def Scaled.holds (s : Scaled) (closed : Bool) (n : Nat) : Bool :=
  let x := n * s.denominator
  if closed then s.low ≤ x && x ≤ s.high else s.low < x && x < s.high

/-- The multiple of `10 ^ power` nearest to a float, if the float is the nearest to one of the two next to
it; of two equally near the even one. -/
def Binary.atPower (b : Binary) (power : Int) : Option Nat :=
  let s := b.scaled power
  let closed := b.mantissa % 2 == 0
  let below := s.value / s.denominator
  let above := below + 1
  let below? := 0 < below && s.holds closed below
  let above? := s.holds closed above
  let toBelow := s.value - below * s.denominator
  let toAbove := above * s.denominator - s.value
  if below? && above? then
    if toBelow < toAbove then some below
    else if toAbove < toBelow then some above
    else if below % 2 = 0 then some below else some above
  else if below? then some below
  else if above? then some above
  else none

/-- The number of digits of a natural number. -/
def digitCount (n : Nat) : Nat :=
  (Nat.toDigits 10 n).length

/-- The power of ten at or below a positive float: it has its first digit there. -/
def Binary.magnitude (b : Binary) : Int :=
  let (n, d) := fractionOf 2 b.exponent
  let n := n * b.mantissa
  if d ≤ n then (digitCount (n / d) : Int) - 1
  else
    let k := digitCount (d / n)
    if d ≤ n * Nat.pow 10 (k - 1) then 1 - (k : Int) else -(k : Int)

/-- Drops the zeros at the end. -/
def Digits.trimmed : Nat → Digits → Digits
  | 0, d => d
  | n + 1, d =>
    if d.significand % 10 = 0 then trimmed n ⟨d.significand / 10, d.power + 1⟩ else d

/-- The fewest digits, from `count` on, of which a float is the nearest, if `fuel` more are enough. -/
def Binary.search (b : Binary) (magnitude : Int) : (fuel count : Nat) → Option Digits
  | 0, _ => none
  | fuel + 1, count =>
    let power := magnitude - (count : Int) + 1
    match b.atPower power with
    | some n => some ⟨n, power⟩
    | none => search b magnitude fuel (count + 1)

/-- The shortest digits of a positive float; 17 are always enough. -/
def shortest (x : Float) : Digits :=
  let b := binary x
  let found := (b.search b.magnitude 17 1).getD ⟨b.mantissa, 0⟩
  found.trimmed 20

/-- Where a decimal has its point, and from where on it has an exponent. -/
structure Layout where
  /-- The least place of the point, counted from the first digit, that is written without exponent. -/
  smallestPoint : Int
  /-- The greatest. -/
  largestPoint : Int

/-- Digits with a point after the first, if there are more. -/
def pointed : List Char → List Char
  | d :: e :: rest => d :: '.' :: e :: rest
  | ds => ds

/-- A whole number. -/
def writeExponent (e : Int) : List Char :=
  match e with
  | .ofNat n => Nat.toDigits 10 n
  | .negSucc n => '-' :: Nat.toDigits 10 (n + 1)

/-- Digits with their point: a whole number has `.0` at its end. -/
def Layout.write (l : Layout) (d : Digits) : List Char :=
  let digits := Nat.toDigits 10 d.significand
  let point := (digits.length : Int) + d.power
  if point < l.smallestPoint ∨ l.largestPoint < point then
    pointed digits ++ 'e' :: writeExponent (point - 1)
  else if 0 ≤ d.power then digits ++ List.replicate d.power.toNat '0' ++ ['.', '0']
  else if 0 < point then digits.take point.toNat ++ '.' :: digits.drop point.toNat
  else '0' :: '.' :: (List.replicate (-point).toNat '0' ++ digits)

/-- A float in its shortest form; `none` if it is infinite or no number. -/
def write? (l : Layout) (x : Float) : Option (List Char) :=
  if x.isNaN || x.isInf then none
  else
    let sign := if x.toBits.toNat < 1 <<< 63 then [] else ['-']
    if x == 0 then some (sign ++ ['0', '.', '0'])
    else some (sign ++ l.write (shortest x))

end TrackedHeap.Decimal
