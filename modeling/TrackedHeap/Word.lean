/-!
# Machine words

Sizes, addresses, block ids and timestamps are natural numbers below `2 ^ 64`. Arithmetic on them is
arithmetic of natural numbers; the places where the width of a word shows are written with one of the
operations below, each named for what it does at the limit:

* `Word.add?` refuses a sum that does not fit;
* `Word.addSat` stays at the largest word;
* `Word.addWrap` and `Word.subWrap` go round.
-/

namespace TrackedHeap

namespace Word

/-- The number of words, `2 ^ 64`. -/
def limit : Nat := 18446744073709551616

/-- The largest word. -/
def largest : Nat := limit - 1

/-- The sum, if it is a word. -/
def add? (a b : Nat) : Option Nat :=
  if a + b < limit then some (a + b) else none

/-- The sum, or the largest word if the sum is larger. -/
def addSat (a b : Nat) : Nat :=
  min (a + b) largest

/-- The sum modulo the number of words. -/
def addWrap (a b : Nat) : Nat :=
  (a + b) % limit

/-- The difference modulo the number of words. -/
def subWrap (a b : Nat) : Nat :=
  (a + (limit - b % limit)) % limit

/-- The float nearest to a word, ties to even. -/
def toFloat (n : Nat) : Float :=
  (UInt64.ofNat n).toFloat

theorem add?_eq_some {a b c : Nat} : add? a b = some c ↔ a + b = c ∧ c < limit := by
  unfold add?
  split <;> simp <;> omega

theorem add?_eq_none {a b : Nat} : add? a b = none ↔ limit ≤ a + b := by
  unfold add?
  split <;> simp <;> omega

theorem addWrap_eq {a b : Nat} (h : a + b < limit) : addWrap a b = a + b :=
  Nat.mod_eq_of_lt h

theorem subWrap_eq {a b : Nat} (h : b ≤ a) (ha : a < limit) : subWrap a b = a - b := by
  have hb : b % limit = b := Nat.mod_eq_of_lt (Nat.lt_of_le_of_lt h ha)
  unfold subWrap
  rw [hb, show a + (limit - b) = (a - b) + limit by omega, Nat.add_mod_right]
  exact Nat.mod_eq_of_lt (by omega)

end Word

end TrackedHeap
