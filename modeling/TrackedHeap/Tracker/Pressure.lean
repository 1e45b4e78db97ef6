import TrackedHeap.Word

/-!
# Pressure

How near the bytes in use come to a budget: the share in use is medium from 0.60 on, high from 0.80 on
and critical from 0.95 on. Without a budget there is no pressure.
-/

namespace TrackedHeap

/-- How near the bytes in use come to the budget. -/
inductive Pressure where
  | low
  | medium
  | high
  | critical
deriving DecidableEq, Repr

namespace Pressure

def all : List Pressure := [low, medium, high, critical]

/-- The spelling in documents. -/
def name : Pressure → String
  | low => "Low"
  | medium => "Medium"
  | high => "High"
  | critical => "Critical"

/-- The spelling for a reader. -/
def display : Pressure → String
  | low => "LOW"
  | medium => "MEDIUM"
  | high => "HIGH"
  | critical => "CRITICAL"

/-- The pressure at a share in use. The share of a budget of 0 is no number or infinite: nothing in use
is then low pressure, and anything critical. -/
def ofShare (share : Float) : Pressure :=
  if share ≥ 0.95 then critical
  else if share ≥ 0.80 then high
  else if share ≥ 0.60 then medium
  else low

/-- The pressure of `used` bytes on a budget. -/
def ofUse (budget : Option Nat) (used : Nat) : Pressure :=
  match budget with
  | none => low
  | some bytes => ofShare (Word.toFloat used / Word.toFloat bytes)

end Pressure

end TrackedHeap
