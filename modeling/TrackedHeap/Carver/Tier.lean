/-!
# Tiers of sizes

Requests up to a kibibyte are small, up to 64 kibibytes medium, and above that large.
-/

namespace TrackedHeap

/-- A range of request sizes. -/
inductive Tier where
  | small
  | medium
  | large
deriving DecidableEq, Repr

namespace Tier

def all : List Tier := [small, medium, large]

/-- The spelling in documents. -/
def name : Tier → String
  | small => "small"
  | medium => "medium"
  | large => "large"

/-- The tier of a size. -/
def ofSize (size : Nat) : Tier :=
  if size ≤ 1024 then small else if size ≤ 64 * 1024 then medium else large

end Tier

end TrackedHeap
