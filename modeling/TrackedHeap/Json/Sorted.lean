import TrackedHeap.Json.Basic

/-!
# Documents with sorted members

The same document with the members of every object in the order of their names.
-/

namespace TrackedHeap.Json

/-- Whether a member may stand before another. -/
def memberLe (a b : Option String × Json) : Bool :=
  decide (a.1.getD "" ≤ b.1.getD "")

mutual

/-- The document with all members sorted by name. -/
def sorted : Json → Json
  | .array items => .array (sortedItems items)
  | .object members => .object ((sortedMembers members).mergeSort memberLe)
  | j => j

def sortedItems : List Json → List Json
  | [] => []
  | j :: rest => sorted j :: sortedItems rest

def sortedMembers : List (Option String × Json) → List (Option String × Json)
  | [] => []
  | (name, j) :: rest => (name, sorted j) :: sortedMembers rest

end

end TrackedHeap.Json
