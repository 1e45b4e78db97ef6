import TrackedHeap.Json.Number

/-!
# Documents

The tree of a JSON document. The members of an object stand in the order of the text, and a name may occur
more than once: what that means is for the reader of a form to say.

Two things can be well formed and have no value: a number beyond all finite floats, and a string in which an
escape names half of a surrogate pair. The first is `unreadable`, the second `unreadable` or, as a name,
`none`. Neither is in the way of a reader who passes over it.
-/

namespace TrackedHeap

/-- A JSON document. -/
inductive Json where
  | null
  | bool (b : Bool)
  | number (n : Json.Number)
  | string (s : String)
  /-- A number or a string without value. -/
  | unreadable
  | array (items : List Json)
  | object (members : List (Option String × Json))

namespace Json

/-- A natural number. -/
def natural (n : Nat) : Json :=
  .number (.integer n)

/-- A float. -/
def real (x : Float) : Json :=
  .number (.real x)

/-- An object with the given members. -/
def record (members : List (String × Json)) : Json :=
  .object (members.map fun (name, value) => (some name, value))

end Json

end TrackedHeap
