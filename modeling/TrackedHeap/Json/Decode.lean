import TrackedHeap.Json.Basic

/-!
# Reading forms

How values are read from documents. A `Reader α` is given the room left for nesting and a document, and has
a value or none. The room is what is left of 128 levels; every array or object that a reader looks into
takes one level and must leave one, and what it passes over takes none.

* A record is an object in which the known names occur at most once, in any order and among others, or an
  array of the fields in their order.
* A choice among names is a string, or an object with that name alone and the value null.
-/

namespace TrackedHeap.Json

/-- Reads a document, given the room left for nesting. -/
abbrev Reader (α : Type) := Nat → Json → Option α

/-- The levels of nesting that readers may look into, and one more. -/
def nestingLimit : Nat := 128

/-- The room inside a container. -/
def enter (room : Nat) : Option Nat :=
  if 2 ≤ room then some (room - 1) else none

namespace Reader

/-- A natural number that is a word. -/
def word : Reader Nat
  | _, .number (.integer (.ofNat n)) => some n
  | _, _ => none

/-- A truth value. -/
def bool : Reader Bool
  | _, .bool b => some b
  | _, _ => none

/-- A text. -/
def string : Reader String
  | _, .string s => some s
  | _, _ => none

/-- The float nearest to an integer. -/
def ofInteger : Int → Float
  | .ofNat n => Word.toFloat n
  | .negSucc n => -Word.toFloat (n + 1)

/-- A float, from any number that has a value. -/
def float : Reader Float
  | _, .number (.integer i) => some (ofInteger i)
  | _, .number (.real x) => some x
  | _, _ => none

/-- Null for nothing, or a value. -/
def nullable {α : Type} (reader : Reader α) : Reader (Option α)
  | _, .null => some none
  | room, j => (reader room j).map some

/-- An array of values. -/
def array {α : Type} (reader : Reader α) : Reader (List α)
  | room, .array items => do
    let room ← enter room
    items.mapM (reader room)
  | _, _ => none

/-- The value that stands for a name among some. -/
def choice {α : Type} (values : List α) (name : α → String) : Reader α
  | _, .string s => values.find? fun a => name a == s
  | room, .object [(some s, .null)] => do
    let _ ← enter room
    values.find? fun a => name a == s
  | _, _ => none

/-! ## Records -/

/-- What a document has for a field of a record. -/
inductive Slot where
  | given (j : Json)
  /-- The object has no such member. -/
  | omitted
  /-- The array ends before it. -/
  | cut

/-- Members by name, if every name has a value and no known one occurs twice. -/
def members? (fields : List String) : List (Option String × Json) → Option (List (String × Json))
  | [] => some []
  | (none, _) :: _ => none
  | (some name, j) :: rest => do
    let found ← members? fields rest
    if fields.contains name && found.any (fun m => m.1 == name) then none
    else some ((name, j) :: found)

/-- What members hold for a field. -/
def memberSlot (members : List (String × Json)) (field : String) : Slot :=
  match members.lookup field with
  | some j => .given j
  | none => .omitted

/-- What an array holds for a field. -/
def itemSlot (fields : List String) (items : List Json) (field : String) : Slot :=
  match (fields.zip items).lookup field with
  | some j => .given j
  | none => .cut

/-- What an object holds for each field, and the room inside it. -/
def object (fields : List String) : Reader (Nat × (String → Slot))
  | room, .object members => do
    let room ← enter room
    let found ← members? fields members
    return (room, memberSlot found)
  | _, _ => none

/-- What an object or an array holds for each field, and the room inside it. -/
def record (fields : List String) : Reader (Nat × (String → Slot))
  | room, .array items => do
    let room ← enter room
    if fields.length < items.length then none
    else some (room, itemSlot fields items)
  | room, j => object fields room j

/-- A field that must be there. -/
def required {α : Type} (reader : Reader α) (room : Nat) : Slot → Option α
  | .given j => reader room j
  | _ => none

/-- A field that an object may leave out or set to null. -/
def optional {α : Type} (reader : Reader α) (room : Nat) : Slot → Option (Option α)
  | .given j => nullable reader room j
  | .omitted => some none
  | .cut => none

/-- A field with a value that it has where nothing is said. -/
def defaulted {α : Type} (value : α) (reader : Reader α) (room : Nat) : Slot → Option α
  | .given j => reader room j
  | _ => some value

/-! ## Documents that are kept before they are read -/

mutual

/-- Whether a whole document has a value and fits into the room. -/
def readable (room : Nat) : Json → Bool
  | .unreadable => false
  | .array items => 2 ≤ room && readableItems (room - 1) items
  | .object members => 2 ≤ room && readableMembers (room - 1) members
  | _ => true

def readableItems (room : Nat) : List Json → Bool
  | [] => true
  | j :: rest => readable room j && readableItems room rest

def readableMembers (room : Nat) : List (Option String × Json) → Bool
  | [] => true
  | (name, j) :: rest => name.isSome && readable room j && readableMembers room rest

end

end Reader

end TrackedHeap.Json
