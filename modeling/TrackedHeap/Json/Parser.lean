import TrackedHeap.Json.Basic
import TrackedHeap.Json.Token

/-!
# Reading documents

A machine that takes one token after the other. It keeps the containers that are still open, the innermost
first, and knows what may come next. A document is read when the text is used up and a value stands alone.
Since the open containers are data, a text may nest as deeply as it likes.
-/

namespace TrackedHeap.Json

/-- An open container with what it holds so far, the last first. -/
inductive Frame where
  | array (items : List Json)
  /-- The value of the last name is still to come. -/
  | object (members : List (Option String × Json)) (name : Option String)

/-- What may come next. -/
inductive Expecting where
  /-- A value. -/
  | value
  /-- A value or the end of an array. -/
  | item
  /-- A name or the end of an object. -/
  | member
  /-- A name, after the members so far. -/
  | name (members : List (Option String × Json))
  /-- The colon after a name. -/
  | colon
  /-- A comma or the end of an array. -/
  | moreItems (items : List Json)
  /-- A comma or the end of an object. -/
  | moreMembers (members : List (Option String × Json))
  /-- Nothing: the document is complete. -/
  | nothing (document : Json)

/-- The open containers, the innermost first, and what may come next. -/
structure Machine where
  stack : List Frame
  expecting : Expecting

namespace Machine

/-- At the start a value must come. -/
def start : Machine :=
  ⟨[], .value⟩

/-- A value is complete. -/
def deliver (value : Json) : List Frame → Machine
  | [] => ⟨[], .nothing value⟩
  | .array items :: stack => ⟨stack, .moreItems (value :: items)⟩
  | .object members name :: stack => ⟨stack, .moreMembers ((name, value) :: members)⟩

/-- Takes a token where a value must come. -/
def takeValue (stack : List Frame) : Token → Option Machine
  | .null => some (deliver .null stack)
  | .bool b => some (deliver (.bool b) stack)
  | .number (some n) => some (deliver (.number n) stack)
  | .number none => some (deliver .unreadable stack)
  | .string (some s) => some (deliver (.string s) stack)
  | .string none => some (deliver .unreadable stack)
  | .openBracket => some ⟨stack, .item⟩
  | .openBrace => some ⟨stack, .member⟩
  | _ => none

/-- Takes a token. -/
def step (m : Machine) (token : Token) : Option Machine :=
  match m.expecting, token with
  | .value, token => takeValue m.stack token
  | .item, .closeBracket => some (deliver (.array []) m.stack)
  | .item, token => takeValue (.array [] :: m.stack) token
  | .member, .closeBrace => some (deliver (.object []) m.stack)
  | .member, .string name => some ⟨.object [] name :: m.stack, .colon⟩
  | .name members, .string name => some ⟨.object members name :: m.stack, .colon⟩
  | .colon, .colon => some ⟨m.stack, .value⟩
  | .moreItems items, .comma => some ⟨.array items :: m.stack, .value⟩
  | .moreItems items, .closeBracket => some (deliver (.array items.reverse) m.stack)
  | .moreMembers members, .comma => some ⟨m.stack, .name members⟩
  | .moreMembers members, .closeBrace => some (deliver (.object members.reverse) m.stack)
  | _, _ => none

/-- Takes the tokens of a text, as long as they may come. -/
def read (m : Machine) (cs : List Char) : Option Machine :=
  match cs with
  | [] => some m
  | c :: rest =>
    if isSpace c then m.read rest
    else
      match _h : scanToken (c :: rest) with
      | none => none
      | some (token, rest) =>
        match m.step token with
        | none => none
        | some m => m.read rest
termination_by cs.length
decreasing_by
  · simp
  · exact length_scanToken ‹_›

/-- The document, if it is complete. -/
def document? (m : Machine) : Option Json :=
  match m.expecting with
  | .nothing document => some document
  | _ => none

end Machine

/-- The document that a text writes. -/
def parse? (text : String) : Option Json :=
  (Machine.start.read text.toList).bind Machine.document?

end TrackedHeap.Json
