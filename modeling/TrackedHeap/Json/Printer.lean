import TrackedHeap.Decimal.Shortest
import TrackedHeap.Json.Basic

/-!
# Writing documents

Two ways of writing a document: on one line without spaces, and over lines with two spaces more for each
level. Both write strings and numbers alike. In a string a quote, a backslash and the characters below the
space are escaped, by a letter if they have one; all others stand for themselves.
-/

namespace TrackedHeap.Json

/-- The digit of a value below 16. -/
def hexDigit (n : Nat) : Char :=
  Nat.digitChar n

/-- A character as it stands in a string. -/
def escape (c : Char) : List Char :=
  if c = '"' then ['\\', '"']
  else if c = '\\' then ['\\', '\\']
  else if c = '\x08' then ['\\', 'b']
  else if c = '\x0c' then ['\\', 'f']
  else if c = '\n' then ['\\', 'n']
  else if c = '\r' then ['\\', 'r']
  else if c = '\t' then ['\\', 't']
  else if c < ' ' then
    ['\\', 'u', '0', '0', hexDigit (c.toNat / 16), hexDigit (c.toNat % 16)]
  else [c]

/-- A string between quotes. -/
def quote (s : String) : List Char :=
  '"' :: (s.toList.flatMap escape ++ ['"'])

/-- A whole number. -/
def writeInteger : Int → List Char
  | .ofNat n => Nat.toDigits 10 n
  | .negSucc n => '-' :: Nat.toDigits 10 (n + 1)

/-- How floats are written: `1.5`, `150.0`, `1e300`, `1.5e-7`. -/
def floatLayout : Decimal.Layout where
  smallestPoint := -4
  largestPoint := 16

/-- A number. What is no number or infinite is written as null. -/
def writeNumber : Number → List Char
  | .integer i => writeInteger i
  | .real x => (Decimal.write? floatLayout x).getD ['n', 'u', 'l', 'l']

/-- The name of a member. -/
def writeName (name : Option String) : List Char :=
  quote (name.getD "")

mutual

/-- A document on one line. -/
def write : Json → List Char
  | .null => ['n', 'u', 'l', 'l']
  | .bool true => ['t', 'r', 'u', 'e']
  | .bool false => ['f', 'a', 'l', 's', 'e']
  | .number n => writeNumber n
  | .string s => quote s
  | .unreadable => ['n', 'u', 'l', 'l']
  | .array [] => ['[', ']']
  | .array (j :: rest) => '[' :: (write j ++ writeItems rest)
  | .object [] => ['{', '}']
  | .object ((name, j) :: rest) => '{' :: (writeName name ++ ':' :: (write j ++ writeMembers rest))

/-- The items after the first, and the end of the array. -/
def writeItems : List Json → List Char
  | [] => [']']
  | j :: rest => ',' :: (write j ++ writeItems rest)

/-- The members after the first, and the end of the object. -/
def writeMembers : List (Option String × Json) → List Char
  | [] => ['}']
  | (name, j) :: rest => ',' :: (writeName name ++ ':' :: (write j ++ writeMembers rest))

end

/-- A new line of a level. -/
def newLine (level : Nat) : List Char :=
  '\n' :: List.replicate (2 * level) ' '

mutual

/-- A document over lines. -/
def writeLines (level : Nat) : Json → List Char
  | .array (j :: rest) =>
    '[' :: (newLine (level + 1) ++ writeLines (level + 1) j ++ writeItemLines level rest)
  | .object ((name, j) :: rest) =>
    '{' :: (newLine (level + 1) ++ writeName name ++ ':' :: ' ' :: writeLines (level + 1) j ++
      writeMemberLines level rest)
  | .array [] => ['[', ']']
  | .object [] => ['{', '}']
  | .null => ['n', 'u', 'l', 'l']
  | .bool true => ['t', 'r', 'u', 'e']
  | .bool false => ['f', 'a', 'l', 's', 'e']
  | .number n => writeNumber n
  | .string s => quote s
  | .unreadable => ['n', 'u', 'l', 'l']

/-- The items after the first, and the end of the array. -/
def writeItemLines (level : Nat) : List Json → List Char
  | [] => newLine level ++ [']']
  | j :: rest =>
    ',' :: (newLine (level + 1) ++ writeLines (level + 1) j ++ writeItemLines level rest)

/-- The members after the first, and the end of the object. -/
def writeMemberLines (level : Nat) : List (Option String × Json) → List Char
  | [] => newLine level ++ ['}']
  | (name, j) :: rest =>
    ',' :: (newLine (level + 1) ++ writeName name ++ ':' :: ' ' :: writeLines (level + 1) j ++
      writeMemberLines level rest)

end

/-- The text of a document on one line. -/
def render (j : Json) : String :=
  String.ofList j.write

/-- The text of a document over lines. -/
def renderLines (j : Json) : String :=
  String.ofList (j.writeLines 0)

end TrackedHeap.Json
