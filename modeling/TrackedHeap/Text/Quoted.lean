import TrackedHeap.Text.Graphic

/-!
# Quoted texts

How a text is shown to a programmer: between quotes, with a backslash before quotes and backslashes, the
letters `0`, `t`, `r` and `n` for the characters that have one, and the code point of every other
character that is not graphic.
-/

namespace TrackedHeap.Text

/-- A character as it stands between quotes. -/
def showChar (c : Char) : List Char :=
  if c = '\x00' then ['\\', '0']
  else if c = '\t' then ['\\', 't']
  else if c = '\r' then ['\\', 'r']
  else if c = '\n' then ['\\', 'n']
  else if c = '"' then ['\\', '"']
  else if c = '\\' then ['\\', '\\']
  else if isGraphic c then [c]
  else ['\\', 'u', '{'] ++ Nat.toDigits 16 c.toNat ++ ['}']

/-- The text between quotes. -/
def quoted (s : String) : String :=
  String.ofList ('"' :: (s.toList.flatMap showChar ++ ['"']))

end TrackedHeap.Text
