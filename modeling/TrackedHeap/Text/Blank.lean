/-!
# White space

The characters of the Unicode property `White_Space`, and what is left of a text without those at its
ends. Lower-casing is that of ASCII: it leaves every other letter alone.
-/

namespace TrackedHeap.Text

/-- A character of the property `White_Space`. -/
def isBlank (c : Char) : Bool :=
  let n := c.toNat
  (9 ≤ n && n ≤ 13) || n == 0x20 || n == 0x85 || n == 0xA0 || n == 0x1680 ||
    (0x2000 ≤ n && n ≤ 0x200A) || n == 0x2028 || n == 0x2029 || n == 0x202F || n == 0x205F ||
    n == 0x3000

/-- The characters without the blanks at both ends. -/
def trimChars (cs : List Char) : List Char :=
  ((cs.dropWhile isBlank).reverse.dropWhile isBlank).reverse

/-- The text without the blanks at both ends. -/
def trim (s : String) : String :=
  String.ofList (trimChars s.toList)

/-- Whether all characters are blanks. -/
def allBlank (s : String) : Bool :=
  s.toList.all isBlank

/-- The text with the letters `A` to `Z` made small. -/
def lower (s : String) : String :=
  String.ofList (s.toList.map Char.toLower)

end TrackedHeap.Text
