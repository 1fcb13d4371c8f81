/-!
# Blanks around settings

Settings may have blanks around them: every character with the Unicode property of white space.
-/

namespace CacheDepot.Text

/-- Whether a character is white space. -/
def isBlank (c : Char) : Bool :=
  let n := c.toNat
  (9 ≤ n && n ≤ 13) || n == 0x20 || n == 0x85 || n == 0xa0 || n == 0x1680 ||
    (0x2000 ≤ n && n ≤ 0x200a) || n == 0x2028 || n == 0x2029 || n == 0x202f || n == 0x205f ||
    n == 0x3000

/-- Removes blanks at both ends. -/
def trimBlanks (cs : List Char) : List Char :=
  ((cs.dropWhile isBlank).reverse.dropWhile isBlank).reverse

/-- Capital letters of the alphabet made small; every other character stays. -/
def lowerAscii (c : Char) : Char :=
  if 'A' ≤ c ∧ c ≤ 'Z' then Char.ofNat (c.toNat + 32) else c

/-- A text with its capital letters made small. -/
def lowerAsciiText (s : String) : String := String.ofList (s.toList.map lowerAscii)

example : trimBlanks [' ', '\t', 'a', ' ', 'b', '\x0c'] = ['a', ' ', 'b'] := by decide

end CacheDepot.Text
