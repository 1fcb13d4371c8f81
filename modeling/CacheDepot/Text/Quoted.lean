import CacheDepot.Text.Invisible

/-!
# Quoted names

Names in descriptions of stores and queued writes stand in quotation marks. What could not be
seen or would end the quotation is escaped, by a short escape where there is one and otherwise
by its code point in braces.
-/

namespace CacheDepot.Text

/-- The digits of a code point in lower-case hexadecimal. -/
def codePointDigits (c : Char) : List Char := Nat.toDigits 16 c.toNat

/-- How a character is written in a quoted name. -/
def quoteChar (c : Char) : List Char :=
  if c = '\x00' then ['\\', '0']
  else if c = '\t' then ['\\', 't']
  else if c = '\r' then ['\\', 'r']
  else if c = '\n' then ['\\', 'n']
  else if c = '"' then ['\\', '"']
  else if c = '\\' then ['\\', '\\']
  else if isInvisible c then ['\\', 'u', '\x7b'] ++ codePointDigits c ++ ['\x7d']
  else [c]

/-- A name in quotation marks. -/
def quoteName (name : String) : String :=
  String.ofList ('"' :: (name.toList.flatMap quoteChar ++ ['"']))

end CacheDepot.Text
