import CacheDepot.Json.Reader

/-!
# Percent escapes

A percent sign and two hexadecimal digits stand for a byte. Anything else stands for itself, also
a percent sign that no two digits follow. The bytes must be the UTF-8 form of a text.
-/

namespace CacheDepot.Http.Percent

/-- The byte written as two hexadecimal digits. -/
def byte? (high low : Char) : Option UInt8 := do
  let high ← Json.hexDigit? high
  let low ← Json.hexDigit? low
  pure (UInt8.ofNat (high * 16 + low))

/-- The bytes of one character. -/
def charBytes (c : Char) : List UInt8 := (String.singleton c).toUTF8.toList

/-- The bytes that a text with escapes stands for. -/
def bytes : List Char → List UInt8
  | '%' :: high :: low :: rest =>
    match byte? high low with
    | some b => b :: bytes rest
    | none => charBytes '%' ++ bytes (high :: low :: rest)
  | c :: rest => charBytes c ++ bytes rest
  | [] => []
  termination_by cs => cs.length

/-- The text that a text with escapes stands for; `none` if its bytes are not UTF-8. -/
def decode? (text : String) : Option String :=
  String.fromUTF8? ⟨(bytes text.toList).toArray⟩

end CacheDepot.Http.Percent
