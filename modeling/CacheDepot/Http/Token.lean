/-!
# Tokens

Names of header fields, types and parameters are tokens: texts of letters, digits and some marks
that separate nothing.
-/

namespace CacheDepot.Http

/-- The characters of tokens. -/
def isTokenChar (c : Char) : Bool :=
  ('a' ≤ c && c ≤ 'z') || ('A' ≤ c && c ≤ 'Z') || ('0' ≤ c && c ≤ '9') ||
    ['!', '#', '$', '%', '&', '\x27', '*', '+', '-', '.', '^', '_', '\x60', '|', '~'].contains c

/-- Whether a text is a token. -/
def isToken (text : String) : Bool := !text.isEmpty && text.toList.all isTokenChar

end CacheDepot.Http
