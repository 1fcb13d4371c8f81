import CacheDepot.Http.Token
import CacheDepot.Text.Blank

/-!
# Header fields

Names of header fields are tokens and have small letters only; a name may occur several times, and
the order of its values counts. A value may hold anything but control characters, yet only values
of visible ASCII characters, spaces and tabs can be read as text.
-/

namespace CacheDepot.Http

/-- Header fields in the order in which they were added. -/
abbrev Headers := List (String × String)

/-- Whether a text may be the value of a field. -/
def isFieldValue (value : String) : Bool :=
  value.toList.all fun c => c = '\t' || (32 ≤ c.toNat && c.toNat ≠ 127)

/-- Whether a field's value can be read as text. -/
def isReadable (value : String) : Bool :=
  value.toList.all fun c => c = '\t' || (32 ≤ c.toNat && c.toNat ≤ 126)

namespace Headers

/-- Adds a field after those already there. -/
def add (headers : Headers) (name value : String) : Headers :=
  headers ++ [(Text.lowerAsciiText name, value)]

/-- Makes `value` the only value of a field. -/
def set (headers : Headers) (name value : String) : Headers :=
  headers.filter (fun h => h.1 ≠ name) ++ [(name, value)]

/-- The values of a field. -/
def values (headers : Headers) (name : String) : List String :=
  (headers.filter fun h => h.1 = name).map Prod.snd

/-- The first value of a field. -/
def get? (headers : Headers) (name : String) : Option String :=
  headers.lookup name

/-- The first value of a field, if it can be read as text. -/
def text? (headers : Headers) (name : String) : Option String :=
  (get? headers name).filter isReadable

/-- Those fields that may stand in a header. -/
def admissible (fields : List (String × String)) : List (String × String) :=
  fields.filter fun f => isToken f.1 && isFieldValue f.2

/-- Fields given in any spelling, each added to those before it. What may not stand in a header is
left out. -/
def ofList (fields : List (String × String)) : Headers :=
  (admissible fields).foldl (fun headers f => add headers f.1 f.2) []

/-- Fields given in any spelling, each in place of an earlier one of its name. What may not stand in
a header is left out and replaces nothing. -/
def ofUpdates (fields : List (String × String)) : Headers :=
  (admissible fields).foldl (fun headers f => set headers (Text.lowerAsciiText f.1) f.2) []

end Headers
end CacheDepot.Http
