import CacheDepot.Http.Token
import CacheDepot.Text.Blank

/-!
# Media types

A media type is a type, a subtype and parameters. JSON is `application/json` and every
application type whose subtype ends in `+json`. Letters may be of either case, and the parameters
must be well formed but do not matter.
-/

namespace CacheDepot.Http.MediaType

/-- The characters of a quoted parameter value. -/
def isQuotable (c : Char) : Bool := 31 < c.toNat && c.toNat ≠ 127

/-- Where in the parameters the check stands; `begun` tells whether a character of the present
part was read. -/
inductive ParameterPart where
  | name (begun : Bool)
  | value (begun : Bool)
  | quoted (begun : Bool)
  /-- After a closing quotation mark. -/
  | afterQuoted
  deriving DecidableEq, Repr

/-- The effect of one character; `none` if it may not stand there. -/
def ParameterPart.next? (part : ParameterPart) (c : Char) : Option ParameterPart :=
  match part with
  | .name begun =>
    if c = ' ' ∧ !begun then some (.name false)
    else if isTokenChar c then some (.name true)
    else if c = '=' ∧ begun then some (.value false)
    else none
  | .value begun =>
    if c = '"' ∧ !begun then some (.quoted false)
    else if isTokenChar c then some (.value true)
    else if c = ';' ∧ begun then some (.name false)
    else none
  | .quoted begun =>
    if c = '"' ∧ begun then some .afterQuoted
    else if isQuotable c then some (.quoted true)
    else none
  | .afterQuoted =>
    if c = ';' then some (.name false)
    else if c = ' ' then some .afterQuoted
    else none

/-- Whether the parameters may end here. -/
def ParameterPart.mayEnd : ParameterPart → Bool
  | .name begun => !begun
  | .value _ => true
  | .quoted _ => false
  | .afterQuoted => true

/-- Whether the text after the first semicolon is a list of parameters. -/
def areParameters (cs : List Char) : Bool :=
  match cs.foldlM ParameterPart.next? (.name false) with
  | some part => part.mayEnd
  | none => false

/-- The subtype before and after its last plus sign that is not its first character. -/
def splitSuffix (subtype : List Char) : List Char × Option (List Char) :=
  let reversed := subtype.reverse
  let suffix := (reversed.takeWhile (· ≠ '+')).reverse
  match (reversed.dropWhile (· ≠ '+')) with
  | '+' :: before =>
    if before.isEmpty then (subtype, none) else (before.reverse, some suffix)
  | _ => (subtype, none)

/-- Whether a media type is JSON. -/
def isJson (text : String) : Bool :=
  let cs := text.toList
  let main := cs.takeWhile isTokenChar
  match cs.dropWhile isTokenChar with
  | '/' :: rest =>
    let subtype := rest.takeWhile isTokenChar
    let wellFormed := match rest.dropWhile isTokenChar with
      | [] => true
      | ';' :: parameters => !subtype.isEmpty && areParameters parameters
      | _ => false
    let lower := List.map Text.lowerAscii
    let (name, suffix) := splitSuffix subtype
    wellFormed && lower main == "application".toList &&
      (lower name == "json".toList || suffix.map lower == some "json".toList)
  | _ => false

end CacheDepot.Http.MediaType
