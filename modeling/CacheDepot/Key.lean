import CacheDepot.Json.Basic
import CacheDepot.Sha256

/-!
# Keys

Callers name entries by a text or by any other JSON value. A text is used as it is; any other
value is named by the digest of its canonical text, so two objects that differ in the order of
their fields only are one key. A namespace is written before the name with a colon.
-/

namespace CacheDepot

/-- A key as a caller gives it. -/
inductive RawKey where
  | text (name : String)
  | structured (value : Json)

namespace RawKey

/-- A JSON text is a text key; every other value is a structured key. -/
def ofJson : Json → RawKey
  | .string s => .text s
  | other => .structured other

/-- The canonical text of a structured key. -/
def canonicalText (value : Json) : String := value.canonical.text

/-- The digest of a value's canonical text. -/
def digest (value : Json) : String :=
  String.ofList (Sha256.digest (canonicalText value).toUTF8.toList)

/-- The part of a derived key after the namespace. -/
def base : RawKey → String
  | .text s => s
  | .structured value => digest value

/-- The text of a value that may name a field: texts, truth values and numbers. -/
def fieldName? : Json → Option String
  | .string s => some s
  | .bool true => some "true"
  | .bool false => some "false"
  | .number n => some (String.ofList n.text)
  | .null | .array _ | .object _ => none

/-- The structured key made of bindings whose names may be any value; `none` if one cannot name
a field. Of two bindings of one name the later counts. -/
def ofBindings? (bindings : List (Json × Json)) : Option RawKey := do
  let fields ← bindings.mapM fun b => do
    let name ← fieldName? b.1
    pure (name, b.2)
  pure (.structured (.ofFields fields))

end RawKey

/-- A key under which a store keeps an entry. -/
structure CacheKey where
  text : String
  deriving DecidableEq, Repr

namespace CacheKey

/-- The derived key of a raw key in an optional namespace. -/
def derive (namespace? : Option String) (raw : RawKey) : CacheKey :=
  match namespace? with
  | some ns => ⟨ns ++ ":" ++ raw.base⟩
  | none => ⟨raw.base⟩

end CacheKey
end CacheDepot
