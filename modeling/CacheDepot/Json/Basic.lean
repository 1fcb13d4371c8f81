import CacheDepot.Json.Number
import CacheDepot.Ordered

/-!
# JSON values and their text

A value is written compactly, without blanks, and an object's fields in the order in which it
holds them. Objects built by `Json.ofFields` hold each field once and in the order of the field
names, so equal objects have equal texts.
-/

namespace CacheDepot

/-- A JSON value. -/
inductive Json where
  | null
  | bool (value : Bool)
  | number (value : Json.Number)
  | string (value : String)
  | array (items : List Json)
  | object (fields : List (String × Json))

namespace Json

instance : Inhabited Json := ⟨.null⟩

/-- Whether this is the value `null`. -/
def isNull : Json → Bool
  | .null => true
  | _ => false

/-- An object from fields in any order; of a repeated field the last value counts. -/
def ofFields (fields : List (String × Json)) : Json :=
  .object (Ordered.ofList fields)

/-- A natural number as a value. -/
def ofNat (n : Nat) : Json := .number (.int n)

/-- An integer as a value. -/
def ofInt (i : Int) : Json := .number (.int i)

/-- A text, or `null` for none. -/
def ofText? : Option String → Json
  | some text => .string text
  | none => .null

mutual

/-- The value with the fields of all its objects sorted, each field once. -/
def canonical : Json → Json
  | .null => .null
  | .bool b => .bool b
  | .number n => .number n
  | .string s => .string s
  | .array items => .array (canonicalItems items)
  | .object fields => ofFields (canonicalFields fields)

/-- `canonical` on every item. -/
def canonicalItems : List Json → List Json
  | [] => []
  | v :: rest => canonical v :: canonicalItems rest

/-- `canonical` on every field's value. -/
def canonicalFields : List (String × Json) → List (String × Json)
  | [] => []
  | (name, v) :: rest => (name, canonical v) :: canonicalFields rest

end

/-! ## Text -/

/-- A digit of a control character's escape. -/
def hexDigit (n : Nat) : Char :=
  if n < 10 then Char.ofNat (48 + n) else Char.ofNat (87 + n)

/-- How a character is written inside quotes: quotation mark, backslash and control characters
are escaped and nothing else is. -/
def escapeChar (c : Char) : List Char :=
  if c = '"' then ['\\', '"']
  else if c = '\\' then ['\\', '\\']
  else if c = '\x08' then ['\\', 'b']
  else if c = '\x0c' then ['\\', 'f']
  else if c = '\n' then ['\\', 'n']
  else if c = '\r' then ['\\', 'r']
  else if c = '\t' then ['\\', 't']
  else if c.toNat < 32 then
    ['\\', 'u', '0', '0', hexDigit (c.toNat / 16), hexDigit (c.toNat % 16)]
  else [c]

/-- A text in quotes. -/
def quote (s : String) : List Char :=
  '"' :: (s.toList.flatMap escapeChar ++ ['"'])

mutual

/-- The compact text of a value. -/
def render : Json → List Char
  | .null => ['n', 'u', 'l', 'l']
  | .bool true => ['t', 'r', 'u', 'e']
  | .bool false => ['f', 'a', 'l', 's', 'e']
  | .number n => n.text
  | .string s => quote s
  | .array items => '[' :: (renderItems items ++ [']'])
  | .object fields => '\x7b' :: (renderFields fields ++ ['\x7d'])

/-- The items of an array with commas between them. -/
def renderItems : List Json → List Char
  | [] => []
  | v :: rest => render v ++ renderMoreItems rest

/-- Items that follow another. -/
def renderMoreItems : List Json → List Char
  | [] => []
  | v :: rest => ',' :: (render v ++ renderMoreItems rest)

/-- The fields of an object with commas between them. -/
def renderFields : List (String × Json) → List Char
  | [] => []
  | (name, v) :: rest => quote name ++ ':' :: (render v ++ renderMoreFields rest)

/-- Fields that follow another. -/
def renderMoreFields : List (String × Json) → List Char
  | [] => []
  | (name, v) :: rest => ',' :: (quote name ++ ':' :: (render v ++ renderMoreFields rest))

end

/-- The compact text of a value as a string. -/
def text (v : Json) : String := String.ofList v.render

end Json
end CacheDepot
