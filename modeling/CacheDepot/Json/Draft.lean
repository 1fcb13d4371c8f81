import CacheDepot.Json.Basic

/-!
# JSON texts as far as they can be read

A `Draft` is what a text says up to the first place where it stops being JSON. Whoever reads a
value from a draft goes through it from left to right, so the first problem met decides what the
text is refused for: a fault of the text, or a value of the wrong shape standing before it.
-/

namespace CacheDepot.Json

/-- Why a text was refused. -/
inductive Fault where
  /-- The text ended too early. -/
  | ended
  /-- The text is not JSON. -/
  | malformed
  /-- The text is JSON so far and has the wrong shape. -/
  | mismatched
  deriving DecidableEq, Repr

/-- The place where a text stops being JSON. Reading and skipping can meet different faults: an
escape that spells no character is refused only where the characters matter, and a numeral without
its last digits has ended too early only for those who read it. -/
structure Cut where
  read : Fault
  skipped : Fault
  deriving DecidableEq, Repr

/-- A fault met by readers and by those who skip the value. -/
def Cut.both (fault : Fault) : Cut := ⟨fault, fault⟩

/-- A value as far as it was written. -/
inductive Draft where
  | null
  | bool (value : Bool)
  /-- `none` for a number beyond the largest double. -/
  | number (value : Option Number)
  /-- `none` for a text with an escape that spells half a character. -/
  | string (value : Option String)
  | array (items : List Draft) (cut : Option Cut)
  | object (fields : List (Option String × Draft)) (cut : Option Cut)
  /-- The text stops being JSON inside or before this value. -/
  | broken (cut : Cut)

namespace Draft

/-- The fault of stopping here, if it is one. -/
def stopped : Option Cut → Except Fault Unit
  | none => .ok ()
  | some cut => .error cut.read

mutual

/-- Passes over a value that is not wanted; only the form of the text counts. -/
def skip : Draft → Except Fault Unit
  | .null | .bool _ | .number _ | .string _ => .ok ()
  | .array items cut => do
    skipItems items
    match cut with
    | none => .ok ()
    | some c => .error c.skipped
  | .object fields cut => do
    skipFields fields
    match cut with
    | none => .ok ()
    | some c => .error c.skipped
  | .broken c => .error c.skipped

/-- Passes over the items of an array. -/
def skipItems : List Draft → Except Fault Unit
  | [] => .ok ()
  | v :: rest => do
    skip v
    skipItems rest

/-- Passes over the fields of an object. -/
def skipFields : List (Option String × Draft) → Except Fault Unit
  | [] => .ok ()
  | (_, v) :: rest => do
    skip v
    skipFields rest

end

/-- The largest number of arrays and objects around a value. -/
def maxDepth : Nat := 127

mutual

/-- Reads any JSON value that has `depth` arrays and objects around it. -/
def value (depth : Nat) : Draft → Except Fault Json
  | .null => .ok .null
  | .bool b => .ok (.bool b)
  | .number (some n) => .ok (.number n)
  | .number none => .error .malformed
  | .string (some s) => .ok (.string s)
  | .string none => .error .malformed
  | .array items cut =>
    if maxDepth ≤ depth then .error .malformed
    else do
      let vs ← values (depth + 1) items
      stopped cut
      .ok (.array vs)
  | .object fields cut =>
    if maxDepth ≤ depth then .error .malformed
    else do
      let bindings ← bindings (depth + 1) fields
      stopped cut
      .ok (.ofFields bindings)
  | .broken c => .error c.read

/-- Reads the items of an array. -/
def values (depth : Nat) : List Draft → Except Fault (List Json)
  | [] => .ok []
  | v :: rest => do
    let v ← value depth v
    let vs ← values depth rest
    .ok (v :: vs)

/-- Reads the fields of an object. -/
def bindings (depth : Nat) : List (Option String × Draft) → Except Fault (List (String × Json))
  | [] => .ok []
  | (none, _) :: _ => .error .malformed
  | (some name, v) :: rest => do
    let v ← value depth v
    let more ← bindings depth rest
    .ok ((name, v) :: more)

end

mutual

/-- The draft of a value that is known as a whole. -/
def ofJson : Json → Draft
  | .null => .null
  | .bool b => .bool b
  | .number n => .number (some n)
  | .string s => .string (some s)
  | .array items => .array (ofItems items) none
  | .object fields => .object (ofFields fields) none

/-- The drafts of an array's items. -/
def ofItems : List Json → List Draft
  | [] => []
  | v :: rest => ofJson v :: ofItems rest

/-- The drafts of an object's fields. -/
def ofFields : List (String × Json) → List (Option String × Draft)
  | [] => []
  | (name, v) :: rest => (some name, ofJson v) :: ofFields rest

end

end Draft
end CacheDepot.Json
