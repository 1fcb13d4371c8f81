import CacheDepot.Api.SetRequest
import CacheDepot.WarmItem

/-!
# Requests to store many values

A list of keys with their values. A request is refused as a whole if it has too many items or an
item without a key; otherwise every item is stored, in order.
-/

namespace CacheDepot.Api

open Json (Draft Fault)

/-- One item as it is written in a request. -/
structure WarmEntry where
  key : Json
  value : Json
  ttlMillis : Option Nat

namespace WarmEntry

/-- The fields read so far. -/
structure Fields where
  key : Option Json := none
  value : Option Json := none
  ttlMillis : Option (Option Nat) := none

/-- The fields by name and position. The object, the list and the request stand around them. -/
def shape : Draft.RecordShape Fields where
  names := ["key", "value", "ttl_ms"]
  put
    | 0, d, fields => do pure { fields with key := some (← d.value 3) }
    | 1, d, fields => do pure { fields with value := some (← d.value 3) }
    | _, d, fields => do pure { fields with ttlMillis := some (← readTtl d) }

/-- Reads an item; a missing length of time is none. -/
def read (d : Draft) : Except Fault WarmEntry := do
  let fields ← shape.read {} d
  let key ← Draft.required fields.key
  let value ← Draft.required fields.value
  pure ⟨key, value, fields.ttlMillis.getD none⟩

/-- The item to be stored. -/
def item (e : WarmEntry) : WarmItem :=
  ⟨.ofJson e.key, e.value, e.ttlMillis.map .ofMillis⟩

end WarmEntry

/-- A request to store many values. -/
structure WarmRequest where
  entries : List WarmEntry

/-- Why a request to store many values is refused. -/
inductive WarmProblem where
  | tooManyItems
  | nullKey
  deriving DecidableEq, Repr

/-- The largest number of items of one request. -/
def maxWarmItems : Nat := 10000

/-- What is said about a refused request. -/
def WarmProblem.text : WarmProblem → String
  | .tooManyItems =>
    "Warm request exceeds maximum of " ++ toString maxWarmItems ++ " items"
  | .nullKey => "Key cannot be null"

namespace WarmRequest

/-- The fields by name and position. -/
def shape : Draft.RecordShape (Option (List WarmEntry)) where
  names := ["items"]
  put _ d _ := do pure (some (← d.list WarmEntry.read))

/-- Reads a request. -/
def read (d : Draft) : Except Fault WarmRequest := do
  let entries ← Draft.required (← shape.read none d)
  pure ⟨entries⟩

/-- The first reason to refuse a request. -/
def problem? (r : WarmRequest) : Option WarmProblem :=
  if maxWarmItems < r.entries.length then some .tooManyItems
  else if r.entries.any (fun e => e.key.isNull) then some .nullKey
  else none

/-- The items to be stored, in order. -/
def items (r : WarmRequest) : List WarmItem := r.entries.map WarmEntry.item

end WarmRequest
end CacheDepot.Api
