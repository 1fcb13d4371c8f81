import CacheDepot.Duration
import CacheDepot.Json.Record

/-!
# Requests to store one value

The value and, optionally, how many milliseconds it lives.
-/

namespace CacheDepot.Api

open Json (Draft Fault)

/-- A length of time in milliseconds, or none. -/
def readTtl : Draft → Except Fault (Option Nat) :=
  Draft.optional fun d => do
    let n ← d.integer 0 maxMillis
    pure n.toNat

/-- What a request to store one value holds. -/
structure SetRequest where
  value : Json
  ttlMillis : Option Nat

namespace SetRequest

/-- How long the value lives. -/
def ttl (r : SetRequest) : Option Duration := r.ttlMillis.map .ofMillis

/-- The fields read so far. -/
structure Fields where
  value : Option Json := none
  ttlMillis : Option (Option Nat) := none

/-- The fields by name and position. -/
def shape : Draft.RecordShape Fields where
  names := ["value", "ttl_ms"]
  put
    | 0, d, fields => do pure { fields with value := some (← d.value 1) }
    | _, d, fields => do pure { fields with ttlMillis := some (← readTtl d) }

/-- Reads a request; a missing length of time is none. -/
def read (d : Draft) : Except Fault SetRequest := do
  let fields ← shape.read {} d
  let value ← Draft.required fields.value
  pure ⟨value, fields.ttlMillis.getD none⟩

end SetRequest
end CacheDepot.Api
