import CacheDepot.Http.Message
import CacheDepot.Json.Reader
import CacheDepot.Json.Record

/-!
# Cached responses

What a store keeps of a response so that it can be given again: status, text, content type and
the time of caching. It is written as a JSON object and read back from an object or an array.
-/

namespace CacheDepot

open Json (Draft Fault)

/-- The field of a response that says whether the cache answered. -/
def cacheMark : String := "x-cache"

/-- A response kept in a store. -/
structure CachedResponse where
  status : UInt16
  body : String
  contentType : Option String
  /-- Milliseconds since the Unix epoch when the response was cached. -/
  timestamp : Int64
  deriving DecidableEq, Repr

namespace CachedResponse

/-- The object in this order of fields. -/
def toJson (r : CachedResponse) : Json :=
  .object [
    ("status", .ofNat r.status.toNat),
    ("body", .string r.body),
    ("content_type", .ofText? r.contentType),
    ("timestamp", .ofInt r.timestamp.toInt)]

/-- The fields read so far. -/
structure Fields where
  status : Option UInt16 := none
  body : Option String := none
  contentType : Option (Option String) := none
  timestamp : Option Int64 := none

/-- The fields by name and position. -/
def shape : Draft.RecordShape Fields where
  names := ["status", "body", "content_type", "timestamp"]
  put
    | 0, d, fields => do
      let n ← d.integer 0 65535
      pure { fields with status := some (UInt16.ofNat n.toNat) }
    | 1, d, fields => do pure { fields with body := some (← d.text) }
    | 2, d, fields => do pure { fields with contentType := some (← d.optional Draft.text) }
    | _, d, fields => do
      let n ← d.integer Int64.minValue.toInt Int64.maxValue.toInt
      pure { fields with timestamp := some (Int64.ofInt n) }

/-- Reads a cached response; a missing content type is none. -/
def read (d : Draft) : Except Fault CachedResponse := do
  let fields ← shape.read {} d
  let status ← Draft.required fields.status
  let body ← Draft.required fields.body
  let timestamp ← Draft.required fields.timestamp
  pure ⟨status, body, fields.contentType.getD none, timestamp⟩

/-- The cached response that a stored value stands for. -/
def ofJson? (value : Json) : Option CachedResponse :=
  (read (.ofJson value)).toOption

/-- Reads the text of a cached response. -/
def ofText (text : String) : Except Fault CachedResponse := Draft.whole read text

/-- The response that answers a request from the store. Without a stored content type that may
stand in a header it is plain text. -/
def hitResponse (r : CachedResponse) : Http.Response where
  status := Http.Response.statusOf r.status.toNat
  headers :=
    let contentType := (r.contentType.filter Http.isFieldValue).getD Http.Response.textType
    [("content-type", contentType), (cacheMark, "HIT")]
  body := .ofText r.body

end CachedResponse
end CacheDepot
