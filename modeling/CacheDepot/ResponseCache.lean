import CacheDepot.Depot.Basic
import CacheDepot.ResponseCache.CachedResponse

/-!
# A cache in front of a handler

Reads are answered from a store where possible. What a handler answers to a read is kept if it
is a success and a text of announced and moderate size; it is put into the store in the
background, after the answer. All other requests pass untouched.
-/

namespace CacheDepot

/-- What answers requests: the depot may change on the way. -/
abbrev Handler := Http.Request → Depot → Http.Response × Depot

/-- The largest body that is kept unless a cache says otherwise: a mebibyte. -/
def defaultMaxBodyBytes : Nat := 1024 * 1024

/-- The store that the service keeps responses in. -/
def responseStoreName : String := "http-responses"

/-- Where, for how long, and up to which size responses are kept. -/
structure ResponseCache where
  store : String
  ttl : Duration
  maxBodyBytes : Nat := defaultMaxBodyBytes

namespace ResponseCache

open Http (Request Response Body)

/-- Whether requests of a method are reads. -/
def isRead (method : String) : Bool := method = "GET" || method = "HEAD"

/-- What tells requests apart: the method, the path with its query, and the first `Accept` field.
A field that is absent or not readable as text counts as empty; a target that is only a host
counts as the root. -/
def identity (r : Request) : Json :=
  .object [
    ("accept", .string ((r.headers.text? "accept").getD "")),
    ("method", .string r.method),
    ("path", .string (r.target.pathAndQuery.getD "/"))]

/-- The key under which the response to a request is kept. -/
def key (r : Request) : CacheKey := .derive (some "http") (.structured (identity r))

/-- Marks a response that did not come from the cache. -/
def markMiss (r : Response) : Response := { r with headers := r.headers.set cacheMark "MISS" }

/-- Looks for a kept response. A stored value that is not one is removed. -/
def lookup (d : Depot) (now : Nat) (h : Handle) (key : CacheKey) : Option Response × Depot :=
  let (stored, d) := d.getKey now h key
  match stored with
  | none => (none, d)
  | some value =>
    match CachedResponse.ofJson? value with
    | some kept => (some kept.hitResponse, d)
    | none => (none, (d.deleteKey h key).2)

/-- What is kept of a response with this text. -/
def keep (now : Nat) (r : Response) (text : String) : CachedResponse where
  status := UInt16.ofNat r.status
  body := text
  contentType := r.headers.text? "content-type"
  timestamp := Int64.ofNat now

/-- Whether a response may be kept, as far as its status and announced size tell. -/
def isCacheable (c : ResponseCache) (r : Response) : Bool :=
  r.isSuccess && r.body.bound.any (· ≤ c.maxBodyBytes)

/-- Starts to keep a handler's response, if it may be kept, and marks it. -/
def capture (c : ResponseCache) (d : Depot) (now : Nat) (h : Handle) (key : CacheKey)
    (r : Response) : Response × Depot :=
  if c.isCacheable r then
    match r.body.read c.maxBodyBytes with
    | .error reason =>
      (.ofError (.internal ("failed to buffer response body: " ++ reason)), d)
    | .ok data =>
      let answer := markMiss { r with body := Body.ofBytes data }
      match String.fromUTF8? data with
      | some text =>
        (answer, (d.spawn (.storing h key (keep now r text).toJson.canonical c.ttl)).2)
      | none => (answer, d)
  else (markMiss r, d)

/-- A handler behind the cache. -/
def serve (c : ResponseCache) (now : Nat) (handler : Handler) : Handler := fun r d =>
  if isRead r.method then
    let h := d.getCache c.store
    let (kept, d) := lookup d now h (key r)
    match kept with
    | some response => (response, d)
    | none =>
      let (response, d) := handler r d
      c.capture d now h (key r) response
  else handler r d

end ResponseCache
end CacheDepot
