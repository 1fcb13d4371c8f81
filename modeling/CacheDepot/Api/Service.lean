import CacheDepot.Api.Payload
import CacheDepot.Api.Replies
import CacheDepot.Api.Resource
import CacheDepot.Api.WarmRequest
import CacheDepot.Depot.Registry
import CacheDepot.ResponseCache

/-!
# The service

Answers requests about a depot. The counters can be read through a response cache, and so can
paths that lead nowhere; reads of keys never are, so a write is visible at once. Every answer may
be used by pages of any origin.
-/

namespace CacheDepot.Api

open Http (Request Response)

/-- The key of a store that a name in a path stands for. -/
def pathKey (name : String) : CacheKey := .derive none (.text name)

/-- Reads the value under a key. -/
def answerGet (now : Nat) (store key : String) (d : Depot) : Response × Depot :=
  let h := d.getCache store
  let (value, d) := d.getKey now h (pathKey key)
  match value with
  | some value => (.json 200 (getReply h.name key value), d)
  | none => (.ofError (.notFound key), d)

/-- Stores a value under a key. -/
def answerSet (now : Nat) (store key : String) (request : Request) (d : Depot) :
    Response × Depot :=
  match readPayload SetRequest.read request with
  | .error fault => (fault.response, d)
  | .ok r =>
    let h := d.getCache store
    let (outcome, d) := d.setKey now h (pathKey key) r.value r.ttl
    (.json 200 (setReply h.name key (outcome.evicted.map CacheKey.text)), d)

/-- Removes a key. -/
def answerDelete (store key : String) (d : Depot) : Response × Depot :=
  let (found, d) := d.deleteKey (d.getCache store) (pathKey key)
  (if found then .json 200 (deleteReply key) else .ofError (.notFound key), d)

/-- Stores many values, unless the request is refused as a whole. -/
def answerWarm (now : Nat) (store : String) (request : Request) (d : Depot) : Response × Depot :=
  match readPayload WarmRequest.read request with
  | .error fault => (fault.response, d)
  | .ok r =>
    match r.problem? with
    | some problem => (.ofError (.invalidRequest problem.text), d)
    | none =>
      let (warmed, d) := d.warm now store r.items
      (.json 200 (warmReply (d.getCache store).name warmed), d)

/-- Carries a call out. -/
def answerCall (now : Nat) : Call → Handler
  | .health, _, d => (.json 200 (healthReply now), d)
  | .stats, _, d => (.json 200 (statsReply d.allStats d.backlog.queue.size), d)
  | .warm store, request, d => answerWarm now store request d
  | .get store key, _, d => answerGet now store key d
  | .set store key, request, d => answerSet now store key request d
  | .delete store key, _, d => answerDelete store key d

/-- The answer of a resource that does not know the method. -/
def methodNotAllowed (resource : Resource) : Response where
  status := 405
  headers := [("allow", resource.allow)]

/-- A handler behind the response cache, if there is one. -/
def throughCache (cache? : Option ResponseCache) (now : Nat) (handler : Handler) : Handler :=
  match cache? with
  | some cache => cache.serve now handler
  | none => handler

/-- An answer without its body, if the method asks for that. -/
def withoutBody (method : String) (r : Response) : Response :=
  if method = "HEAD" then { r with body := .empty } else r

/-- Carries a call out, its counters through the response cache. -/
def dispatch (cache? : Option ResponseCache) (now : Nat) (call : Call) : Handler :=
  fun request d =>
    let handler := answerCall now call
    let (response, d) := match call with
      | .stats => throughCache cache? now handler request d
      | _ => handler request d
    (withoutBody request.method response, d)

/-- Answers a request for a path that leads nowhere. -/
def answerUnknown : Handler := fun _ d => ({ status := 404 }, d)

/-- Answers a request for a resource. -/
def answerResource (cache? : Option ResponseCache) (now : Nat) (resource : Resource) : Handler :=
  fun request d =>
    match Routing.of request.method resource with
    | .call call => dispatch cache? now call request d
    | .undecodable =>
      (withoutBody request.method (.plain 400 "The path does not spell a text"), d)
    | .notAllowed => (methodNotAllowed resource, d)

/-! ## Pages of other origins -/

/-- What the answer depends on apart from the path, for caches on the way. -/
def varyText : String :=
  "origin, access-control-request-method, access-control-request-headers"

/-- Marks an answer as open to pages of any origin. -/
def openToAll (r : Response) : Response :=
  { r with headers := r.headers.add "access-control-allow-origin" "*" |>.add "vary" varyText }

/-- The answer to a page that asks what it may do. -/
def permission (resource? : Option Resource) : Response where
  headers :=
    [("access-control-allow-methods", "*"), ("access-control-allow-headers", "*")] ++
      (resource?.map fun r => ("allow", r.allow)).toList

/-- Answers a request. -/
def serve (cache? : Option ResponseCache) (now : Nat) : Handler := fun request d =>
  let resource? := Resource.ofPath? request.target.path
  let (response, d) :=
    if request.method = "OPTIONS" then (permission resource?, d)
    else match resource? with
      | some resource => answerResource cache? now resource request d
      | none => throughCache cache? now answerUnknown request d
  (openToAll response, d)

end CacheDepot.Api
