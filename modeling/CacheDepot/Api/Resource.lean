import CacheDepot.Http.Percent

/-!
# What requests are about

The paths of the service: its health, its counters, a store, and a key of a store. The names of
stores and keys are percent escaped in a path, and a slash that is escaped does not end a name.
-/

namespace CacheDepot.Api

/-- What a path leads to, its names as written. -/
inductive Resource where
  | health
  | stats
  | store (name : String)
  | key (store name : String)
  deriving DecidableEq, Repr

namespace Resource

/-- The parts of a text between its slashes. -/
def segments : List Char → List (List Char)
  | [] => [[]]
  | '/' :: rest => [] :: segments rest
  | c :: rest =>
    match segments rest with
    | first :: more => (c :: first) :: more
    | [] => [[c]]

/-- What a path leads to. Its last name is not empty. -/
def ofPath? (path : String) : Option Resource :=
  match (segments path.toList).map String.ofList with
  | ["", "health"] => some .health
  | ["", "stats"] => some .stats
  | ["", "caches", name] => if name.isEmpty then none else some (.store name)
  | ["", "caches", within, name] => if name.isEmpty then none else some (.key within name)
  | _ => none

/-- The methods that a resource answers, as the `Allow` field names them. -/
def allow : Resource → String
  | .health | .stats => "GET,HEAD"
  | .store _ => "POST"
  | .key _ _ => "GET,HEAD,PUT,DELETE"

end Resource

/-- What a request asks for once its names are decoded. -/
inductive Call where
  | health
  | stats
  | warm (store : String)
  | get (store key : String)
  | set (store key : String)
  | delete (store key : String)
  deriving DecidableEq, Repr

/-- What is to be done with a request. -/
inductive Routing where
  | call (call : Call)
  /-- The names in the path do not spell texts. -/
  | undecodable
  | notAllowed
  deriving DecidableEq, Repr

namespace Routing

/-- A call on a store, if the store's name spells a text. -/
def onStore (store : String) (call : String → Call) : Routing :=
  match Http.Percent.decode? store with
  | some store => .call (call store)
  | none => .undecodable

/-- A call on a key, if both names spell texts. -/
def onKey (store key : String) (call : String → String → Call) : Routing :=
  match Http.Percent.decode? store, Http.Percent.decode? key with
  | some store, some key => .call (call store key)
  | _, _ => .undecodable

/-- What a method does to a resource. A `HEAD` is carried out as a `GET`. -/
def of (method : String) : Resource → Routing
  | .health => if method = "GET" ∨ method = "HEAD" then .call .health else .notAllowed
  | .stats => if method = "GET" ∨ method = "HEAD" then .call .stats else .notAllowed
  | .store store => if method = "POST" then onStore store .warm else .notAllowed
  | .key store key =>
    if method = "GET" ∨ method = "HEAD" then onKey store key .get
    else if method = "PUT" then onKey store key .set
    else if method = "DELETE" then onKey store key .delete
    else .notAllowed

end Routing
end CacheDepot.Api
