import CacheDepot.Counters
import CacheDepot.Timestamp

/-!
# Answers of the API

The JSON objects that requests are answered with, their fields in this order.
-/

namespace CacheDepot.Api

/-- The value read under a key, with the real name of the store. -/
def getReply (store key : String) (value : Json) : Json :=
  .object [("store", .string store), ("key", .string key), ("value", value)]

/-- A value was stored, and which key was dropped to make room. -/
def setReply (store key : String) (evicted : Option String) : Json :=
  .object [
    ("message", .string ("Key \x27" ++ key ++ "\x27 set successfully")),
    ("store", .string store),
    ("key", .string key),
    ("evicted", .ofText? evicted)]

/-- A key was removed. -/
def deleteReply (key : String) : Json :=
  .object [
    ("message", .string ("Key \x27" ++ key ++ "\x27 deleted successfully")),
    ("key", .string key)]

/-- Many values were stored. -/
def warmReply (store : String) (warmed : Nat) : Json :=
  .object [("store", .string store), ("warmed", .ofNat warmed)]

/-- The counters of all stores and the number of queued writes. -/
def statsReply (stores : List (String × Stats)) (pending : Nat) : Json :=
  .object [
    ("stores", .object (stores.map fun s => (s.1, s.2.toJson))),
    ("write_behind_pending", .ofNat pending)]

/-- The service is up at the time `now`. -/
def healthReply (now : Nat) : Json :=
  .object [("status", .string "healthy"), ("timestamp", .string (Timestamp.text now))]

/-- Something went wrong. -/
def errorReply (text : String) : Json := .object [("error", .string text)]

end CacheDepot.Api
