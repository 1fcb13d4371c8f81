import CacheDepot.Duration
import CacheDepot.Json.Basic

/-!
# Cache entries

An entry is a value with the times of its writing, of its last use and of its expiry. It is
expired from the moment of expiry on, and an entry without one never is.
-/

namespace CacheDepot

/-- An entry of a store; times are in milliseconds since the Unix epoch. -/
structure Entry where
  value : Json
  createdAt : Nat
  expiresAt : Option Nat
  /-- The last successful read, or the writing. -/
  lastAccessed : Nat

namespace Entry

/-- An entry written at `now`, for a length of time if one is given. -/
def new (now : Nat) (value : Json) (ttl : Option Duration) : Entry where
  value
  createdAt := now
  expiresAt := ttl.map (timestampAfter now)
  lastAccessed := now

/-- Whether the entry counts as absent at `now`. -/
def isExpired (e : Entry) (now : Nat) : Bool :=
  match e.expiresAt with
  | some expires => expires ≤ now
  | none => false

/-- Records a read at `now`. -/
def touch (e : Entry) (now : Nat) : Entry :=
  { e with lastAccessed := max e.lastAccessed now }

/-- Milliseconds since the entry was written. -/
def age (e : Entry) (now : Nat) : Nat := now - e.createdAt

/-- Milliseconds from the writing to the expiry. -/
def window (e : Entry) : Option Nat := e.expiresAt.map (· - e.createdAt)

/-- Milliseconds left until the expiry. -/
def remaining (e : Entry) (now : Nat) : Option Nat := e.expiresAt.map (· - now)

end Entry
end CacheDepot
