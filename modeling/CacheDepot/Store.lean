import CacheDepot.Counters
import CacheDepot.Entry
import CacheDepot.Recency

/-!
# Stores

A store holds at most `capacity` entries. A write of a new key to a full store drops the least
recently used entry first. An expired entry counts as absent for reads and is removed by the
read that finds it or by a sweep. Every operation that looks at the clock is given its reading.
-/

namespace CacheDepot

/-- A bounded store of entries. -/
structure Store where
  entries : Assoc CacheKey Entry := .empty
  recency : Recency := {}
  counters : Counters := {}
  capacity : Nat
  /-- How long entries live that are written without a length of time of their own. -/
  defaultTtl : Option Duration

/-- What a write did besides storing the value. -/
structure SetOutcome where
  /-- The key dropped to make room. -/
  evicted : Option CacheKey
  /-- Whether an entry was overwritten. -/
  replaced : Bool
  deriving DecidableEq, Repr

namespace Store

/-- An empty store; a capacity of zero is taken as one. -/
def new (capacity : Nat) (defaultTtl : Option Duration) : Store where
  capacity := max capacity 1
  defaultTtl

/-- Drops the least recently used entry. -/
def evict (s : Store) : Option CacheKey × Store :=
  match s.recency.evictOldest with
  | some (victim, recency) =>
    (some victim, { s with
      entries := s.entries.erase victim
      recency
      counters := s.counters.evict })
  | none => (none, s)

/-- Writes a value. The key becomes the most recently used one and its time starts anew. -/
def set (s : Store) (now : Nat) (key : CacheKey) (value : Json) (ttl : Option Duration) :
    SetOutcome × Store :=
  let replaced := s.entries.contains key
  let (evicted, s) :=
    if !replaced && s.capacity ≤ s.entries.size then s.evict else (none, s)
  (⟨evicted, replaced⟩, { s with
    entries := s.entries.insert key (.new now value (ttl.or s.defaultTtl))
    recency := s.recency.touch key
    counters := s.counters.set })

/-- Reads an entry. A live one becomes the most recently used; an expired one is removed. -/
def getEntry (s : Store) (now : Nat) (key : CacheKey) : Option Entry × Store :=
  match s.entries.get? key with
  | some e =>
    if e.isExpired now then
      (none, { s with
        entries := s.entries.erase key
        recency := s.recency.remove key
        counters := (s.counters.expire 1).miss })
    else
      (some (e.touch now), { s with
        entries := s.entries.insert key (e.touch now)
        recency := s.recency.touch key
        counters := s.counters.hit })
  | none => (none, { s with counters := s.counters.miss })

/-- Reads a value. -/
def get (s : Store) (now : Nat) (key : CacheKey) : Option Json × Store :=
  let (entry, s) := s.getEntry now key
  (entry.map Entry.value, s)

/-- Looks at a live entry without leaving a trace. -/
def peek (s : Store) (now : Nat) (key : CacheKey) : Option Entry :=
  (s.entries.get? key).filter fun e => !e.isExpired now

/-- Removes an entry, expired or not; whether there was one. -/
def delete (s : Store) (key : CacheKey) : Bool × Store :=
  if s.entries.contains key then
    (true, { s with
      entries := s.entries.erase key
      recency := s.recency.remove key
      counters := s.counters.delete })
  else (false, s)

/-- The keys of the entries that are expired at `now`. -/
def expiredKeys (s : Store) (now : Nat) : List CacheKey :=
  (s.entries.bindings.filter fun b => b.2.isExpired now).map Prod.fst

/-- Removes every expired entry; how many there were. -/
def sweep (s : Store) (now : Nat) : Nat × Store :=
  let expired := s.expiredKeys now
  (expired.length, { s with
    entries := expired.foldl Assoc.erase s.entries
    recency := expired.foldl Recency.remove s.recency
    counters := s.counters.expire expired.length })

/-- Drops every entry; the counters stay. -/
def clear (s : Store) : Store :=
  { s with entries := .empty, recency := s.recency.clear }

/-- The number of entries, expired ones included. -/
def size (s : Store) : Nat := s.entries.size

/-- Whether there is no entry. -/
def isEmpty (s : Store) : Bool := s.entries.isEmpty

/-- The counters with the present size and hit rate. -/
def stats (s : Store) : Stats := s.counters.snapshot s.size

end Store
end CacheDepot
