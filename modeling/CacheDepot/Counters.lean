import CacheDepot.Json.Basic

/-!
# Counters of a store

Six 64-bit counters, which wrap. A report of them adds the number of entries and the share of
reads that were hits.
-/

namespace CacheDepot

/-- What has happened to a store. -/
structure Counters where
  hits : UInt64 := 0
  misses : UInt64 := 0
  sets : UInt64 := 0
  /-- Explicit removals that found an entry. -/
  deletes : UInt64 := 0
  /-- Entries dropped to make room. -/
  evictions : UInt64 := 0
  /-- Entries removed because their time was over. -/
  expirations : UInt64 := 0
  deriving DecidableEq, Repr

/-- Counters with the state of the store at the time of asking. -/
structure Stats where
  counters : Counters
  size : Nat
  hitRate : Binary64
  deriving DecidableEq, Repr

namespace Counters

/-- Counts a read that found a value. -/
def hit (c : Counters) : Counters := { c with hits := c.hits + 1 }

/-- Counts a read that found none. -/
def miss (c : Counters) : Counters := { c with misses := c.misses + 1 }

/-- Counts a write. -/
def set (c : Counters) : Counters := { c with sets := c.sets + 1 }

/-- Counts a removal. -/
def delete (c : Counters) : Counters := { c with deletes := c.deletes + 1 }

/-- Counts an entry dropped to make room. -/
def evict (c : Counters) : Counters := { c with evictions := c.evictions + 1 }

/-- Counts entries whose time was over. -/
def expire (c : Counters) (n : Nat) : Counters :=
  { c with expirations := c.expirations + UInt64.ofNat n }

/-- The share of reads that were hits: the quotient of the two counts, each rounded to a double
first; zero if nothing was read. -/
def hitRate (c : Counters) : Binary64 :=
  let total := c.hits + c.misses
  if total = 0 then .zero
  else
    (do (← Binary64.ofNat? c.hits.toNat).div? (← Binary64.ofNat? total.toNat)).getD .zero

/-- The counters alone. -/
def bare (c : Counters) : Stats := ⟨c, 0, .zero⟩

/-- The report of a store with `size` entries. -/
def snapshot (c : Counters) (size : Nat) : Stats := ⟨c, size, c.hitRate⟩

end Counters

/-- The report as a JSON object, in this order of fields. -/
def Stats.toJson (s : Stats) : Json :=
  .object [
    ("hits", .ofNat s.counters.hits.toNat),
    ("misses", .ofNat s.counters.misses.toNat),
    ("sets", .ofNat s.counters.sets.toNat),
    ("deletes", .ofNat s.counters.deletes.toNat),
    ("evictions", .ofNat s.counters.evictions.toNat),
    ("expirations", .ofNat s.counters.expirations.toNat),
    ("current_size", .ofNat s.size),
    ("hit_rate", .number (.real s.hitRate))]

end CacheDepot
