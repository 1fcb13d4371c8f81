import CacheDepot.Store

/-!
# Runs of a store

Everything that can be asked of a store, and what a caller sees of a whole run: after each
operation its reply, the number of entries and the counts.
-/

namespace CacheDepot

/-- What can be asked of a store. -/
inductive StoreOperation where
  | set (key : CacheKey) (value : Json) (ttl : Option Duration)
  | get (key : CacheKey)
  | getEntry (key : CacheKey)
  | peek (key : CacheKey)
  | delete (key : CacheKey)
  | sweep
  | clear

/-- What a store replies. -/
inductive StoreReply where
  | outcome (outcome : SetOutcome)
  | value (value : Option Json)
  | entry (entry : Option Entry)
  | flag (removed : Bool)
  | count (n : Nat)
  | done

/-- Counts without a limit. -/
structure Tally where
  hits : Nat := 0
  misses : Nat := 0
  sets : Nat := 0
  deletes : Nat := 0
  evictions : Nat := 0
  expirations : Nat := 0
  deriving DecidableEq, Repr

/-- The counts that counters show. -/
def Counters.tally (c : Counters) : Tally where
  hits := c.hits.toNat
  misses := c.misses.toNat
  sets := c.sets.toNat
  deletes := c.deletes.toNat
  evictions := c.evictions.toNat
  expirations := c.expirations.toNat

/-- What a caller sees of one operation. -/
structure StoreView where
  reply : StoreReply
  /-- The number of entries after the operation. -/
  size : Nat
  /-- The counts after the operation. -/
  tally : Tally

namespace Store

/-- Carries one operation out at the time `now`. -/
def perform (s : Store) (now : Nat) : StoreOperation → StoreReply × Store
  | .set key value ttl => ((s.set now key value ttl).map .outcome id)
  | .get key => (s.get now key).map .value id
  | .getEntry key => (s.getEntry now key).map .entry id
  | .peek key => (.entry (s.peek now key), s)
  | .delete key => (s.delete key).map .flag id
  | .sweep => (s.sweep now).map .count id
  | .clear => (.done, s.clear)

/-- Carries operations out one after the other, each at its own reading of the clock. -/
def run (s : Store) : List (Nat × StoreOperation) → List StoreView × Store
  | [] => ([], s)
  | (now, operation) :: rest =>
    let (reply, s) := s.perform now operation
    let (views, last) := s.run rest
    (⟨reply, s.size, s.counters.tally⟩ :: views, last)

end Store
end CacheDepot
