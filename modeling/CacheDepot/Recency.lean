import CacheDepot.Assoc
import CacheDepot.Key

/-!
# Recency of use

`Recency` orders keys by their last use. Every use stamps its key with a fresh tick, each tick
larger than all before it; one index leads from ticks to keys, oldest first, and one from keys
to their ticks. The least recently used key is the one with the smallest tick. Ticks have 64 bits
and wrap.
-/

namespace CacheDepot

/-- The order in which keys were last used. -/
structure Recency where
  /-- Ticks and their keys, smallest tick first. -/
  order : List (UInt64 × CacheKey) := []
  /-- The tick of each key. -/
  ticks : Assoc CacheKey UInt64 := .empty
  nextTick : UInt64 := 0

namespace Recency

/-- Puts a tick where it belongs in the order, in place of the same tick of another key. -/
def placeTick (tick : UInt64) (key : CacheKey) :
    List (UInt64 × CacheKey) → List (UInt64 × CacheKey)
  | [] => [(tick, key)]
  | b :: rest =>
    if tick < b.1 then (tick, key) :: b :: rest
    else if tick = b.1 then (tick, key) :: rest
    else b :: placeTick tick key rest

/-- Removes a tick from the order. -/
def dropTick (tick : UInt64) (order : List (UInt64 × CacheKey)) : List (UInt64 × CacheKey) :=
  order.filter fun b => b.1 ≠ tick

/-- Marks a key as used last, whether or not it was tracked. -/
def touch (r : Recency) (key : CacheKey) : Recency :=
  let order := match r.ticks.get? key with
    | some old => dropTick old r.order
    | none => r.order
  { order := placeTick r.nextTick key order
    ticks := r.ticks.insert key r.nextTick
    nextTick := r.nextTick + 1 }

/-- Forgets a key. -/
def remove (r : Recency) (key : CacheKey) : Recency :=
  match r.ticks.get? key with
  | some tick => { r with order := dropTick tick r.order, ticks := r.ticks.erase key }
  | none => r

/-- Takes out the least recently used key. -/
def evictOldest (r : Recency) : Option (CacheKey × Recency) :=
  match r.order with
  | [] => none
  | (_, key) :: rest => some (key, { r with order := rest, ticks := r.ticks.erase key })

/-- Forgets every key; ticks go on from where they were. -/
def clear (r : Recency) : Recency :=
  { r with order := [], ticks := .empty }

/-- The number of tracked keys. -/
def size (r : Recency) : Nat := r.ticks.size

/-- Whether no key is tracked. -/
def isEmpty (r : Recency) : Bool := r.ticks.isEmpty

/-- Whether a key is tracked. -/
def contains (r : Recency) (key : CacheKey) : Bool := r.ticks.contains key

/-- The tracked keys from the least to the most recently used. -/
def toList (r : Recency) : List CacheKey := r.order.map Prod.snd

end Recency
end CacheDepot
