import CacheDepot.Duration
import CacheDepot.Key

/-!
# Values stored ahead of their use

A list of such items fills a store before anybody asks for the values.
-/

namespace CacheDepot

/-- A value to be stored under a key. -/
structure WarmItem where
  key : RawKey
  value : Json
  ttl : Option Duration

end CacheDepot
