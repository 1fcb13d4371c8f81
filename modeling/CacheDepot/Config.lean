import CacheDepot.Duration

/-!
# Configuration

How stores and the write-behind queue are set up, what makes a set-up invalid, and the values
used when nothing else is asked for.
-/

namespace CacheDepot

/-- How a store is set up. -/
structure StoreConfig where
  capacity : Nat
  /-- How long entries live that are written without a length of time of their own. -/
  defaultTtl : Option Duration := none
  /-- How often expired entries are swept out; without it only reads remove them. -/
  cleanupInterval : Option Duration := none
  deriving DecidableEq, Repr

/-- How the write-behind queue is set up. -/
structure WriteBehindConfig where
  /-- The largest number of items persisted by one drain. -/
  batchSize : Nat := 10
  /-- How often a failed item is tried again. -/
  maxRetries : Nat := 3
  /-- How often the queue is drained; without it only writes that fill it drain it. -/
  drainInterval : Option Duration := some (.ofMillis 5000)
  deriving DecidableEq, Repr

/-- What makes a set-up invalid. -/
inductive ConfigFault where
  | zeroCapacity
  | zeroCleanupInterval
  | zeroBatchSize
  | zeroDrainInterval
  deriving DecidableEq, Repr

namespace ConfigFault

/-- The setting and what is wrong with it. -/
def reason : ConfigFault → String
  | .zeroCapacity => "capacity must be greater than zero"
  | .zeroCleanupInterval => "cleanup interval must be greater than zero"
  | .zeroBatchSize => "write-behind batch size must be greater than zero"
  | .zeroDrainInterval => "write-behind drain interval must be greater than zero"

end ConfigFault

/-- An interval that is given and is zero. -/
def isZeroInterval (interval : Option Duration) : Bool :=
  interval == some ⟨0⟩

/-- The first fault of a store's set-up. -/
def StoreConfig.fault? (config : StoreConfig) : Option ConfigFault :=
  if config.capacity = 0 then some .zeroCapacity
  else if isZeroInterval config.cleanupInterval then some .zeroCleanupInterval
  else none

/-- The first fault of the queue's set-up. -/
def WriteBehindConfig.fault? (config : WriteBehindConfig) : Option ConfigFault :=
  if config.batchSize = 0 then some .zeroBatchSize
  else if isZeroInterval config.drainInterval then some .zeroDrainInterval
  else none

/-- The set-up of a whole server. -/
structure Config where
  port : Nat := 3000
  store : StoreConfig := ⟨1000, some (.ofMillis 300000), some (.ofMillis 60000)⟩
  writeBehind : WriteBehindConfig := {}
  /-- How long answers about statistics are reused; without it they are not. -/
  responseCacheTtl : Option Duration := some (.ofMillis 1000)
  deriving DecidableEq, Repr

end CacheDepot
