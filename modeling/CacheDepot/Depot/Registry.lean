import CacheDepot.Depot.Basic
import CacheDepot.WarmItem

/-!
# Creating and listing stores

A depot starts with its default store. A store created under a name that is in use takes the
name over: handles to the old store stay good, but it is no longer swept or reachable by name.
-/

namespace CacheDepot.Depot

/-- The task that sweeps a store, if its set-up asks for one. -/
def sweeperFor (now : Nat) (name : String) (config : StoreConfig) : Option Ticker :=
  config.cleanupInterval.map (Ticker.start now ("sweep:" ++ name))

/-- The name of the timed drain. -/
def drainTimerName : String := "write-behind-drain"

/-- A depot with its default store. The set-up of the queue is checked before the store's. -/
def new (now : Nat) (store : StoreConfig) (writeBehind : WriteBehindConfig) :
    Except CacheError Depot :=
  match writeBehind.fault?.or store.fault? with
  | some fault => .error (.ofFault fault)
  | none => .ok {
      stores := [.new store.capacity store.defaultTtl]
      registry := { fallback := ⟨⟨defaultName, 0⟩, sweeperFor now defaultName store⟩ }
      backlog := .new writeBehind.batchSize writeBehind.maxRetries
      drainTimer := writeBehind.drainInterval.map fun interval =>
        { ticker := .start now drainTimerName interval } }

/-- A depot made for its queue alone. -/
def forQueue (batchSize maxRetries : Nat) : Depot where
  stores := [.new 1 none]
  registry := { fallback := ⟨⟨defaultName, 0⟩, none⟩ }
  backlog := .new batchSize maxRetries

/-- Creates a store, or replaces the one of this name. -/
def createCache (d : Depot) (now : Nat) (name : String) (config : StoreConfig) :
    Except CacheError (Handle × Depot) :=
  match config.fault? with
  | some fault => .error (.ofFault fault)
  | none =>
    let handle : Handle := ⟨name, d.stores.length⟩
    .ok (handle, { d with
      stores := d.stores ++ [.new config.capacity config.defaultTtl]
      registry := d.registry.insert name ⟨handle, sweeperFor now name config⟩ })

/-- Whether a store has this name. -/
def hasCache (d : Depot) (name : String) : Bool := d.registry.contains name

/-- The names of all stores, in order. -/
def storeNames (d : Depot) : List String := Ordered.keys d.registry.toList

/-- The handles of all stores that have a name. -/
def handles (d : Depot) : List Handle := d.registry.toList.map fun b => b.2.handle

/-- The counters of all stores, by the names they were created under. -/
def allStats (d : Depot) : List (String × Stats) :=
  Ordered.ofList (d.handles.map fun h => (h.name, (d.store h.cell).stats))

/-- Writes items into a store one after the other; how many there were. -/
def warm (d : Depot) (now : Nat) (name : String) (items : List WarmItem) : Nat × Depot :=
  let handle := d.getCache name
  (items.length, items.foldl (fun d item =>
    (d.setKey now handle (.derive none item.key) item.value item.ttl).2) d)

/-- Stops all sweeps. -/
def stopSweepers (d : Depot) : Depot :=
  { d with registry := d.registry.map fun r => { r with sweeper := r.sweeper.map Ticker.stop } }

/-- Empties a store. -/
def clearStore (d : Depot) (h : Handle) : Depot := (d.onStore h fun s => ((), s.clear)).2

/-- Empties stores one after the other. -/
def clearStores (d : Depot) (handles : List Handle) : Depot := handles.foldl clearStore d

end CacheDepot.Depot
