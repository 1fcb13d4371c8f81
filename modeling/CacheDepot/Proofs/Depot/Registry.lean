import CacheDepot.Depot.Registry
import CacheDepot.Proofs.Ordered

/-!
# The registry as a map

The default store is kept apart from the others, yet names and stores make one map, which is listed
in the order of the names. A store's sweep goes on through its ticks until it is stopped.
-/

namespace CacheDepot

/-! ## Sweeps that go on -/

/-- How often a store is swept as long as its sweep goes on. -/
def Registered.interval? (r : Registered) : Option Duration :=
  (r.sweeper.filter Ticker.isRunning).map Ticker.interval

/-- Whether the sweep of a store has not been asked to end after a tick. -/
def Registered.Unasked (r : Registered) : Prop :=
  ∀ sweeper, r.sweeper = some sweeper → sweeper.stopping = false

/-- A tick leaves a sweep going on as it was. -/
theorem Ticker.endTick_of_beginTick? {t t' : Ticker} {now : Nat}
    (begun : t.beginTick? now = some t') (unasked : t.stopping = false) :
    t'.endTick.isRunning = t.isRunning ∧ t'.endTick.interval = t.interval ∧
      t'.endTick.stopping = false := by
  rw [beginTick?] at begun
  split at begun
  · rename_i due waits
    split at begun
    · cases begun
      simp [endTick, isRunning, waits, unasked]
    · cases begun
  · cases begun

theorem Registered.interval?_congr {r : Registered} {sweeper ticker : Ticker}
    (sweeps : r.sweeper = some sweeper) (running : ticker.isRunning = sweeper.isRunning)
    (interval : ticker.interval = sweeper.interval) :
    Registered.interval? { r with sweeper := some ticker } = r.interval? := by
  rw [interval?, interval?, sweeps, Option.filter_some, Option.filter_some, running]
  split
  · exact congrArg some interval
  · rfl

theorem Ticker.isRunning_stop (t : Ticker) : t.stop.isRunning = false := by
  obtain ⟨name, interval, held, stopping, phase⟩ := t
  cases held <;> rfl

theorem Ticker.stopping_stop (t : Ticker) : t.stop.stopping = t.stopping := by
  unfold stop
  split <;> rfl

theorem Registered.interval?_stop (r : Registered) :
    interval? { r with sweeper := r.sweeper.map Ticker.stop } = none := by
  rw [interval?]
  cases r.sweeper with
  | none => rfl
  | some sweeper =>
    rw [Option.map_some, Option.filter_some_neg (by simp [Ticker.isRunning_stop])]
    rfl

/-- A store that is set up rightly is swept as often as its set-up asks. -/
theorem Registered.interval?_sweeperFor {config : StoreConfig} (accepted : config.fault? = none)
    (now : Nat) (name : String) (handle : Handle) :
    interval? ⟨handle, Depot.sweeperFor now name config⟩ = config.cleanupInterval := by
  have proper : ∀ interval, config.cleanupInterval = some interval → interval.isZero = false := by
    rintro ⟨nanos⟩ asked
    rw [StoreConfig.fault?, asked] at accepted
    cases nanos with
    | zero =>
      split at accepted
      · cases accepted
      · cases accepted
    | succ n => rfl
  rw [interval?, Depot.sweeperFor]
  cases asked : config.cleanupInterval with
  | none => rfl
  | some interval =>
    have runs : (Ticker.start now ("sweep:" ++ name) interval).isRunning = true := by
      rw [Ticker.start, proper interval asked]
      rfl
    rw [Option.map_some, Option.filter_some_pos runs]
    rfl

/-! ## The registry as a map -/

namespace Registry

variable {r : Registry} {name : String}

theorem get?_insert (r : Registry) (name : String) (store : Registered) (other : String) :
    (r.insert name store).get? other = if other = name then some store else r.get? other := by
  rw [insert, get?, get?]
  by_cases default : name = defaultName
  · rw [if_pos default, default]
    split <;> rfl
  · rw [if_neg default]
    by_cases own : other = name
    · rw [own, if_neg default, if_pos rfl, Ordered.get?_insert_self]
    · rw [if_neg own, Ordered.get?_insert_of_ne _ (Ne.symm own)]

theorem get?_map (f : Registered → Registered) (r : Registry) (name : String) :
    (r.map f).get? name = (r.get? name).map f := by
  rw [get?, get?, map]
  split
  · rfl
  · exact Ordered.get?_map f name r.named

/-- Whether the stores besides the default one stand in the order of their names. -/
structure InOrder (r : Registry) : Prop where
  sorted : Ordered.Sorted r.named
  apart : defaultName ∉ Ordered.keys r.named

theorem InOrder.insert (h : r.InOrder) (name : String) (store : Registered) :
    (r.insert name store).InOrder := by
  rw [Registry.insert]
  split
  · exact ⟨h.sorted, h.apart⟩
  · rename_i differs
    refine ⟨h.sorted.insert name store, ?_⟩
    rw [Ordered.mem_keys_insert]
    exact not_or.mpr ⟨Ne.symm differs, h.apart⟩

theorem InOrder.map (h : r.InOrder) (f : Registered → Registered) : (r.map f).InOrder := by
  have keys := Ordered.keys_map f r.named
  refine ⟨?_, ?_⟩
  · rw [Ordered.Sorted, Registry.map, keys]
    exact h.sorted
  · rw [Registry.map, keys]
    exact h.apart

theorem get?_toList (r : Registry) (name : String) : Ordered.get? name r.toList = r.get? name := by
  rw [toList, get?]
  split
  · rename_i same
    rw [same, Ordered.get?_insert_self]
  · rename_i differs
    rw [Ordered.get?_insert_of_ne _ (Ne.symm differs)]

theorem InOrder.sorted_toList (h : r.InOrder) : Ordered.Sorted r.toList :=
  h.sorted.insert defaultName r.fallback

theorem InOrder.mem_toList (h : r.InOrder) {b : String × Registered} :
    b ∈ r.toList ↔ r.get? b.1 = some b.2 := by
  rw [← get?_toList, Ordered.get?_eq_some_iff h.sorted_toList]

theorem InOrder.resolve_eq (h : r.InOrder) (name : String) :
    r.resolve name = (r.get? name).getD r.fallback := by
  rw [resolve, get?]
  split
  · rename_i same
    have absent : Ordered.get? name r.named = none := by
      rw [← Option.not_isSome_iff_eq_none, Ordered.isSome_get?_iff, same]
      exact h.apart
    rw [absent]
    rfl
  · rfl

end Registry

/-- Whether every store with a name has a property. -/
structure Registry.Every (p : Registered → Prop) (r : Registry) : Prop where
  fallback : p r.fallback
  named : ∀ b ∈ r.named, p b.2

namespace Registry.Every

variable {p p' : Registered → Prop} {r : Registry} {name : String} {store : Registered}

theorem get? (h : r.Every p) (found : r.get? name = some store) : p store := by
  rw [Registry.get?] at found
  split at found
  · cases found
    exact h.fallback
  · exact h.named _ (Ordered.mem_of_get? found)

theorem insert (h : r.Every p) (name : String) (new : p store) : (r.insert name store).Every p := by
  unfold Registry.insert
  split
  · exact ⟨new, h.named⟩
  · refine ⟨h.fallback, ?_⟩
    intro b member
    rcases Ordered.mem_of_mem_insert member with rfl | old
    · exact new
    · exact h.named b old

theorem map {f : Registered → Registered} (h : r.Every p) (each : ∀ store, p store → p' (f store)) :
    (r.map f).Every p' := by
  refine ⟨each _ h.fallback, ?_⟩
  intro b member
  obtain ⟨old, inside, rfl⟩ := List.mem_map.mp member
  exact each _ (h.named old inside)

theorem imp (h : r.Every p) (each : ∀ store, p store → p' store) : r.Every p' :=
  ⟨each _ h.fallback, fun b member => each _ (h.named b member)⟩

theorem resolve (h : r.Every p) (name : String) : p (r.resolve name) := by
  rw [Registry.resolve]
  cases found : Ordered.get? name r.named with
  | none => exact h.fallback
  | some store => exact h.named _ (Ordered.mem_of_get? found)

end Registry.Every

end CacheDepot
