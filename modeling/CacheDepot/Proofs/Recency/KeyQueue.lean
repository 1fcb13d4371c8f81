import CacheDepot.Proofs.Recency
import Mathlib.Data.List.Induction

/-!
# The order of use behaves like a queue of keys

`KeyQueue` is a list of distinct keys without ticks. A touch moves its key to the back, a removal
takes one out, an eviction takes the front. As long as the ticks do not wrap, a `Recency` shows in
every run what such a queue shows, and its two indexes are inverse to each other. The keys stand in
the order of their last touches, and in this order they are evicted.
-/

namespace CacheDepot

/-- What can be asked of the order of use. -/
inductive RecencyOperation where
  | touch (key : CacheKey)
  | remove (key : CacheKey)
  | evictOldest
  | clear
  | contains (key : CacheKey)
  deriving DecidableEq

/-- What the order of use replies. -/
inductive RecencyReply where
  | done
  | oldest (key : Option CacheKey)
  | flag (tracked : Bool)
  deriving DecidableEq

/-- What a caller sees of one operation. -/
structure RecencyView where
  reply : RecencyReply
  /-- The number of tracked keys after the operation. -/
  size : Nat
  /-- Whether no key is tracked after the operation. -/
  isEmpty : Bool
  deriving DecidableEq

namespace Recency

/-- Carries one operation out. -/
def perform (r : Recency) : RecencyOperation → RecencyReply × Recency
  | .touch key => (.done, r.touch key)
  | .remove key => (.done, r.remove key)
  | .evictOldest =>
    match r.evictOldest with
    | some (key, rest) => (.oldest (some key), rest)
    | none => (.oldest none, r)
  | .clear => (.done, r.clear)
  | .contains key => (.flag (r.contains key), r)

/-- Carries operations out one after the other. -/
def run (r : Recency) : List RecencyOperation → List RecencyView × Recency
  | [] => ([], r)
  | operation :: rest =>
    let (reply, r) := r.perform operation
    let (views, last) := r.run rest
    (⟨reply, r.size, r.isEmpty⟩ :: views, last)

theorem length_order_evictOldest {r rest : Recency} {key : CacheKey}
    (evicted : r.evictOldest = some (key, rest)) : rest.order.length < r.order.length := by
  rw [evictOldest] at evicted
  split at evicted
  · cases evicted
  · rename_i others held
    cases evicted
    rw [held]
    exact Nat.lt_succ_self _

/-- Evicts until nothing is tracked: the keys in the order in which they were evicted, and what is
left. -/
def drain (r : Recency) : List CacheKey × Recency :=
  match _ : r.evictOldest with
  | some (key, rest) => rest.drain.map (key :: ·) id
  | none => ([], r)
termination_by r.order.length
decreasing_by exact length_order_evictOldest ‹_›

end Recency

/-- Distinct keys, the next to be evicted first. -/
structure KeyQueue where
  keys : List CacheKey := []
  distinct : keys.Nodup := by simp

namespace KeyQueue

/-- The queue without a key, the others in their order. -/
def remove (q : KeyQueue) (key : CacheKey) : KeyQueue where
  keys := q.keys.filter (· ≠ key)
  distinct := q.distinct.filter _

/-- A key moved or added to the back. -/
def touch (q : KeyQueue) (key : CacheKey) : KeyQueue where
  keys := q.keys.filter (· ≠ key) ++ [key]
  distinct := by simpa [List.nodup_append] using q.distinct.filter _

/-- The queue without its front. -/
def dequeue (q : KeyQueue) : KeyQueue where
  keys := q.keys.tail
  distinct := q.distinct.tail

/-- Carries one operation out. -/
def perform (q : KeyQueue) : RecencyOperation → RecencyReply × KeyQueue
  | .touch key => (.done, q.touch key)
  | .remove key => (.done, q.remove key)
  | .evictOldest => (.oldest q.keys.head?, q.dequeue)
  | .clear => (.done, {})
  | .contains key => (.flag (key ∈ q.keys), q)

/-- Carries operations out one after the other. -/
def run (q : KeyQueue) : List RecencyOperation → List RecencyView × KeyQueue
  | [] => ([], q)
  | operation :: rest =>
    let (reply, q) := q.perform operation
    let (views, last) := q.run rest
    (⟨reply, q.keys.length, q.keys.isEmpty⟩ :: views, last)

/-- The last operation of a run is carried out on what the others have left. -/
theorem run_concat (q : KeyQueue) (before : List RecencyOperation) (last : RecencyOperation) :
    (q.run (before ++ [last])).2 = ((q.run before).2.perform last).2 := by
  induction before generalizing q with
  | nil => rfl
  | cons first rest ih => exact ih (q.perform first).2

end KeyQueue

/-! ## The order of last touches -/

/-- Whether a key was touched after the last touch of another. -/
def TouchedLater (operations : List RecencyOperation) (earlier later : CacheKey) : Prop :=
  ∃ before after, operations = before ++ .touch later :: after ∧ .touch earlier ∉ after

theorem TouchedLater.concat {operations : List RecencyOperation} {earlier later : CacheKey}
    (h : TouchedLater operations earlier later) {operation : RecencyOperation}
    (other : operation ≠ .touch earlier) :
    TouchedLater (operations ++ [operation]) earlier later := by
  obtain ⟨before, after, rfl, untouched⟩ := h
  refine ⟨before, after ++ [operation], by simp, ?_⟩
  simpa [untouched] using Ne.symm other

/-- In a queue the keys stand in the order of their last touches. -/
theorem KeyQueue.pairwise_touchedLater (operations : List RecencyOperation) :
    (KeyQueue.run {} operations).2.keys.Pairwise (TouchedLater operations) := by
  induction operations using List.reverseRecOn with
  | nil => exact .nil
  | append_singleton operations last ih =>
    rw [run_concat]
    generalize (KeyQueue.run {} operations).2 = q at ih ⊢
    -- an operation that touches no key leaves a part of the queue
    have sublist {keys : List CacheKey} (part : keys.Sublist q.keys)
        (other : ∀ key, last ≠ .touch key) :
        keys.Pairwise (TouchedLater (operations ++ [last])) :=
      (ih.sublist part).imp fun later => later.concat (other _)
    cases last with
    | touch key =>
      refine List.pairwise_append.mpr ⟨?_, List.pairwise_singleton _ _, ?_⟩
      · refine (ih.sublist List.filter_sublist).imp_of_mem fun {a b} member _ later => ?_
        have differs : a ≠ key := by simpa using (List.mem_filter.mp member).2
        exact later.concat fun same => differs (RecencyOperation.touch.inj same).symm
      · intro a member b back
        obtain rfl := List.mem_singleton.mp back
        exact ⟨operations, [], rfl, List.not_mem_nil⟩
    | remove key => exact sublist List.filter_sublist nofun
    | evictOldest => exact sublist (List.tail_sublist _) nofun
    | clear => exact .nil
    | contains key => exact sublist (List.Sublist.refl _) nofun

namespace Recency

variable {r : Recency} {q : KeyQueue}

/-! ## Both indexes have the same keys -/

theorem Coherent.perm_toList (h : r.Coherent) : r.ticks.keys.Perm r.toList := by
  refine (List.perm_ext_iff_of_nodup r.ticks.distinct h.nodup_toList).mpr fun key => ?_
  rw [h.mem_toList, ← Option.isSome_iff_exists, ← Assoc.contains, Assoc.contains_iff, Assoc.keys]

theorem Coherent.size_eq (h : r.Coherent) : r.size = r.toList.length :=
  (List.length_map _).symm.trans h.perm_toList.length_eq

theorem Coherent.isEmpty_eq (h : r.Coherent) : r.isEmpty = r.toList.isEmpty := by
  rw [isEmpty, Assoc.isEmpty, ← h.perm_toList.isEmpty_eq, Assoc.keys, List.isEmpty_map]

theorem Coherent.contains_eq (h : r.Coherent) (key : CacheKey) :
    r.contains key = decide (key ∈ r.toList) := by
  rw [Bool.eq_iff_iff, decide_eq_true_iff, ← h.perm_toList.mem_iff]
  exact Assoc.contains_iff

/-- The two indexes are inverse to each other. -/
theorem Coherent.lookup_order (h : r.Coherent) (key : CacheKey) (tick : UInt64) :
    r.order.lookup tick = some key ↔ r.ticks.get? key = some tick := by
  rw [h.inverse]
  constructor
  · intro found
    obtain ⟨before, after, split, -⟩ := List.lookup_eq_some_iff.mp found
    simp [split]
  · intro member
    obtain ⟨before, after, split⟩ := List.append_of_mem member
    refine List.lookup_eq_some_iff.mpr ⟨before, after, split, fun b earlier => ?_⟩
    -- the ticks ascend, so no other key stands under this one
    have ascending := h.tick_lt
    rw [split, List.pairwise_append] at ascending
    have less : b.1 < tick := ascending.2.2 b earlier (tick, key) List.mem_cons_self
    simpa using fun same : tick = b.1 => UInt64.lt_irrefl _ (same ▸ less)

/-! ## The relation and what keeps it -/

/-- The indexes lead to each other, and in the order of their ticks the keys are the queue. -/
structure Tracks (r : Recency) (q : KeyQueue) : Prop where
  coherent : r.Coherent
  keys : r.toList = q.keys

theorem tracks_empty : Tracks {} {} := ⟨coherent_empty, rfl⟩

namespace Tracks

/-- An eviction takes the front of the queue, if there is one, and uses up no tick. -/
theorem evictOldest (h : r.Tracks q) :
    (r.perform .evictOldest).1 = (q.perform .evictOldest).1 ∧
      (r.perform .evictOldest).2.Tracks (q.perform .evictOldest).2 ∧
      (r.perform .evictOldest).2.nextTick = r.nextTick := by
  obtain ⟨keys, distinct⟩ := q
  obtain ⟨coherent, same⟩ := h
  cases keys with
  | nil =>
    have nothing : r.evictOldest = none := by
      rw [Recency.evictOldest, List.map_eq_nil_iff.mp same]
    rw [Recency.perform, nothing]
    exact ⟨rfl, ⟨coherent, same⟩, rfl⟩
  | cons key rest =>
    obtain ⟨r', evicted, coherent', keys, ticks⟩ := coherent.evictOldest_eq_some same
    rw [Recency.perform, evicted]
    exact ⟨rfl, ⟨coherent', keys⟩, ticks⟩

/-- An operation replies what the queue replies, and uses up at most one tick. -/
theorem perform (h : r.Tracks q) (room : r.HasRoom) (operation : RecencyOperation) :
    (r.perform operation).1 = (q.perform operation).1 ∧
      (r.perform operation).2.Tracks (q.perform operation).2 ∧
      (r.perform operation).2.nextTick.toNat ≤ r.nextTick.toNat + 1 := by
  obtain ⟨coherent, same⟩ := h
  cases operation with
  | touch key =>
    refine ⟨rfl, ⟨coherent.touch room key, ?_⟩, Nat.le_of_eq (toNat_touch_nextTick room key)⟩
    exact (coherent.toList_touch key).trans (by rw [same]; rfl)
  | remove key =>
    refine ⟨rfl, ⟨coherent.remove key, ?_⟩, ?_⟩
    · exact (coherent.toList_remove key).trans (by rw [same]; rfl)
    · exact Nat.le_succ_of_le (Nat.le_of_eq (congrArg UInt64.toNat (r.remove_nextTick key)))
  | evictOldest =>
    obtain ⟨reply, tracks, ticks⟩ := evictOldest ⟨coherent, same⟩
    exact ⟨reply, tracks, Nat.le_succ_of_le (Nat.le_of_eq (congrArg UInt64.toNat ticks))⟩
  | clear => exact ⟨rfl, ⟨r.coherent_clear, rfl⟩, Nat.le_succ _⟩
  | contains key =>
    refine ⟨?_, ⟨coherent, same⟩, Nat.le_succ _⟩
    rw [Recency.perform, KeyQueue.perform, coherent.contains_eq, same]

/-- From related states a run shows what the run of the queue shows, and ends in related states. -/
theorem run (h : r.Tracks q) {n : Nat} (ticks : r.nextTick.toNat ≤ n)
    (operations : List RecencyOperation) (short : n + operations.length < UInt64.size) :
    (r.run operations).1 = (q.run operations).1 ∧
      (r.run operations).2.Tracks (q.run operations).2 := by
  induction operations generalizing r q n with
  | nil => exact ⟨rfl, h⟩
  | cons operation rest ih =>
    rw [List.length_cons] at short
    have room : r.HasRoom := Nat.lt_of_le_of_lt (Nat.succ_le_succ ticks) (by omega)
    obtain ⟨reply, kept, used⟩ := h.perform room operation
    obtain ⟨views, last⟩ := ih kept (Nat.le_trans used (Nat.succ_le_succ ticks)) (by omega)
    refine ⟨?_, last⟩
    simp only [Recency.run, KeyQueue.run, List.cons.injEq, RecencyView.mk.injEq]
    refine ⟨⟨reply, ?_, ?_⟩, views⟩
    · rw [kept.coherent.size_eq, kept.keys]
    · rw [kept.coherent.isEmpty_eq, kept.keys]

/-- Evicting until nothing is tracked gives the whole queue from its front, and empties both
indexes. -/
theorem drain (h : r.Tracks q) : r.drain.1 = q.keys ∧ r.drain.2.Tracks {} := by
  induction same : q.keys generalizing r q with
  | nil =>
    have nothing : r.evictOldest = none := by
      rw [Recency.evictOldest, List.map_eq_nil_iff.mp (h.keys.trans same)]
    rw [Recency.drain, nothing]
    exact ⟨rfl, h.coherent, h.keys.trans same⟩
  | cons key rest ih =>
    obtain ⟨r', evicted, coherent, keys, -⟩ := h.coherent.evictOldest_eq_some (h.keys.trans same)
    have distinct := (List.nodup_cons.mp (same ▸ q.distinct)).2
    obtain ⟨drained, left⟩ := ih (r := r') (q := ⟨rest, distinct⟩) ⟨coherent, keys⟩ rfl
    rw [Recency.drain, evicted]
    exact ⟨congrArg (key :: ·) drained, left⟩

end Tracks

/-- A fresh order of use shows in every run what a queue of distinct keys shows. In the end its two
indexes are inverse to each other and every tick in use is older than the next. Evicting then until
nothing is left gives each tracked key once, in the order of the last touches. -/
theorem run_new_eq_keyQueue (operations : List RecencyOperation)
    (short : operations.length < UInt64.size) :
    let r := (run {} operations).2
    (run {} operations).1 = (KeyQueue.run {} operations).1 ∧
    (∀ key tick, r.order.lookup tick = some key ↔ r.ticks.get? key = some tick) ∧
    (∀ key tick, r.ticks.get? key = some tick → tick < r.nextTick) ∧
    r.Tracks (KeyQueue.run {} operations).2 ∧
    r.drain.1 = (KeyQueue.run {} operations).2.keys ∧
    r.drain.1.Nodup ∧ (∀ key, key ∈ r.drain.1 ↔ r.contains key = true) ∧
    r.drain.1.Pairwise (TouchedLater operations) ∧
    r.drain.2.isEmpty = true := by
  intro r
  obtain ⟨views, tracks⟩ := tracks_empty.run (Nat.le_refl 0) operations (by omega)
  obtain ⟨drained, left⟩ := tracks.drain
  have coherent := tracks.coherent
  refine ⟨views, coherent.lookup_order, ?_, tracks, drained, ?_, ?_, ?_, ?_⟩
  · intro key tick found
    exact coherent.fresh (tick, key) ((coherent.inverse key tick).mp found)
  · exact drained ▸ KeyQueue.distinct _
  · intro key
    rw [drained, ← tracks.keys, coherent.contains_eq, decide_eq_true_iff]
  · exact drained ▸ KeyQueue.pairwise_touchedLater operations
  · rw [left.coherent.isEmpty_eq, left.keys]
    rfl

/-- One key is touched again, one is removed twice, and one is evicted and then asked for. -/
def restlessRun : List RecencyOperation :=
  [.touch ⟨"a"⟩, .touch ⟨"b"⟩, .touch ⟨"c"⟩, .touch ⟨"a"⟩, .remove ⟨"b"⟩, .remove ⟨"b"⟩,
    .evictOldest, .touch ⟨"d"⟩, .contains ⟨"c"⟩]

theorem restlessRun_eq_keyQueue :
    restlessRun.length < UInt64.size ∧
      (run {} restlessRun).1 = (KeyQueue.run {} restlessRun).1 ∧
      (run {} restlessRun).2.drain.1 = [⟨"a"⟩, ⟨"d"⟩] ∧
      (run {} restlessRun).2.drain.1.Pairwise (TouchedLater restlessRun) := by
  obtain ⟨views, -, -, -, drained, -, -, touched, -⟩ := run_new_eq_keyQueue restlessRun (by decide)
  exact ⟨by decide, views, drained.trans (by decide), touched⟩

end Recency
end CacheDepot
