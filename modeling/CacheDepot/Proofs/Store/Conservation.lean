import CacheDepot.Proofs.Store.Refinement
import Mathlib.Algebra.GroupWithZero.Nat

/-!
# Every entry leaves a store once

An entry comes into a store when a key is written that is not there, and it leaves by eviction,
removal, expiry or clearing. A run of a store is told step by step, and the steps say who came and
who left, and why. What came in and was not there before is what left and what is still there; and
each counter counts the steps of its kind.
-/

namespace CacheDepot

namespace Assoc

variable {κ ν : Type} [DecidableEq κ] {map : Assoc κ ν} {key : κ}

theorem keys_insert_of_mem (bound : key ∈ map.keys) (value : ν) :
    (map.insert key value).keys = map.keys :=
  (fst_put key value map.bindings).trans (if_pos bound)

theorem keys_insert_of_not_mem (fresh : key ∉ map.keys) (value : ν) :
    (map.insert key value).keys = map.keys ++ [key] :=
  (fst_put key value map.bindings).trans (if_neg fresh)

theorem keys_erase (map : Assoc κ ν) (key : κ) : (map.erase key).keys = map.keys.erase key := by
  have distinct : map.keys.Nodup := map.distinct
  rw [distinct.erase_eq_filter, keys, keys, List.filter_map]
  apply congrArg (List.map Prod.fst)
  apply List.filter_congr
  intro b _
  exact decide_not

theorem keys_perm_append_foldl_erase {keys : List κ} (distinct : keys.Nodup)
    (bound : ∀ key ∈ keys, key ∈ map.keys) :
    map.keys.Perm (keys ++ (keys.foldl erase map).keys) := by
  induction keys generalizing map with
  | nil => exact .refl _
  | cons first rest ih =>
    obtain ⟨once, distinct⟩ := List.nodup_cons.mp distinct
    have kept : ∀ key ∈ rest, key ∈ (map.erase first).keys := by
      intro key member
      have differs : key ≠ first := fun same => once (same ▸ member)
      rw [keys_erase, List.mem_erase_of_ne differs]
      exact bound key (List.mem_cons_of_mem _ member)
    have others := ih distinct kept
    rw [keys_erase] at others
    exact (List.perm_cons_erase (bound first List.mem_cons_self)).trans (others.cons first)

end Assoc

/-! ## The steps of a run -/

/-- Why an entry leaves a store. -/
inductive Departure where
  | evicted
  | deleted
  | expired
  | cleared
  deriving DecidableEq, Repr

/-- An operation on a store at a reading of the clock. -/
structure StoreStep where
  before : Store
  now : Nat
  operation : StoreOperation

/-- The steps of a run. -/
def Store.steps (s : Store) : List (Nat × StoreOperation) → List StoreStep
  | [] => []
  | (now, operation) :: rest => ⟨s, now, operation⟩ :: (s.perform now operation).2.steps rest

namespace StoreStep

def reply (step : StoreStep) : StoreReply := (step.before.perform step.now step.operation).1

def after (step : StoreStep) : Store := (step.before.perform step.now step.operation).2

def isSet (step : StoreStep) : Bool :=
  match step.operation with
  | .set _ _ _ => true
  | _ => false

/-- Whether this is a read that counts. -/
def isRead (step : StoreStep) : Bool :=
  match step.operation with
  | .get _ | .getEntry _ => true
  | _ => false

/-- Whether this is a read that was answered with something. -/
def isHit (step : StoreStep) : Bool :=
  match step.operation, step.reply with
  | .get _, .value found => found.isSome
  | .getEntry _, .entry found => found.isSome
  | _, _ => false

/-- Whether this is a write of a key that was not there. -/
def admits (step : StoreStep) : Bool :=
  match step.reply with
  | .outcome outcome => !outcome.replaced
  | _ => false

/-- Whether this is a write that named a key it dropped. -/
def evicts (step : StoreStep) : Bool :=
  match step.reply with
  | .outcome outcome => outcome.evicted.isSome
  | _ => false

/-- Whether this is a removal that found something. -/
def deletes (step : StoreStep) : Bool :=
  match step.reply with
  | .flag removed => removed
  | _ => false

/-- How many entries a sweep said it removed. -/
def swept (step : StoreStep) : Nat :=
  match step.reply with
  | .count n => n
  | _ => 0

/-- Whether this is a read that found an expired entry. -/
def findsExpired (step : StoreStep) : Bool :=
  match step.operation with
  | .get key | .getEntry key => (step.before.entries.get? key).any (·.isExpired step.now)
  | _ => false

/-- How many entries were cleared. -/
def cleared (step : StoreStep) : Nat :=
  match step.operation with
  | .clear => step.before.size
  | _ => 0

/-- The keys of the entries that came in. -/
def arrivals (step : StoreStep) : List CacheKey :=
  match step.operation with
  | .set key _ _ => if step.admits then [key] else []
  | _ => []

/-- The keys of the entries that left, and why they did. -/
def departures (step : StoreStep) : List (Departure × CacheKey) :=
  match step.operation, step.reply with
  | .set _ _ _, .outcome outcome => outcome.evicted.toList.map (.evicted, ·)
  | .get key, _ | .getEntry key, _ => if step.findsExpired then [(.expired, key)] else []
  | .delete key, .flag removed => if removed then [(.deleted, key)] else []
  | .sweep, _ => (step.before.expiredKeys step.now).map (.expired, ·)
  | .clear, _ => step.before.entries.keys.map (.cleared, ·)
  | _, _ => []

end StoreStep

/-! ## What one step does to the keys -/

namespace Represents

variable {s s' : Store} {l : UseList}

theorem keys (h : Represents s l) : s.entries.keys.Perm (l.entries.map Prod.fst) :=
  h.bindings.map Prod.fst

/-- What a full store drops is one of its keys. -/
theorem keys_evict (h : Represents s l) (full : s.capacity ≤ s.entries.size) :
    ∃ victim s', s.evict = (some victim, s') ∧ s.entries.keys.Perm (victim :: s'.entries.keys) := by
  have positive := l.positive
  rw [h.size, h.capacity] at full
  obtain ⟨b, rest, front⟩ := List.exists_cons_of_length_pos (by omega : 0 < l.entries.length)
  obtain ⟨s', evicted, h', -, -⟩ := h.evict front
  refine ⟨b.1, s', evicted, h.keys.trans ?_⟩
  rw [front, List.map_cons]
  exact h'.keys.symm.cons b.1

end Represents

namespace StoreStep

variable {s : Store} {l : UseList} {now : Nat} {key : CacheKey}

/-- What comes in and what was there is what leaves and what is there afterwards. -/
def Balances (step : StoreStep) : Prop :=
  (step.arrivals ++ step.before.entries.keys).Perm
    (step.departures.map Prod.snd ++ step.after.entries.keys)

theorem balances_set (h : Represents s l) (value : Json) (ttl : Option Duration) :
    Balances ⟨s, now, .set key value ttl⟩ := by
  cases resident : s.entries.contains key with
  | true =>
    have same := Assoc.keys_insert_of_mem (Assoc.contains_iff.mp resident)
      (.new now value (ttl.or s.defaultTtl))
    simp only [Balances, arrivals, departures, admits, reply, after, Store.perform,
      Store.set_of_resident now value ttl resident]
    exact .of_eq same.symm
  | false =>
    have fresh : key ∉ s.entries.keys := by
      rw [← Assoc.contains_iff, resident]
      exact Bool.false_ne_true
    by_cases full : s.capacity ≤ s.entries.size
    · obtain ⟨victim, s', evicted, kept⟩ := h.keys_evict full
      have fresh' : key ∉ s'.entries.keys := fun member =>
        fresh (kept.mem_iff.mpr (List.mem_cons_of_mem _ member))
      have added := Assoc.keys_insert_of_not_mem fresh' (.new now value (ttl.or s'.defaultTtl))
      simp only [Balances, arrivals, departures, admits, reply, after, Store.perform,
        Store.set_of_full now value ttl resident full evicted]
      refine ((kept.cons key).trans (.swap victim key _)).trans (.cons victim ?_)
      exact (List.perm_append_singleton key s'.entries.keys).symm.trans (.of_eq added.symm)
    · have added := Assoc.keys_insert_of_not_mem fresh (.new now value (ttl.or s.defaultTtl))
      simp only [Balances, arrivals, departures, admits, reply, after, Store.perform,
        Store.set_of_room now value ttl resident (by omega)]
      exact (List.perm_append_singleton key s.entries.keys).symm.trans (.of_eq added.symm)

theorem balances_getEntry : Balances ⟨s, now, .getEntry key⟩ := by
  cases found : s.entries.get? key with
  | none =>
    simp only [Balances, arrivals, departures, findsExpired, after, Store.perform, Store.getEntry,
      found]
    exact .refl _
  | some e =>
    have bound : key ∈ s.entries.keys := by
      rw [← Assoc.contains_iff, Assoc.contains, found, Option.isSome_some]
    by_cases expired : e.isExpired now
    · simp only [Balances, arrivals, departures, findsExpired, after, Store.perform,
        Store.getEntry, found, Option.any_some, expired, if_true]
      have gone := List.perm_cons_erase bound
      rw [← Assoc.keys_erase] at gone
      exact gone
    · simp only [Balances, arrivals, departures, findsExpired, after, Store.perform,
        Store.getEntry, found, Option.any_some, expired]
      exact .of_eq (Assoc.keys_insert_of_mem bound _).symm

theorem balances_delete : Balances ⟨s, now, .delete key⟩ := by
  simp only [Balances, arrivals, departures, reply, after, Store.perform, Store.delete]
  cases resident : s.entries.contains key with
  | false => exact .refl _
  | true =>
    have gone := List.perm_cons_erase (Assoc.contains_iff.mp resident)
    rw [← Assoc.keys_erase] at gone
    exact gone

theorem balances_sweep : Balances ⟨s, now, .sweep⟩ := by
  have distinct : (s.expiredKeys now).Nodup := Assoc.nodup_filter_fst _ s.entries.distinct
  have bound : ∀ key ∈ s.expiredKeys now, key ∈ s.entries.keys := by
    intro key member
    obtain ⟨b, held, rfl⟩ := List.mem_map.mp member
    exact List.mem_map_of_mem (List.mem_filter.mp held).1
  simp only [Balances, arrivals, departures, after, Store.perform, Store.sweep, List.map_map]
  exact (Assoc.keys_perm_append_foldl_erase distinct bound).trans
    (.of_eq (congrArg (· ++ _) (List.map_id _).symm))

theorem balances_clear : Balances ⟨s, now, .clear⟩ := by
  simp only [Balances, arrivals, departures, List.map_map]
  exact .of_eq ((List.map_id _).symm.trans (List.append_nil _).symm)

theorem balances (h : Represents s l) (operation : StoreOperation) :
    Balances ⟨s, now, operation⟩ := by
  cases operation with
  | set key value ttl => exact balances_set h value ttl
  | get key => exact balances_getEntry
  | getEntry key => exact balances_getEntry
  | peek key => exact .refl _
  | delete key => exact balances_delete
  | sweep => exact balances_sweep
  | clear => exact balances_clear

end StoreStep

/-! ## What one step does to the counts -/

namespace UseList

variable (l : UseList) (now : Nat) (key : CacheKey)

theorem tally_set (value : Json) (ttl : Option Duration) :
    (l.set now key value ttl).2.tally = { l.tally with
      sets := l.tally.sets + 1
      evictions := l.tally.evictions + (l.set now key value ttl).1.evicted.isSome.toNat } := by
  rw [set]
  split
  · rfl
  · split
    · rfl
    · have room := l.positive
      obtain ⟨b, rest, front⟩ := List.exists_cons_of_length_pos (by omega : 0 < l.entries.length)
      rw [front]
      rfl

theorem tally_getEntry :
    (l.getEntry now key).2.tally = { l.tally with
      hits := l.tally.hits + (l.getEntry now key).1.isSome.toNat
      misses := l.tally.misses + (l.getEntry now key).1.isNone.toNat
      expirations := l.tally.expirations + ((l.lookup key).any (·.isExpired now)).toNat } := by
  rw [getEntry]
  cases l.lookup key with
  | none => rfl
  | some e => cases expired : e.isExpired now <;> simp [expired]

theorem tally_delete :
    (l.delete key).2.tally =
      { l.tally with deletes := l.tally.deletes + (l.delete key).1.toNat } := by
  rw [delete]
  cases l.lookup key <;> rfl

end UseList

namespace StoreStep

variable {s : Store} {l : UseList} {n now : Nat}

/-- Adds what the step says to counts. -/
def count (step : StoreStep) (t : Tally) : Tally where
  hits := t.hits + step.isHit.toNat
  misses := t.misses + (step.isRead && !step.isHit).toNat
  sets := t.sets + step.isSet.toNat
  deletes := t.deletes + step.deletes.toNat
  evictions := t.evictions + step.evicts.toNat
  expirations := t.expirations + (step.swept + step.findsExpired.toNat)

/-- The counters count what the step says. -/
theorem tally_after (h : Represents s l) (room : s.recency.HasRoom) (bounded : l.Bounded n)
    (short : n + 1 < UInt64.size) (operation : StoreOperation) :
    (s.perform now operation).2.counters.tally =
      count ⟨s, now, operation⟩ s.counters.tally := by
  obtain ⟨replies, h', -⟩ := h.perform now room bounded short operation
  rw [h'.tally, h.tally]
  cases operation with
  | set key value ttl =>
    have outcomes : (s.set now key value ttl).1 = (l.set now key value ttl).1 :=
      StoreReply.outcome.inj replies
    apply (l.tally_set now key value ttl).trans
    rw [← outcomes]
    rfl
  | get key =>
    obtain ⟨found, -, -⟩ := h.getEntry now key room bounded short
    apply (l.tally_getEntry now key).trans
    rw [← found, ← h.get?]
    simp [count, isHit, isRead, isSet, deletes, evicts, swept, findsExpired, reply,
      Store.perform, Store.get]
  | getEntry key =>
    obtain ⟨found, -, -⟩ := h.getEntry now key room bounded short
    apply (l.tally_getEntry now key).trans
    rw [← found, ← h.get?]
    simp [count, isHit, isRead, isSet, deletes, evicts, swept, findsExpired, reply,
      Store.perform]
  | peek key => rfl
  | delete key =>
    have removed : (s.delete key).1 = (l.delete key).1 := StoreReply.flag.inj replies
    apply (l.tally_delete key).trans
    rw [← removed]
    rfl
  | sweep =>
    have removed : (s.sweep now).1 = (l.sweep now).1 := StoreReply.count.inj replies
    have tally : (l.sweep now).2.tally =
        { l.tally with expirations := l.tally.expirations + (l.sweep now).1 } := rfl
    apply tally.trans
    rw [← removed]
    rfl
  | clear => rfl

end StoreStep

/-! ## What a run does -/

namespace StoreStep

theorem countP_cons_toNat (p : StoreStep → Bool) (step : StoreStep) (steps : List StoreStep) :
    (step :: steps).countP p = (p step).toNat + steps.countP p := by
  rw [List.countP_cons, Nat.add_comm]
  cases p step <;> rfl

/-- Steps count each for itself. -/
theorem foldl_count (steps : List StoreStep) (t : Tally) :
    steps.foldl (fun t step => step.count t) t =
      { hits := t.hits + steps.countP (·.isHit)
        misses := t.misses + steps.countP (fun step => step.isRead && !step.isHit)
        sets := t.sets + steps.countP (·.isSet)
        deletes := t.deletes + steps.countP (·.deletes)
        evictions := t.evictions + steps.countP (·.evicts)
        expirations := t.expirations +
          ((steps.map (·.swept)).sum + steps.countP (·.findsExpired)) } := by
  induction steps generalizing t with
  | nil => rfl
  | cons step rest ih =>
    rw [List.foldl_cons, ih, Tally.mk.injEq]
    simp only [count, countP_cons_toNat, List.map_cons, List.sum_cons]
    refine ⟨?_, ?_, ?_, ?_, ?_, ?_⟩ <;> omega

/-- How many entries left in a step for a reason, as far as the step says. -/
def left (step : StoreStep) : Departure → Nat
  | .evicted => step.evicts.toNat
  | .deleted => step.deletes.toNat
  | .expired => step.swept + step.findsExpired.toNat
  | .cleared => step.cleared

theorem countP_reason (r reason : Departure) (keys : List CacheKey) :
    (keys.map (r, ·)).countP (·.1 = reason) = if r = reason then keys.length else 0 := by
  rw [List.countP_map]
  split
  · rename_i same
    exact List.countP_eq_length.mpr fun key _ => decide_eq_true same
  · rename_i differs
    exact List.countP_eq_zero.mpr fun key _ => by simp [differs]

theorem countP_departures (step : StoreStep) (reason : Departure) :
    step.departures.countP (·.1 = reason) = step.left reason := by
  obtain ⟨s, now, operation⟩ := step
  have named (o : Option CacheKey) : o.toList.length = o.isSome.toNat := by cases o <;> rfl
  cases operation with
  | set key value ttl =>
    rw [departures, reply, Store.perform]
    dsimp only [Prod.map]
    rw [countP_reason, named]
    cases reason <;> rfl
  | get key =>
    rw [departures, left.eq_def]
    cases expired : findsExpired ⟨s, now, .get key⟩ <;> cases reason <;> rfl
  | getEntry key =>
    rw [departures, left.eq_def]
    cases expired : findsExpired ⟨s, now, .getEntry key⟩ <;> cases reason <;> rfl
  | peek key => cases reason <;> rfl
  | delete key =>
    have said : left ⟨s, now, .delete key⟩ reason =
        if Departure.deleted = reason then (s.delete key).1.toNat else 0 := by
      cases reason <;> rfl
    rw [said, departures, reply, Store.perform]
    dsimp only [Prod.map]
    cases (s.delete key).1 <;> cases reason <;> rfl
  | sweep =>
    rw [departures, countP_reason]
    cases reason <;> rfl
  | clear =>
    have all : s.entries.keys.length = s.size := List.length_map Prod.fst
    rw [departures, countP_reason, all]
    cases reason <;> rfl

theorem length_arrivals (step : StoreStep) : step.arrivals.length = step.admits.toNat := by
  obtain ⟨s, now, operation⟩ := step
  cases operation with
  | set key value ttl =>
    rw [arrivals]
    cases admits _ <;> rfl
  | _ => rfl

/-- Whoever left did so for one of the four reasons. -/
theorem length_departures (departures : List (Departure × CacheKey)) :
    departures.length = departures.countP (·.1 = .evicted) + departures.countP (·.1 = .deleted) +
      departures.countP (·.1 = .expired) + departures.countP (·.1 = .cleared) := by
  induction departures with
  | nil => rfl
  | cons d rest ih =>
    obtain ⟨reason, key⟩ := d
    cases reason <;> simp [ih] <;> omega

end StoreStep

namespace Represents

variable {s : Store} {l : UseList} {n : Nat}

/-- From the store of a list, a run counts what its steps say and loses no entry on the way. -/
theorem run_steps (h : Represents s l) (bounded : l.Bounded n)
    (ticks : s.recency.nextTick.toNat ≤ n) (operations : List (Nat × StoreOperation))
    (short : n + operations.length < UInt64.size) :
    (s.run operations).2.counters.tally =
        (s.steps operations).foldl (fun t step => step.count t) s.counters.tally ∧
      ((s.steps operations).flatMap (·.arrivals) ++ s.entries.keys).Perm
        (((s.steps operations).flatMap (·.departures)).map Prod.snd ++
          (s.run operations).2.entries.keys) := by
  induction operations generalizing s l n with
  | nil => exact ⟨rfl, .refl _⟩
  | cons o rest ih =>
    obtain ⟨now, operation⟩ := o
    rw [List.length_cons] at short
    have room : s.recency.HasRoom := Nat.lt_of_le_of_lt (Nat.succ_le_succ ticks) (by omega)
    obtain ⟨-, kept, used⟩ := h.perform now room bounded (by omega) operation
    obtain ⟨tally, keys⟩ := ih kept (bounded.perform now operation)
      (Nat.le_trans used (Nat.succ_le_succ ticks)) (by omega)
    constructor
    · apply tally.trans
      rw [StoreStep.tally_after h room bounded (by omega)]
      rfl
    · have first : StoreStep.Balances ⟨s, now, operation⟩ := StoreStep.balances h operation
      simp only [Store.steps, Store.run, List.flatMap_cons, List.map_append, List.append_assoc]
      apply (List.perm_append_comm_assoc _ _ _).trans
      apply (first.append_left _).trans
      apply (List.perm_append_comm_assoc _ _ _).trans
      exact keys.append_left _

end Represents

/-- What the report of the last store of a run says about the steps of the run. -/
structure Store.Conserves (steps : List StoreStep) (last : Store) : Prop where
  /-- Writes of new keys are the entries there and those that left, of which the cleared ones have
  no counter. -/
  admitted : steps.countP (·.admits) = last.stats.size + last.stats.counters.evictions.toNat +
    last.stats.counters.deletes.toNat + last.stats.counters.expirations.toNat +
    (steps.map (·.cleared)).sum
  reads : last.stats.counters.hits.toNat + last.stats.counters.misses.toNat =
    steps.countP (·.isRead)
  hits : last.stats.counters.hits.toNat = steps.countP (·.isHit)
  sets : last.stats.counters.sets.toNat = steps.countP (·.isSet)
  evictions : last.stats.counters.evictions.toNat = steps.countP (·.evicts)
  deletes : last.stats.counters.deletes.toNat = steps.countP (·.deletes)
  expirations : last.stats.counters.expirations.toNat =
    (steps.map (·.swept)).sum + steps.countP (·.findsExpired)
  /-- Each arrival of a key is one departure of it, or the key is still there. -/
  once : (steps.flatMap (·.arrivals)).Perm
    ((steps.flatMap (·.departures)).map Prod.snd ++ last.entries.keys)
  /-- The departures for a reason are those that are counted for it. -/
  reasons : ∀ reason, (steps.flatMap (·.departures)).countP (·.1 = reason) =
    match reason with
    | .evicted => last.stats.counters.evictions.toNat
    | .deleted => last.stats.counters.deletes.toNat
    | .expired => last.stats.counters.expirations.toNat
    | .cleared => (steps.map (·.cleared)).sum

namespace StoreStep

variable (steps : List StoreStep)

theorem length_flatMap_arrivals :
    (steps.flatMap (·.arrivals)).length = steps.countP (·.admits) := by
  induction steps with
  | nil => rfl
  | cons step rest ih =>
    rw [List.flatMap_cons, List.length_append, length_arrivals, ih, countP_cons_toNat]

theorem countP_flatMap_departures (reason : Departure) :
    (steps.flatMap (·.departures)).countP (·.1 = reason) =
      match reason with
      | .evicted => steps.countP (·.evicts)
      | .deleted => steps.countP (·.deletes)
      | .expired => (steps.map (·.swept)).sum + steps.countP (·.findsExpired)
      | .cleared => (steps.map (·.cleared)).sum := by
  induction steps with
  | nil => cases reason <;> rfl
  | cons step rest ih =>
    rw [List.flatMap_cons, List.countP_append, countP_departures, ih]
    cases reason <;> simp only [left, countP_cons_toNat, List.map_cons, List.sum_cons]
    omega

/-- Where all that came in left or is there, there were as many writes of new keys. -/
theorem countP_admits {last : Store} (once : (steps.flatMap (·.arrivals)).Perm
    ((steps.flatMap (·.departures)).map Prod.snd ++ last.entries.keys)) :
    steps.countP (·.admits) = last.size + steps.countP (·.evicts) + steps.countP (·.deletes) +
      ((steps.map (·.swept)).sum + steps.countP (·.findsExpired)) +
      (steps.map (·.cleared)).sum := by
  have there : last.entries.keys.length = last.size := List.length_map Prod.fst
  rw [← length_flatMap_arrivals, once.length_eq, List.length_append, List.length_map, there,
    length_departures]
  simp only [countP_flatMap_departures]
  omega

theorem isRead_of_isHit {step : StoreStep} (hit : step.isHit = true) : step.isRead = true := by
  obtain ⟨s, now, operation⟩ := step
  cases operation with
  | get key => rfl
  | getEntry key => rfl
  | _ => cases hit

theorem countP_isRead :
    steps.countP (·.isHit) + steps.countP (fun step => step.isRead && !step.isHit) =
      steps.countP (·.isRead) := by
  induction steps with
  | nil => rfl
  | cons step rest ih =>
    have one : step.isHit.toNat + (step.isRead && !step.isHit).toNat = step.isRead.toNat := by
      cases hit : step.isHit with
      | false => simp
      | true => simp [isRead_of_isHit hit]
    simp only [countP_cons_toNat]
    omega

end StoreStep

/-- In every run of fewer than 2 ^ 64 operations of a fresh store, whatever the clock reads, all
counters count what they say, and each entry that came in leaves once, for one reason, or is there
at the end. -/
theorem Store.conserves_run (capacity : Nat) (defaultTtl : Option Duration)
    (operations : List (Nat × StoreOperation)) (short : operations.length < UInt64.size) :
    Conserves ((new capacity defaultTtl).steps operations)
      ((new capacity defaultTtl).run operations).2 := by
  obtain ⟨tally, once⟩ := (represents_new capacity defaultTtl).run_steps
    (UseList.bounded_new capacity defaultTtl) (Nat.le_refl 0) operations (by omega)
  have fresh : (new capacity defaultTtl).counters.tally = {} := rfl
  have empty : (new capacity defaultTtl).entries.keys = [] := rfl
  rw [fresh, StoreStep.foldl_count] at tally
  rw [empty, List.append_nil] at once
  generalize (new capacity defaultTtl).steps operations = steps at tally once ⊢
  generalize ((new capacity defaultTtl).run operations).2 = last at tally once ⊢
  have hits := (congrArg Tally.hits tally).trans (Nat.zero_add _)
  have misses := (congrArg Tally.misses tally).trans (Nat.zero_add _)
  have evictions := (congrArg Tally.evictions tally).trans (Nat.zero_add _)
  have deletes := (congrArg Tally.deletes tally).trans (Nat.zero_add _)
  have expirations := (congrArg Tally.expirations tally).trans (Nat.zero_add _)
  have reasons := StoreStep.countP_flatMap_departures steps
  refine ⟨?_, ?_, hits, (congrArg Tally.sets tally).trans (Nat.zero_add _), evictions, deletes,
    expirations, once, ?_⟩
  · rw [StoreStep.countP_admits steps once, ← evictions, ← deletes, ← expirations]
    rfl
  · rw [← StoreStep.countP_isRead, ← hits, ← misses]
    rfl
  · intro reason
    rw [reasons]
    cases reason with
    | evicted => exact evictions.symm
    | deleted => exact deletes.symm
    | expired => exact expirations.symm
    | cleared => rfl

/-- A run in which entries leave in all ways: by eviction, by a read and by a sweep after their
time, by removal, and by clearing. -/
def busyRun : List (Nat × StoreOperation) :=
  [(1, .set ⟨"a"⟩ .null none), (2, .set ⟨"b"⟩ .null (some (.ofMillis 3))),
    (3, .set ⟨"c"⟩ .null (some (.ofMillis 9))), (6, .get ⟨"b"⟩), (6, .peek ⟨"c"⟩),
    (7, .set ⟨"a"⟩ .null none), (7, .getEntry ⟨"a"⟩), (20, .sweep), (5, .delete ⟨"a"⟩),
    (5, .delete ⟨"a"⟩), (5, .set ⟨"d"⟩ .null none), (5, .set ⟨"d"⟩ .null none), (5, .clear),
    (5, .set ⟨"e"⟩ .null none)]

theorem conserves_busyRun : busyRun.length < UInt64.size ∧
    Store.Conserves ((Store.new 2 none).steps busyRun) ((Store.new 2 none).run busyRun).2 :=
  ⟨by decide, Store.conserves_run 2 none busyRun (by decide)⟩

example : ((Store.new 2 none).steps busyRun).map (·.departures.map Prod.fst) =
    [[], [], [.evicted], [.expired], [], [], [], [.expired], [.deleted], [], [], [], [.cleared],
      []] := by
  decide

end CacheDepot
