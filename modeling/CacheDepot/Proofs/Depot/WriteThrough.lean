import CacheDepot.Proofs.Depot.TaskOrigins
import CacheDepot.Proofs.Depot.Reloads

/-!
# What a write through the cache leaves in its store

A write that persists its value first does two things that others notice: the value is persisted,
and once the write has got its store the value is cached there. Calls for the same key may overlap
in any way, and between the two another call may do either, or the call may be given up. So the
store holds the value of the call that was the last to cache one, which had persisted it before. A
value that was persisted later was cached earlier, still waits for the store, or was given up when
it did.
-/

namespace CacheDepot

/-- What a call that persists its value first does with the key that it is for. -/
inductive Effect where
  | persisted (call : Nat) (value : Json)
  | cached (call : Nat) (value : Json)
  /-- The call is given up while it waits for its store. -/
  | givenUp (call : Nat) (value : Json)

namespace Effect

def call : Effect → Nat
  | .persisted call _ | .cached call _ | .givenUp call _ => call

/-- The value that is in the store after this. -/
def cached? : Effect → Option Json
  | .persisted _ _ | .givenUp _ _ => none
  | .cached _ value => some value

/-- What one call has done. -/
def ofCall (call : Nat) (log : List Effect) : List Effect := log.filter fun e => e.call = call

theorem mem_ofCall_iff {e : Effect} {call : Nat} {log : List Effect} :
    e ∈ ofCall call log ↔ e ∈ log ∧ e.call = call := by
  rw [ofCall, List.mem_filter, decide_eq_true_eq]

theorem ofCall_append (call : Nat) (log later : List Effect) :
    ofCall call (log ++ later) = ofCall call log ++ ofCall call later :=
  List.filter_append ..

theorem ofCall_cons (e : Effect) (later : List Effect) :
    ofCall e.call (e :: later) = e :: ofCall e.call later :=
  List.filter_cons_of_pos (decide_eq_true rfl)

theorem ofCall_concat (e : Effect) (log : List Effect) :
    ofCall e.call (log ++ [e]) = ofCall e.call log ++ [e] := by
  rw [ofCall_append, ofCall_cons]
  rfl

/-- Where a call has not done anything more, what it has done is the same. -/
theorem ofCall_append_of_ne {call : Nat} {log : List Effect} {e? : Option Effect}
    (others : ∀ e, e? = some e → e.call ≠ call) :
    ofCall call (log ++ e?.toList) = ofCall call log := by
  rw [ofCall_append]
  cases e? with
  | none => exact List.append_nil _
  | some e =>
    have none : ofCall call [e] = [] := List.filter_eq_nil_iff.mpr (by simpa using others e rfl)
    rw [Option.toList_some, none, List.append_nil]

/-- What a call has done after it has persisted its value comes later than that. -/
theorem mem_of_persisted {call : Nat} {value value' : Json} {e : Effect}
    {earlier later : List Effect}
    (done : ofCall call (earlier ++ later) = [.persisted call value', e])
    (member : .persisted call value ∈ later) (differs : e ≠ .persisted call value) :
    value = value' ∧ e ∈ later := by
  have known : .persisted call value ∈ ofCall call later := mem_ofCall_iff.mpr ⟨member, rfl⟩
  rw [ofCall_append] at done
  generalize ofCall call earlier = first at done
  rcases first with _ | ⟨e₁, _ | ⟨e₂, rest⟩⟩
  · rw [List.nil_append] at done
    rw [done] at known
    have later' : e ∈ ofCall call later := by simp [done]
    simp only [List.mem_cons, List.not_mem_nil, or_false] at known
    rcases known with same | same
    · cases same
      exact ⟨rfl, (mem_ofCall_iff.mp later').1⟩
    · exact absurd same.symm differs
  · simp only [List.cons_append, List.nil_append, List.cons.injEq] at done
    rw [done.2, List.mem_singleton] at known
    exact absurd known.symm differs
  · simp only [List.cons_append, List.cons.injEq, List.append_eq_nil_iff] at done
    rw [done.2.2.2] at known
    cases known

theorem cached?_eq_some_iff {e : Effect} {value : Json} :
    e.cached? = some value ↔ ∃ call, e = .cached call value := by
  cases e <;> simp [cached?]

end Effect

namespace Depot

variable {d d' : Depot} {cell : Nat} {key : CacheKey} {now call : Nat} {a : Action} {h : Handle}
  {value : Json} {ttl : Option Duration}

/-- The value that a call waits to cache under this key of the store in a cell. -/
def awaited? (cell : Nat) (key : CacheKey) (d : Depot) (call : Nat) : Option Json :=
  match d.tasks.get? call with
  | some (.caching h key' value _) =>
    if Write.isAt cell key ⟨h, key', value⟩ then some value else none
  | _ => none

theorem awaited?_eq_some_iff :
    d.awaited? cell key call = some value ↔
      ∃ h ttl, h.cell = cell ∧ d.tasks.get? call = some (.caching h key value ttl) := by
  constructor
  · intro awaits
    unfold awaited? at awaits
    split at awaits
    · rename_i h key' value' ttl bound
      split at awaits
      · rename_i here
        obtain ⟨same, rfl⟩ := Write.isAt_iff.mp here
        cases awaits
        exact ⟨h, ttl, same, bound⟩
      · cases awaits
    · cases awaits
  · rintro ⟨h, ttl, same, bound⟩
    rw [awaited?, bound]
    exact if_pos (Write.isAt_iff.mpr ⟨same, rfl⟩)

/-- What a call does with an action to this key of the store in a cell: its value is persisted,
since the attempt has ended and has not failed, it is cached, or the call is given up between. -/
def effect? (cell : Nat) (key : CacheKey) (d : Depot) (now : Nat) : Action → Option Effect
  | .start (.writeThrough store key' value _ persist) =>
    let attempt := persist.attempt 0
    if Write.isAt cell key ⟨d.getCache store, key', value⟩ && attempt.delay = 0 &&
        attempt.failure.isNone then
      some (.persisted d.nextTask value)
    else none
  | .resume call =>
    match d.tasks.get? call with
    | some (.persisting h key' value _ attempt due) =>
      if Write.isAt cell key ⟨h, key', value⟩ && due ≤ now && attempt.failure.isNone then
        some (.persisted call value)
      else none
    | _ => (d.awaited? cell key call).map (.cached call)
  | .abort call => (d.awaited? cell key call).map (.givenUp call)
  | _ => none

/-- What calls do in a run to this key of the store in a cell, in the order in which they do it. -/
def effects (cell : Nat) (key : CacheKey) (d : Depot) : List (Nat × Action) → List Effect
  | [] => []
  | (now, a) :: rest => (d.effect? cell key now a).toList ++ (d.act now a).effects cell key rest

/-- Whether an action caches a value that was persisted. -/
def isCaching (d : Depot) : Action → Bool
  | .resume call =>
    match d.tasks.get? call with
    | some (.caching _ _ _ _) => true
    | _ => false
  | _ => false

/-- Whether every write in a run to this key of the store in a cell persists its value first. -/
def throughOnly (cell : Nat) (key : CacheKey) (d : Depot) : List (Nat × Action) → Bool
  | [] => true
  | (now, a) :: rest =>
    (d.isCaching a || (d.writes now a).all fun w => !w.isAt cell key) &&
      (d.act now a).throughOnly cell key rest

/-- Whether the store in a cell has under a key the last of these values, or nothing. -/
def HoldsLast (cell : Nat) (key : CacheKey) (values : List Json) (d : Depot) : Prop :=
  ∀ value, (d.store cell).resident? key = some value → values.getLast? = some value

theorem HoldsLast.fades {values : List Json} (h : d.HoldsLast cell key values)
    (fades : d.Fades cell key d') : d'.HoldsLast cell key values :=
  fun value there => h value (fades value there)

/-- A write of the key brings its value. -/
theorem HoldsLast.setKey {values : List Json} (h : d.HoldsLast cell key values) (now : Nat)
    (w : Write) (ttl : Option Duration) :
    (d.setKey now w.handle w.key w.value ttl).2.HoldsLast cell key
      (values ++ if w.isAt cell key then [w.value] else []) := by
  by_cases here : w.isAt cell key = true
  · rw [if_pos here]
    obtain ⟨rfl, rfl⟩ := Write.isAt_iff.mp here
    intro value there
    rw [d.resident?_setKey now w.handle w.key w.value ttl there, List.getLast?_concat]
  · rw [if_neg here, List.append_nil]
    exact h.fades (d.fades_setKey now (Bool.eq_false_iff.mpr here) ttl)

/-! ## Calls that wait for their store -/

/-- Only where its attempt has not failed a call waits for its store. -/
theorem afterPersist_eq_waits {h' : Handle} {key' : CacheKey} {value' : Json}
    {ttl' : Option Duration} {attempt : Attempt}
    (waits : afterPersist h' key' value' ttl' attempt = .waits (.caching h key value ttl)) :
    attempt.failure = none ∧ h' = h ∧ key' = key ∧ value' = value := by
  unfold afterPersist at waits
  split at waits
  · cases waits
  · rename_i succeeds
    cases waits
    exact ⟨succeeds, rfl, rfl, rfl⟩

/-- Only a write that persists its value first leaves a call behind that waits for its store. -/
theorem start_eq_waits_caching {operation : Operation}
    (waits : (d.start now operation).1 = .waits (.caching h key value ttl)) :
    ∃ store ttl' persist, operation = .writeThrough store key value ttl' persist ∧
      h = d.getCache store ∧ (persist.attempt 0).delay = 0 ∧
      (persist.attempt 0).failure = none := by
  have idle {p : Progress} (none : p.brings = []) (waits : p = .waits (.caching h key value ttl)) :
      False := by
    cases waits
    cases none
  have loads {d : Depot} {h' : Handle} {key' : CacheKey} {ttl' : Option Duration} {loader : Loader}
      (waits : (d.load now h' key' ttl' loader).1 = .waits (.caching h key value ttl)) : False := by
    rw [load] at waits
    split at waits <;> cases waits
  cases operation with
  | create name config =>
    rw [start] at waits
    split at waits <;> cases waits
  | cacheAside store key' ttl' loader =>
    rw [start, cacheAside] at waits
    split at waits
    rename_i found d' _
    cases found with
    | some value => cases waits
    | none => exact (loads waits).elim
  | refreshAhead store key' ttl' threshold loader =>
    rw [start, refreshAhead] at waits
    split at waits
    rename_i entry d' _
    cases entry with
    | some e => cases waits
    | none => exact (loads waits).elim
  | writeThrough store key' value' ttl' persist =>
    rw [start, writeThrough] at waits
    split at waits
    · rename_i atOnce
      obtain ⟨succeeds, rfl, rfl, rfl⟩ := afterPersist_eq_waits waits
      exact ⟨store, ttl', persist, rfl, rfl, atOnce, succeeds⟩
    · cases waits
  | drain => exact (idle (brings_awaitWorker _ now _ rfl fun _ _ => rfl) waits).elim
  | flush => exact (idle (brings_awaitWorker _ now _ rfl fun _ _ => rfl) waits).elim
  | destroy => exact (idle (brings_beginTearDown d now false) waits).elim
  | shutdown => exact (idle (brings_beginTearDown d now true) waits).elim
  | _ => cases waits

/-- Only a call whose attempt has not failed goes on to wait for its store. -/
theorem persisting_of_resumeTask {t : Task} (brings : ⟨h, key, value⟩ ∈ t.brings)
    (found : (d.resumeTask now call t).tasks.get? call = some (.caching h key value ttl)) :
    ∃ ttl' attempt due, t = .persisting h key value ttl' attempt due ∧
      attempt.failure = none := by
  cases t with
  | persisting h' key' value' ttl' attempt due =>
    rcases cases_of_settleTask found with ⟨answer, ended⟩ | waits
    · cases ended
    · obtain ⟨succeeds, rfl, rfl, rfl⟩ := afterPersist_eq_waits waits
      exact ⟨ttl', attempt, due, rfl, succeeds⟩
  | caching h' key' value' ttl' => cases (Assoc.get?_insert_self ..).symm.trans found
  | loading h' key' ttl' loader due => cases (Assoc.get?_insert_self ..).symm.trans found
  | reloadReady h' key' ttl' loader =>
    rw [resumeTask] at found
    split at found
    · cases (get?_dropTask ..).symm.trans found
    · cases (Assoc.get?_insert_self ..).symm.trans found
  | reloading h' key' ttl' loader due => cases (get?_dropTask ..).symm.trans found
  | storing h' key' value' ttl' => cases (get?_dropTask ..).symm.trans found
  | _ => cases brings

/-- A call that waits for its store has done so before, or it has just persisted its value. -/
theorem caching_of_act (numbered : d.Numbered)
    (found : (d.act now a).tasks.get? call = some (.caching h key value ttl)) :
    d.tasks.get? call = some (.caching h key value ttl) ∨
      d.effect? h.cell key now a = some (.persisted call value) := by
  by_cases called : ∃ operation, a = .start operation
  · obtain ⟨operation, rfl⟩ := called
    rcases cases_of_start found with ⟨rfl, ⟨answer, ended⟩ | waits⟩ |
      (⟨worker, drains⟩ | ⟨h', key', ttl', loader, reloads⟩) | was
    · cases ended
    · obtain ⟨store, ttl', persist, rfl, rfl, atOnce, succeeds⟩ := start_eq_waits_caching waits
      right
      exact if_pos (by simp [atOnce, succeeds, Write.isAt, getCache])
    · cases drains
    · cases reloads
    · exact .inl was
  · obtain ⟨t, bound, becomes⟩ :=
      exists_becomes_of_act (fun operation same => called ⟨operation, same⟩) found
    by_cases own : a.target? = some call
    · have brings : ⟨h, key, value⟩ ∈ t.brings :=
        becomes.brings_subset (List.mem_singleton_self _)
      rcases Action.cases_of_target? own with rfl | ⟨other, rfl⟩ | rfl
      · rw [act, resume, bound] at found
        dsimp only at found
        split at found
        · rename_i ready
          obtain ⟨ttl', attempt, due, rfl, succeeds⟩ := persisting_of_resumeTask brings found
          have past : due ≤ now := of_decide_eq_true ready
          right
          rw [effect?, bound]
          exact if_pos (by simp [Write.isAt, past, succeeds])
        · exact .inl found
      · left
        rw [act, emptyOne, bound] at found
        cases t with
        | clearing left answer => cases brings
        | _ => exact found
      · rw [act, abort, bound] at found
        cases t with
        | ended answer => cases brings
        | _ => cases (get?_dropTask ..).symm.trans found
    · left
      rw [← (d.turn_act now a).get?_of_ne (numbered call t bound) own]
      exact found

/-- A call that waits for its store goes on waiting, caches its value, or is given up. -/
theorem act_of_caching (bound : d.tasks.get? call = some (.caching h key value ttl))
    (old : call < d.nextTask) (now : Nat) (a : Action) :
    ((a ≠ .resume call ∧ a ≠ .abort call) ∧
      (d.act now a).tasks.get? call = some (.caching h key value ttl)) ∨
    (a = .resume call ∧ d.act now a =
      settleTask call (.answered (.found (some value)), (d.setKey now h key value ttl).2)) ∨
    (a = .abort call ∧ (d.act now a).tasks.get? call = none) := by
  by_cases own : a.target? = some call
  · rcases Action.cases_of_target? own with rfl | ⟨other, rfl⟩ | rfl
    · refine .inr (.inl ⟨rfl, ?_⟩)
      rw [act, resume, bound]
      rfl
    · refine .inl ⟨by simp, ?_⟩
      rw [act, emptyOne, bound]
      exact bound
    · refine .inr (.inr ⟨rfl, ?_⟩)
      rw [act, abort, bound]
      exact get?_dropTask d call
  · refine .inl ⟨⟨?_, ?_⟩, ((d.turn_act now a).get?_of_ne old own).trans bound⟩
    · rintro rfl
      exact own rfl
    · rintro rfl
      exact own rfl

/-! ## Effects -/

/-- A call that persists its value has just been called or waited for the attempt, and it waits for
its store then. -/
theorem of_effect?_persisted (e : d.effect? cell key now a = some (.persisted call value)) :
    (call = d.nextTask ∨ ∃ h ttl attempt due,
      d.tasks.get? call = some (.persisting h key value ttl attempt due)) ∧
    ∃ h ttl, h.cell = cell ∧
      (d.act now a).tasks.get? call = some (.caching h key value ttl) := by
  unfold effect? at e
  split at e
  · rename_i store key' value' ttl persist
    dsimp only at e
    split at e
    · rename_i does
      cases e
      rw [Bool.and_eq_true, Bool.and_eq_true, decide_eq_true_eq, Option.isNone_iff_eq_none] at does
      obtain ⟨⟨here, atOnce⟩, succeeds⟩ := does
      obtain ⟨rfl, rfl⟩ := Write.isAt_iff.mp here
      refine ⟨.inl rfl, _, ttl, rfl, ?_⟩
      rw [act, submit, start, writeThrough, if_pos atOnce, afterPersist, succeeds]
      exact Assoc.get?_insert_self ..
    · cases e
  · rename_i id
    split at e
    · rename_i h key' value' ttl attempt due bound
      split at e
      · rename_i does
        cases e
        rw [Bool.and_eq_true, Bool.and_eq_true, decide_eq_true_eq, Option.isNone_iff_eq_none]
          at does
        obtain ⟨⟨here, past⟩, succeeds⟩ := does
        obtain ⟨rfl, rfl⟩ := Write.isAt_iff.mp here
        refine ⟨.inr ⟨_, _, _, _, bound⟩, _, ttl, rfl, ?_⟩
        rw [act, resume, bound]
        dsimp only
        rw [isReady, if_pos (decide_eq_true past), resumeTask, afterPersist, succeeds]
        exact Assoc.get?_insert_self ..
      · cases e
    · obtain ⟨_, -, ⟨⟩⟩ := Option.map_eq_some_iff.mp e
  · obtain ⟨_, -, ⟨⟩⟩ := Option.map_eq_some_iff.mp e
  · cases e

/-- A call that caches its value has waited for its store. -/
theorem of_effect?_cached (e : d.effect? cell key now a = some (.cached call value)) :
    a = .resume call ∧ d.awaited? cell key call = some value := by
  unfold effect? at e
  split at e
  · dsimp only at e
    split at e <;> cases e
  · split at e
    · split at e <;> cases e
    · obtain ⟨_, awaits, ⟨⟩⟩ := Option.map_eq_some_iff.mp e
      exact ⟨rfl, awaits⟩
  · obtain ⟨_, -, ⟨⟩⟩ := Option.map_eq_some_iff.mp e
  · cases e

/-- A call that is given up between has waited for its store. -/
theorem of_effect?_givenUp (e : d.effect? cell key now a = some (.givenUp call value)) :
    a = .abort call ∧ d.awaited? cell key call = some value := by
  unfold effect? at e
  split at e
  · dsimp only at e
    split at e <;> cases e
  · split at e
    · split at e <;> cases e
    · obtain ⟨_, -, ⟨⟩⟩ := Option.map_eq_some_iff.mp e
  · obtain ⟨_, awaits, ⟨⟩⟩ := Option.map_eq_some_iff.mp e
    exact ⟨rfl, awaits⟩
  · cases e

/-- Only a call that is just called, waits for its attempt or waits for its store does anything. -/
theorem of_effect? {e : Effect} (does : d.effect? cell key now a = some e) :
    e.call = d.nextTask ∨
    (∃ h value ttl attempt due,
      d.tasks.get? e.call = some (.persisting h key value ttl attempt due)) ∨
    ((a = .resume e.call ∨ a = .abort e.call) ∧
      ∃ value, d.awaited? cell key e.call = some value) := by
  cases e with
  | persisted call value =>
    rcases (of_effect?_persisted does).1 with new | ⟨h, ttl, attempt, due, bound⟩
    · exact .inl new
    · exact .inr (.inl ⟨h, value, ttl, attempt, due, bound⟩)
  | cached call value =>
    obtain ⟨turn, awaits⟩ := of_effect?_cached does
    exact .inr (.inr ⟨.inl turn, value, awaits⟩)
  | givenUp call value =>
    obtain ⟨turn, awaits⟩ := of_effect?_givenUp does
    exact .inr (.inr ⟨.inr turn, value, awaits⟩)

/-- How far a call has come when calls have done this. -/
inductive Stage (cell : Nat) (key : CacheKey) (log : List Effect) (d : Depot) (call : Nat) : Prop
  | silent (done : Effect.ofCall call log = [])
      (elsewhere : d.awaited? cell key call = none)
  | persisted {value : Json} (done : Effect.ofCall call log = [.persisted call value])
      (awaits : d.awaited? cell key call = some value)
  | cached {value : Json} {answer : Answer}
      (done : Effect.ofCall call log = [.persisted call value, .cached call value])
      (bound : d.tasks.get? call = some (.ended answer))
  | givenUp {value : Json}
      (done : Effect.ofCall call log = [.persisted call value, .givenUp call value])
      (old : call < d.nextTask) (gone : d.tasks.get? call = none)

/-- What calls have done, and what has come of it. -/
structure Logged (cell : Nat) (key : CacheKey) (log : List Effect) (d : Depot) : Prop where
  flights : d.SingleFlight
  stages : ∀ call, Stage cell key log d call
  holds : d.HoldsLast cell key (log.filterMap Effect.cached?)

variable {log : List Effect}

/-- A call that has ended stays so. -/
theorem act_of_ended {answer : Answer} (bound : d.tasks.get? call = some (.ended answer))
    (old : call < d.nextTask) (now : Nat) (a : Action) :
    (d.act now a).tasks.get? call = some (.ended answer) := by
  by_cases own : a.target? = some call
  · rcases Action.cases_of_target? own with rfl | ⟨other, rfl⟩ | rfl
    · rw [act, resume, bound]
      exact bound
    · rw [act, emptyOne, bound]
      exact bound
    · rw [act, abort, bound]
      exact bound
  · exact ((d.turn_act now a).get?_of_ne old own).trans bound

/-- A call that has ended or is gone does nothing more. -/
theorem ofCall_of_concluded {own : List Effect} (done : Effect.ofCall call log = own)
    (old : call < d.nextTask)
    (concluded : d.tasks.get? call = none ∨ ∃ answer, d.tasks.get? call = some (.ended answer))
    (now : Nat) (a : Action) :
    Effect.ofCall call (log ++ (d.effect? cell key now a).toList) = own := by
  refine (Effect.ofCall_append_of_ne ?_).trans done
  rintro e does rfl
  have idle : ∀ t, d.tasks.get? e.call = some t → ∃ answer, t = .ended answer := by
    intro t bound
    rcases concluded with gone | ⟨answer, ended⟩
    · cases gone.symm.trans bound
    · exact ⟨answer, Option.some.inj (bound.symm.trans ended)⟩
  rcases of_effect? does with new | ⟨_, _, _, _, _, bound⟩ | ⟨-, _, awaits⟩
  · exact absurd old (new ▸ Nat.lt_irrefl _)
  · obtain ⟨_, ⟨⟩⟩ := idle _ bound
  · obtain ⟨_, _, -, bound⟩ := awaited?_eq_some_iff.mp awaits
    obtain ⟨_, ⟨⟩⟩ := idle _ bound

theorem Stage.act (stage : Stage cell key log d call) (numbered : d.Numbered) (now : Nat)
    (a : Action) :
    Stage cell key (log ++ (d.effect? cell key now a).toList) (d.act now a) call := by
  have turn := d.turn_act now a
  cases stage with
  | silent done elsewhere =>
    by_cases own : ∃ e, d.effect? cell key now a = some e ∧ e.call = call
    · obtain ⟨e, does, rfl⟩ := own
      cases e with
      | persisted call value =>
        refine .persisted ?_ (awaited?_eq_some_iff.mpr (of_effect?_persisted does).2)
        rw [does, Option.toList_some, Effect.ofCall_concat (.persisted call value), done]
        rfl
      | cached call value => cases elsewhere.symm.trans (of_effect?_cached does).2
      | givenUp call value => cases elsewhere.symm.trans (of_effect?_givenUp does).2
    · have others : ∀ e, d.effect? cell key now a = some e → e.call ≠ call :=
        fun e does same => own ⟨e, does, same⟩
      refine .silent ((Effect.ofCall_append_of_ne others).trans done) ?_
      rw [Option.eq_none_iff_forall_ne_some]
      intro value awaits
      obtain ⟨h, ttl, rfl, bound⟩ := awaited?_eq_some_iff.mp awaits
      rcases caching_of_act numbered bound with was | does
      · cases elsewhere.symm.trans (awaited?_eq_some_iff.mpr ⟨h, ttl, rfl, was⟩)
      · exact others _ does rfl
  | @persisted value done awaits =>
    obtain ⟨h, ttl, here, bound⟩ := awaited?_eq_some_iff.mp awaits
    have old := numbered call _ bound
    rcases act_of_caching bound old now a with
      ⟨⟨rests, stays⟩, bound'⟩ | ⟨rfl, caches⟩ | ⟨rfl, gone⟩
    · refine .persisted ((Effect.ofCall_append_of_ne ?_).trans done)
        (awaited?_eq_some_iff.mpr ⟨h, ttl, here, bound'⟩)
      rintro e does rfl
      rcases of_effect? does with new | ⟨_, _, _, _, _, other⟩ | ⟨turns | aborts, -⟩
      · exact absurd old (new ▸ Nat.lt_irrefl _)
      · cases bound.symm.trans other
      · exact rests turns
      · exact stays aborts
    · have does : d.effect? cell key now (.resume call) = some (.cached call value) := by
        rw [effect?, bound]
        exact congrArg (Option.map (Effect.cached call)) awaits
      have ended : (d.act now (.resume call)).tasks.get? call =
          some (.ended (.found (some value))) := by
        rw [caches]
        exact Assoc.get?_insert_self ..
      have both : Effect.ofCall call (log ++ (d.effect? cell key now (.resume call)).toList) =
          [.persisted call value, .cached call value] := by
        rw [does]
        exact (Effect.ofCall_concat (.cached call value) log).trans (congrArg (· ++ _) done)
      exact .cached both ended
    · have does : d.effect? cell key now (.abort call) = some (.givenUp call value) := by
        exact congrArg (Option.map (Effect.givenUp call)) awaits
      have both : Effect.ofCall call (log ++ (d.effect? cell key now (.abort call)).toList) =
          [.persisted call value, .givenUp call value] := by
        rw [does]
        exact (Effect.ofCall_concat (.givenUp call value) log).trans (congrArg (· ++ _) done)
      exact .givenUp both (Nat.lt_of_lt_of_le old turn.nextTask_le) gone
  | @cached value answer done bound =>
    have old := numbered call _ bound
    exact .cached (ofCall_of_concluded done old (.inr ⟨answer, bound⟩) now a)
      (act_of_ended bound old now a)
  | @givenUp value done old gone =>
    exact .givenUp (ofCall_of_concluded done old (.inl gone) now a)
      (Nat.lt_of_lt_of_le old turn.nextTask_le) (turn.get?_eq_none old gone)

/-- What an action does to the key: it caches a value that was persisted, or nothing new comes. -/
theorem HoldsLast.act (holds : d.HoldsLast cell key (log.filterMap Effect.cached?)) (now : Nat)
    (through : (d.isCaching a || (d.writes now a).all fun w => !w.isAt cell key) = true) :
    (d.act now a).HoldsLast cell key
      ((log ++ (d.effect? cell key now a).toList).filterMap Effect.cached?) := by
  by_cases caches : d.isCaching a = true
  · unfold isCaching at caches
    split at caches
    · rename_i call
      split at caches
      · rename_i h key' value ttl bound
        have brought := holds.setKey now ⟨h, key', value⟩ ttl
        have effect : d.effect? cell key now (.resume call) =
            (if Write.isAt cell key ⟨h, key', value⟩ then some value else none).map
              (Effect.cached call) := by
          rw [effect?, bound]
          dsimp only
          rw [awaited?, bound]
        have same : (d.act now (.resume call)).store cell =
            (d.setKey now h key' value ttl).2.store cell := by
          rw [act, resume, bound]
          rfl
        rw [HoldsLast, same, effect, List.filterMap_append]
        split
        · rename_i here
          rw [if_pos here] at brought
          exact brought
        · rename_i elsewhere
          rw [if_neg elsewhere] at brought
          exact brought
      · cases caches
    · cases caches
  · have spared : ∀ w ∈ d.writes now a, w.isAt cell key = false := by
      simpa [caches] using through
    have stays : (d.effect? cell key now a).toList.filterMap Effect.cached? = [] := by
      rw [List.filterMap_eq_nil_iff]
      intro e does
      cases e with
      | persisted call value => rfl
      | givenUp call value => rfl
      | cached call value =>
        obtain ⟨rfl, awaits⟩ := of_effect?_cached (Option.mem_toList.mp does)
        obtain ⟨h, ttl, -, bound⟩ := awaited?_eq_some_iff.mp awaits
        rw [isCaching, bound] at caches
        exact absurd rfl caches
    rw [List.filterMap_append, stays, List.append_nil]
    exact holds.fades (((d.turn_act now a).stems cell key).fades spared)

theorem Logged.run (h : Logged cell key log d) {actions : List (Nat × Action)}
    (through : d.throughOnly cell key actions = true) :
    Logged cell key (log ++ d.effects cell key actions) (d.run actions) := by
  induction actions generalizing d log with
  | nil =>
    rw [effects, List.append_nil]
    exact h
  | cons first rest ih =>
    obtain ⟨now, a⟩ := first
    rw [throughOnly, Bool.and_eq_true] at through
    rw [effects, ← List.append_assoc]
    refine ih ⟨?_, ?_, h.holds.act now through.1⟩ through.2
    · exact h.flights.turn (d.turn_act now a)
    · exact fun call => (h.stages call).act h.flights.numbered now a

theorem logged_new {start : Nat} {store : StoreConfig} {writeBehind : WriteBehindConfig}
    (made : Depot.new start store writeBehind = .ok d) (cell : Nat) (key : CacheKey) :
    Logged cell key [] d := by
  have flights := singleFlight_new made
  rw [Depot.new] at made
  split at made
  · cases made
  · cases made
    refine ⟨flights, fun call => .silent rfl rfl, ?_⟩
    intro value there
    rw [Depot.store, List.getD_eq_getElem?_getD, List.getElem?_singleton] at there
    split at there <;> cases there

/-! ## The value that is found -/

/-- A call that has cached its value has persisted it once, and before. -/
theorem Stage.of_cached {earlier after : List Effect}
    (stage : Stage cell key (earlier ++ .cached call value :: after) d call) :
    Effect.ofCall call earlier = [.persisted call value] ∧ Effect.ofCall call after = [] := by
  have own : Effect.ofCall call (earlier ++ .cached call value :: after) =
      Effect.ofCall call earlier ++ .cached call value :: Effect.ofCall call after := by
    rw [Effect.ofCall_append]
    exact congrArg _ (Effect.ofCall_cons (.cached call value) after)
  generalize Effect.ofCall call earlier = first at own ⊢
  generalize Effect.ofCall call after = last at own ⊢
  cases stage with
  | silent done elsewhere => simp [own] at done
  | persisted done awaits =>
    rw [own] at done
    rcases first with _ | ⟨e, rest⟩ <;> simp at done
  | givenUp done old gone =>
    rw [own] at done
    rcases first with _ | ⟨e, _ | ⟨e', rest⟩⟩ <;> simp at done
  | cached done bound =>
    rw [own] at done
    rcases first with _ | ⟨e, _ | ⟨e', rest⟩⟩ <;> simp at done
    obtain ⟨rfl, rfl, rfl⟩ := done
    exact ⟨rfl, rfl⟩

/-- A call that has persisted and cached its value has persisted no other. -/
theorem Stage.not_persisted_again {before between after : List Effect} {other : Json}
    (stage : Stage cell key
      (before ++ .persisted call value :: between ++ .cached call value :: after) d call) :
    .persisted call other ∉ between ++ after := by
  intro again
  obtain ⟨own, later⟩ := stage.of_cached
  have persists : Effect.ofCall call (.persisted call value :: between) =
      .persisted call value :: Effect.ofCall call between :=
    Effect.ofCall_cons (.persisted call value) between
  have once : Effect.ofCall call between = [] := by
    rw [Effect.ofCall_append, persists, List.append_eq_singleton_iff] at own
    rcases own with ⟨-, own⟩ | ⟨-, ⟨⟩⟩
    exact (List.cons.inj own).2
  have known : .persisted call other ∈ Effect.ofCall call (between ++ after) :=
    Effect.mem_ofCall_iff.mpr ⟨again, rfl⟩
  rw [Effect.ofCall_append, once, later] at known
  cases known

/-- A call that has persisted a value after others did something has cached it after that too, or it
was given up before, or it still waits for its store. -/
theorem Stage.of_persisted {earlier later : List Effect}
    (stage : Stage cell key (earlier ++ later) d call) (member : .persisted call value ∈ later) :
    .cached call value ∈ later ∨ .givenUp call value ∈ later ∨
      d.awaited? cell key call = some value := by
  have known : .persisted call value ∈ Effect.ofCall call (earlier ++ later) :=
    Effect.mem_ofCall_iff.mpr ⟨List.mem_append_right _ member, rfl⟩
  cases stage with
  | silent done elsewhere =>
    rw [done] at known
    cases known
  | persisted done awaits =>
    rw [done, List.mem_singleton] at known
    cases known
    exact .inr (.inr awaits)
  | cached done bound =>
    obtain ⟨rfl, caches⟩ := Effect.mem_of_persisted done member nofun
    exact .inl caches
  | givenUp done old gone =>
    obtain ⟨rfl, leaves⟩ := Effect.mem_of_persisted done member nofun
    exact .inr (.inl leaves)

/-- What is found is the value of the last call that has cached one. Whatever others have persisted
after it was cached before it, or its call waits for the store, or was given up when it waited. -/
theorem Logged.exists_last (h : Logged cell key log d)
    (there : (d.store cell).resident? key = some value) :
    ∃ call before between after,
      log = before ++ .persisted call value :: between ++ .cached call value :: after ∧
      (∀ e ∈ after, e.cached? = none) ∧
      ∀ other value', .persisted other value' ∈ between ++ after →
        .cached other value' ∈ between ∨ .givenUp other value' ∈ between ++ after ∨
          d.awaited? cell key other = some value' := by
  obtain ⟨values, split⟩ := List.getLast?_eq_some_iff.mp (h.holds value there)
  obtain ⟨first, rest, rfl, -, ends⟩ := List.filterMap_eq_append_iff.mp split
  obtain ⟨more, e, after, rfl, -, caches, none⟩ := List.filterMap_eq_cons_iff.mp ends
  obtain ⟨call, rfl⟩ := Effect.cached?_eq_some_iff.mp caches
  have uncached : ∀ e ∈ after, e.cached? = Option.none := List.filterMap_eq_nil_iff.mp none
  rw [← List.append_assoc] at h ⊢
  have persists : .persisted call value ∈ Effect.ofCall call (first ++ more) := by
    rw [(h.stages call).of_cached.1]
    exact List.mem_singleton_self _
  obtain ⟨before, between, earlier⟩ := List.append_of_mem (Effect.mem_ofCall_iff.mp persists).1
  rw [earlier] at h ⊢
  refine ⟨call, before, between, after, rfl, uncached, ?_⟩
  intro other value' persisted
  by_cases same : other = call
  · subst same
    exact absurd persisted (h.stages other).not_persisted_again
  · have stage := h.stages other
    rw [List.append_assoc] at stage
    have member : .persisted other value' ∈
        .persisted call value :: between ++ .cached call value :: after := by
      simp only [List.mem_append, List.mem_cons] at persisted ⊢
      tauto
    rcases stage.of_persisted member with caches | leaves | awaits
    · left
      simp only [List.mem_append, List.mem_cons] at caches
      rcases caches with (own | early) | own | late
      · cases own
      · exact early
      · exact absurd (congrArg Effect.call own) same
      · exact absurd (uncached _ late) nofun
    · right
      left
      simpa [same] using leaves
    · exact .inr (.inr awaits)

/-- A key of a store that is written only by persisting the value first, by any number of calls that
overlap, fail or are given up, among reads, removals, sweeps and whatever else. The value that is
found in the store, by a read or just there, was persisted, and it is that of the call that was the
last to cache one. So it is the value that was persisted last, unless the call that has persisted a
value after it has cached that before it, still waits for the store, or was given up when it waited.
A store that takes over a name has a cell of its own. -/
theorem run_new_resident_cached_last {made : Depot} {start : Nat} {store : StoreConfig}
    {writeBehind : WriteBehindConfig} (new : Depot.new start store writeBehind = .ok made)
    (cell : Nat) (key : CacheKey) {actions : List (Nat × Action)}
    (through : made.throughOnly cell key actions = true) :
    let log := made.effects cell key actions
    let last := made.run actions
    (∀ value, (last.store cell).resident? key = some value →
      ∃ call before between after,
        log = before ++ .persisted call value :: between ++ .cached call value :: after ∧
        (∀ e ∈ after, e.cached? = none) ∧
        ∀ other value', .persisted other value' ∈ between ++ after →
          .cached other value' ∈ between ∨ .givenUp other value' ∈ between ++ after ∨
            last.awaited? cell key other = some value') ∧
    (∀ value, (∀ call, .persisted call value ∉ log) →
      (last.store cell).resident? key ≠ some value) ∧
    ∀ now h value, h.cell = cell → (last.getKey now h key).1 = some value →
      (last.store cell).resident? key = some value := by
  intro log last
  have logged : Logged cell key log last := (logged_new new cell key).run through
  refine ⟨fun value => logged.exists_last, ?_, ?_⟩
  · intro value unpersisted there
    obtain ⟨call, before, between, after, split, -⟩ := logged.exists_last there
    apply unpersisted call
    simp [split]
  · rintro now h value rfl found
    exact Store.resident?_of_get found

/-- Two writes that overlap, one that fails, one that is given up, and one that waits for the store
in the end. -/
def overlappingWrites : List (Nat × Action) :=
  [(0, .start (.writeThrough "default" ⟨"k"⟩ (.string "slow") none ⟨"a", [{ delay := 5 }]⟩)),
    (0, .start (.writeThrough "default" ⟨"k"⟩ (.string "quick") none ⟨"b", [{ delay := 2 }]⟩)),
    (2, .resume 1), (2, .resume 1), (5, .resume 0),
    (6, .start (.writeThrough "default" ⟨"k"⟩ (.string "failing") none
      ⟨"c", [{ failure := some { message := "down" } }]⟩)),
    (6, .start (.writeThrough "default" ⟨"k"⟩ (.string "dropped") none ⟨"d", [{ delay := 2 }]⟩)),
    (6, .resume 0), (7, .abort 3),
    (8, .start (.writeThrough "default" ⟨"k"⟩ (.string "waiting") none ⟨"e", []⟩))]

/-- The write that was called first has cached its value last, and so the value stays. -/
theorem overlappingWrites_resident :
    ∃ made, Depot.new 0 ⟨9, none, none⟩ ⟨10, 3, none⟩ = .ok made ∧
      made.throughOnly 0 ⟨"k"⟩ overlappingWrites = true ∧
      made.effects 0 ⟨"k"⟩ overlappingWrites =
        [.persisted 1 (.string "quick"), .cached 1 (.string "quick"),
          .persisted 0 (.string "slow"), .cached 0 (.string "slow"),
          .persisted 4 (.string "waiting")] ∧
      ((made.run overlappingWrites).store 0).resident? ⟨"k"⟩ = some (.string "slow") ∧
      ∃ call before between after, made.effects 0 ⟨"k"⟩ overlappingWrites =
        before ++ .persisted call (.string "slow") ::
          between ++ .cached call (.string "slow") :: after := by
  have new : Depot.new 0 ⟨9, none, none⟩ ⟨10, 3, none⟩ = .ok _ := rfl
  refine ⟨_, new, rfl, rfl, rfl, ?_⟩
  obtain ⟨call, before, between, after, split, -⟩ :=
    (@run_new_resident_cached_last _ _ _ _ new 0 ⟨"k"⟩ overlappingWrites rfl).1 _ rfl
  exact ⟨call, before, between, after, split⟩

/-- A write that persists its value after another one and caches it before that. -/
def overtakingWrite : List (Nat × Action) :=
  [(0, .start (.writeThrough "default" ⟨"k"⟩ (.string "first") none ⟨"a", []⟩)),
    (0, .start (.writeThrough "default" ⟨"k"⟩ (.string "second") none ⟨"b", []⟩)),
    (0, .resume 1), (0, .resume 0)]

/-- A write that is given up when its value is persisted and it waits for its store. -/
def halfWrite : List (Nat × Action) :=
  [(0, .start (.writeThrough "default" ⟨"k"⟩ (.string "first") none ⟨"a", []⟩)), (0, .resume 0),
    (0, .start (.writeThrough "default" ⟨"k"⟩ (.string "second") none ⟨"b", []⟩)), (0, .abort 1)]

/-- The store can hold another value than the one that was persisted last, with no call under way:
where calls cache in another order than they persist, and where one is given up between the two. -/
theorem persisted_last_not_resident :
    ∃ made, Depot.new 0 ⟨9, none, none⟩ ⟨10, 3, none⟩ = .ok made ∧
      (made.throughOnly 0 ⟨"k"⟩ overtakingWrite = true ∧
        made.effects 0 ⟨"k"⟩ overtakingWrite =
          [.persisted 0 (.string "first"), .persisted 1 (.string "second"),
            .cached 1 (.string "second"), .cached 0 (.string "first")] ∧
        ((made.run overtakingWrite).store 0).resident? ⟨"k"⟩ = some (.string "first")) ∧
      (made.throughOnly 0 ⟨"k"⟩ halfWrite = true ∧
        made.effects 0 ⟨"k"⟩ halfWrite =
          [.persisted 0 (.string "first"), .cached 0 (.string "first"),
            .persisted 1 (.string "second"), .givenUp 1 (.string "second")] ∧
        ((made.run halfWrite).store 0).resident? ⟨"k"⟩ = some (.string "first")) := by
  have new : Depot.new 0 ⟨9, none, none⟩ ⟨10, 3, none⟩ = .ok _ := rfl
  exact ⟨_, new, ⟨rfl, rfl, rfl⟩, rfl, rfl, rfl⟩

end Depot
end CacheDepot
