import CacheDepot.Proofs.Depot.EveryStore
import CacheDepot.Proofs.Depot.LateReloads
import CacheDepot.Proofs.Depot.Registering
import CacheDepot.Proofs.Store.Sweeping

/-!
# What comes of calls that wait for a callback

A read through a loader, a write that is persisted first and a background reload all end in the
same way: if their callback has brought a value, the value is written, once, and otherwise nothing
is. Before its callback is called such a call has looked its key up at most. So a call whose
callback brings nothing, or that is given up before it writes, leaves no more behind than that
look.
-/

namespace CacheDepot

namespace Store

variable {s : Store} {now : Nat} {key : CacheKey}

/-- What a look at a key leaves of a store that has no live entry under it. -/
structure Misses (s : Store) (now : Nat) (key : CacheKey) (s' : Store) : Prop where
  live : ∀ other e, s.peek now other = some e → s'.entries.get? other = some e
  /-- Only an expired entry of the key itself is gone. -/
  entries : ∀ other, s'.entries.get? other = if other = key then none else s.entries.get? other
  counters :
    s'.counters = (if s.entries.contains key then s.counters.expire 1 else s.counters).miss
  recency : s.entries.contains key = false → s'.recency = s.recency
  /-- The other keys keep their order of use. -/
  order : s.recency.Coherent → s'.recency.toList =
    if s.entries.contains key then s.recency.toList.filter (· ≠ key) else s.recency.toList
  capacity : s'.capacity = s.capacity
  defaultTtl : s'.defaultTtl = s.defaultTtl

/-- A look that finds nothing clears an expired entry away. -/
theorem snd_getEntry_of_absent (absent : s.peek now key = none) :
    (s.getEntry now key).2 =
      if s.entries.contains key then { s with
        entries := s.entries.erase key
        recency := s.recency.remove key
        counters := (s.counters.expire 1).miss }
      else { s with counters := s.counters.miss } := by
  rw [getEntry, Assoc.contains]
  cases bound : s.entries.get? key with
  | none => rfl
  | some e =>
    have expired : e.isExpired now = true := by simpa [peek, bound] using absent
    dsimp only
    rw [if_pos expired]
    rfl

theorem misses_getEntry (absent : s.peek now key = none) :
    s.Misses now key (s.getEntry now key).2 := by
  have entries : ∀ other, (s.getEntry now key).2.entries.get? other =
      if other = key then none else s.entries.get? other := by
    intro other
    rw [get?_getEntry, fst_getEntry, absent, Option.map_none]
  refine ⟨?_, entries, ?_, ?_, ?_, ?_, ?_⟩
  · intro other e found
    have differs : other ≠ key := by
      rintro rfl
      cases absent.symm.trans found
    rw [entries, if_neg differs]
    exact (peek_eq_some_iff.mp found).1
  · rw [snd_getEntry_of_absent absent]
    cases s.entries.contains key <;> rfl
  · intro unbound
    rw [snd_getEntry_of_absent absent, unbound]
    rfl
  · intro coherent
    rw [snd_getEntry_of_absent absent]
    cases s.entries.contains key with
    | false => rfl
    | true => exact coherent.toList_remove key
  · rw [snd_getEntry_of_absent absent]
    split <;> rfl
  · rw [snd_getEntry_of_absent absent]
    split <;> rfl

theorem counters_sets_set (s : Store) (now : Nat) (key : CacheKey) (value : Json)
    (ttl : Option Duration) :
    (s.set now key value ttl).2.counters.sets = s.counters.sets + 1 := by
  have kept : s.evict.2.counters.sets = s.counters.sets := by
    unfold evict
    split <;> rfl
  rw [set]
  dsimp only
  split
  · exact congrArg (· + 1) kept
  · rfl

end Store

/-- What a call that waits is going to do. -/
structure Intent where
  handle : Handle
  key : CacheKey
  ttl : Option Duration
  /-- The value that is written once the callback has answered, if its answer is one to write. -/
  value? : Option Json

/-- The value that is cached after an attempt to persist it. -/
def Attempt.cached? (attempt : Attempt) (value : Json) : Option Json :=
  if attempt.failure.isNone then some value else none

/-- What a task is going to do if it waits for a callback, or to cache what its callback has
persisted. -/
def Task.intent? : Task → Option Intent
  | .loading h key ttl loader _ | .reloadReady h key ttl loader | .reloading h key ttl loader _ =>
    some ⟨h, key, ttl, loader.outcome.cached?⟩
  | .persisting h key value ttl attempt _ => some ⟨h, key, ttl, attempt.cached? value⟩
  | .caching h key value ttl => some ⟨h, key, ttl, some value⟩
  | _ => none

namespace Depot

variable {d d' : Depot} {now id : Nat} {i : Intent}

/-- What a look at a key leaves of the stores of a depot if it finds nothing. -/
structure Misses (d : Depot) (now : Nat) (h : Handle) (key : CacheKey) (d' : Depot) : Prop where
  looked : (d.store h.cell).Misses now key (d'.store h.cell)
  others : ∀ cell, cell ≠ h.cell → d'.store cell = d.store cell

theorem misses_getEntry {h : Handle} {key : CacheKey} (inside : h.cell < d.stores.length)
    (absent : (d.store h.cell).peek now key = none) :
    d.Misses now h key (d.getEntry now h key).2 := by
  refine ⟨?_, fun cell elsewhere => d.store_onStore_of_ne _ (Ne.symm elsewhere)⟩
  have looked : (d.getEntry now h key).2.store h.cell = ((d.store h.cell).getEntry now key).2 :=
    (d.store_onStore_eq h _ h.cell).trans (if_pos ⟨rfl, inside⟩)
  rw [looked]
  exact Store.misses_getEntry absent

/-- Whether a depot comes of one by a single write, which does what a call intends with the value
that its callback has brought. -/
structure Sets (d : Depot) (now : Nat) (i : Intent) (value : Json) (d' : Depot) : Prop where
  written : d'.store i.handle.cell = ((d.store i.handle.cell).set now i.key value i.ttl).2
  others : ∀ cell, cell ≠ i.handle.cell → d'.store cell = d.store cell
  /-- The value lives for the time the call asks for, or else for that of the store. -/
  entry : (d'.store i.handle.cell).entries.get? i.key =
    some (.new now value (i.ttl.or (d.store i.handle.cell).defaultTtl))
  counted : (d'.store i.handle.cell).counters.sets = (d.store i.handle.cell).counters.sets + 1

theorem sets_setKey (inside : i.handle.cell < d.stores.length) (now : Nat) (value : Json) :
    d.Sets now i value (d.setKey now i.handle i.key value i.ttl).2 := by
  have written : (d.setKey now i.handle i.key value i.ttl).2.store i.handle.cell =
      ((d.store i.handle.cell).set now i.key value i.ttl).2 :=
    (d.store_onStore_eq i.handle _ _).trans (if_pos ⟨rfl, inside⟩)
  refine ⟨written, fun cell elsewhere => d.store_onStore_of_ne _ (Ne.symm elsewhere), ?_, ?_⟩
  · rw [written]
    exact Store.get?_set_self ..
  · rw [written]
    exact Store.counters_sets_set ..

/-- How a call ends whose callback has answered. -/
def Concludes (d : Depot) (now : Nat) (i : Intent) (d' : Depot) : Prop :=
  match i.value? with
  | some value => d.Sets now i value d'
  | none => d.SameStores d'

theorem Concludes.congr {e e' : Depot} (h : d.Concludes now i d') (same : e.SameStores d)
    (same' : d'.SameStores e') : e.Concludes now i e' := by
  unfold Concludes at h ⊢
  cases value : i.value? with
  | none =>
    rw [value] at h
    exact fun cell => (same' cell).trans ((h cell).trans (same cell))
  | some value' =>
    rw [value] at h
    obtain ⟨written, others, entry, counted⟩ := h
    rw [same] at written entry counted
    refine ⟨(same' _).trans written, ?_, (same' _).symm ▸ entry, (same' _).symm ▸ counted⟩
    exact fun cell elsewhere =>
      (same' cell).trans ((others cell elsewhere).trans (same cell))

theorem concludes_finishLoad {h : Handle} (inside : h.cell < d.stores.length) (now : Nat)
    (key : CacheKey) (ttl : Option Duration) (outcome : LoadOutcome) :
    d.Concludes now ⟨h, key, ttl, outcome.cached?⟩ (d.finishLoad now h key ttl outcome).2 := by
  rw [Changes.finishLoad_eq, Concludes]
  cases outcome.cached? with
  | none => exact fun cell => rfl
  | some value => exact sets_setKey inside now value

theorem concludes_finishReload {h : Handle} (inside : h.cell < d.stores.length) (now : Nat)
    (key : CacheKey) (ttl : Option Duration) (outcome : LoadOutcome) :
    d.Concludes now ⟨h, key, ttl, outcome.cached?⟩ (d.finishReload now h key ttl outcome) :=
  (concludes_finishLoad inside now key ttl outcome).congr (fun _ => rfl) fun _ => rfl

/-! ## Turns of a call -/

/-- Whether a task waits, with this intent. -/
structure Waits (d : Depot) (id : Nat) (i : Intent) : Prop where
  waits : (d.tasks.get? id).bind Task.intent? = some i
  old : id < d.nextTask
  inside : i.handle.cell < d.stores.length

/-- Whether nothing is left of a task but perhaps its answer. -/
structure Over (d : Depot) (id : Nat) : Prop where
  silent : d.tasks.get? id = none ∨ ∃ answer, d.tasks.get? id = some (.ended answer)
  old : id < d.nextTask

/-- Whether all that a task waits for has come by `now`, so that its next turn is the last. A reload
calls its loader when it has its first turn, and hears from it at once if the answer takes no time.
A value that is persisted waits for its store once more. -/
def isAnswered (d : Depot) (now id : Nat) : Bool :=
  match d.tasks.get? id with
  | some (.reloadReady _ _ _ loader) => loader.delay = 0
  | some (.persisting _ _ _ _ attempt due) => due ≤ now && attempt.failure.isSome
  | some t => d.isReady now t
  | none => false

/-- What a call has come to, either at its start or when it goes on: it has ended or waits. -/
def Comes (d : Depot) (now id : Nat) (i : Intent) (d' : Depot) : Prop :=
  (d.Concludes now i d' ∧ d'.Over id) ∨ (d.SameStores d' ∧ d'.Waits id i)

theorem Comes.congr {e : Depot} (h : d.Comes now id i d') (same : e.SameStores d) :
    e.Comes now id i d' := by
  rcases h with ⟨ended, gone⟩ | ⟨kept, waits⟩
  · exact .inl ⟨ended.congr same fun _ => rfl, gone⟩
  · exact .inr ⟨fun cell => (kept cell).trans (same cell), waits⟩

/-- A call that has answered is over, with the stores as they are. -/
theorem ends_answered {e : Depot} (ended : d.Concludes now i e) (only : d.StoresOnly e)
    (old : id < d.nextTask) (answer : Answer) :
    d.Concludes now i (settleTask id (.answered answer, e)) ∧
      (settleTask id (.answered answer, e)).Over id :=
  ⟨ended.congr (fun _ => rfl) fun _ => rfl,
    .inr ⟨answer, Assoc.get?_insert_self ..⟩, only.nextTask ▸ old⟩

theorem over_dropTask (old : id < d.nextTask) : (d.dropTask id).Over id :=
  ⟨.inl (get?_dropTask d id), old⟩

/-- A reload that has ended is over, with the stores as they are. -/
theorem ends_dropped {e : Depot} (ended : d.Concludes now i e) (only : d.StoresOnly e)
    (old : id < d.nextTask) :
    d.Concludes now i (e.dropTask id) ∧ (e.dropTask id).Over id :=
  ⟨ended.congr (fun _ => rfl) fun _ => rfl, over_dropTask (only.nextTask ▸ old)⟩

theorem Over.act_own (gone : d.Over id) (now : Nat) {a : Action} (own : a.target? = some id) :
    d.act now a = d := by
  rcases Action.cases_of_target? own with rfl | ⟨h, rfl⟩ | rfl
  · rw [act, resume]
    rcases gone.silent with bound | ⟨answer, bound⟩
    · rw [bound]
    · rw [bound]
      rfl
  · rw [act, emptyOne]
    rcases gone.silent with bound | ⟨answer, bound⟩ <;> rw [bound]
  · rw [act, abort]
    rcases gone.silent with bound | ⟨answer, bound⟩ <;> rw [bound]

theorem Over.act (gone : d.Over id) (now : Nat) (a : Action) : (d.act now a).Over id := by
  by_cases own : a.target? = some id
  · rwa [gone.act_own now own]
  · have turn := d.turn_act now a
    refine ⟨?_, Nat.lt_of_lt_of_le gone.old turn.nextTask_le⟩
    rw [turn.get?_of_ne gone.old own]
    exact gone.silent

namespace Waits

theorem act_of_ne (h : d.Waits id i) (now : Nat) {a : Action} (spared : a.target? ≠ some id) :
    (d.act now a).Waits id i := by
  have turn := d.turn_act now a
  refine ⟨?_, Nat.lt_of_lt_of_le h.old turn.nextTask_le,
    Nat.lt_of_lt_of_le h.inside turn.stores_le⟩
  rw [turn.get?_of_ne h.old spared]
  exact h.waits

/-- An attempt to persist a value ends the call if it has failed, and otherwise leaves the value to
be cached. -/
theorem afterPersist {h : Handle} (inside : h.cell < d.stores.length) (old : id < d.nextTask)
    (now : Nat) (key : CacheKey) (value : Json) (ttl : Option Duration) (attempt : Attempt) :
    let i : Intent := ⟨h, key, ttl, attempt.cached? value⟩
    let d' := settleTask id (Depot.afterPersist h key value ttl attempt, d)
    (attempt.failure.isSome = true ∧ d.Concludes now i d' ∧ d'.Over id) ∨
      (attempt.failure.isSome = false ∧ d.SameStores d' ∧ d'.Waits id i) := by
  intro i d'
  cases failure : attempt.failure with
  | some cause =>
    have fruitless : i.value? = none := by
      dsimp only [i]
      rw [Attempt.cached?, failure]
      rfl
    have ended : d.Concludes now i d := by
      rw [Concludes, fruitless]
      exact fun cell => rfl
    dsimp only [d']
    rw [Depot.afterPersist, failure]
    exact .inl ⟨rfl, ends_answered ended (.refl d) old _⟩
  | none =>
    have intended : i = ⟨h, key, ttl, some value⟩ := by
      dsimp only [i]
      rw [Attempt.cached?, failure]
      rfl
    dsimp only [d']
    rw [Depot.afterPersist, failure, intended]
    refine .inr ⟨rfl, fun cell => rfl, ?_, old, inside⟩
    rw [settleTask, Assoc.get?_insert_self]
    rfl

/-- A call goes on to its end once its callback has answered, and goes on waiting before that. A
value that is persisted is cached in one more turn. -/
theorem resume (h : d.Waits id i) (now : Nat) :
    (d.isAnswered now id = true ∧ d.Concludes now i (d.resume now id) ∧
      (d.resume now id).Over id) ∨
    (d.isAnswered now id = false ∧ d.SameStores (d.resume now id) ∧
      (d.resume now id).Waits id i) := by
  obtain ⟨t, bound, intends⟩ := Option.bind_eq_some_iff.mp h.waits
  rw [isAnswered, Depot.resume, bound]
  dsimp only
  cases t with
  | loading handle key ttl loader due =>
    cases intends
    cases ready : d.isReady now (.loading handle key ttl loader due) with
    | false => exact .inr ⟨ready, fun cell => rfl, h⟩
    | true =>
      exact .inl ⟨ready, ends_answered (concludes_finishLoad h.inside now key ttl loader.outcome)
        (.finishLoad d now handle key ttl loader.outcome) h.old _⟩
  | persisting handle key value ttl attempt due =>
    cases intends
    by_cases due_le : due ≤ now
    · have ready : d.isReady now (.persisting handle key value ttl attempt due) = true :=
        decide_eq_true due_le
      dsimp only
      rw [if_pos ready, decide_eq_true due_le, Bool.true_and]
      exact afterPersist h.inside h.old now key value ttl attempt
    · have unready : d.isReady now (.persisting handle key value ttl attempt due) = false :=
        decide_eq_false due_le
      dsimp only
      rw [if_neg (Bool.eq_false_iff.mp unready), decide_eq_false due_le, Bool.false_and]
      exact .inr ⟨rfl, fun cell => rfl, h⟩
  | caching handle key value ttl =>
    cases intends
    have ended : d.Concludes now ⟨handle, key, ttl, some value⟩
        (d.setKey now handle key value ttl).2 := sets_setKey h.inside now value
    exact .inl ⟨rfl, ends_answered ended (.setKey d now handle key ttl value) h.old _⟩
  | reloadReady handle key ttl loader =>
    cases intends
    rw [isReady, if_pos rfl, resumeTask]
    by_cases atOnce : loader.delay = 0
    · let called := d.record (.loaderCalled loader.label)
      have inside : handle.cell < called.stores.length := h.inside
      obtain ⟨ended, gone⟩ := ends_dropped
        (concludes_finishReload inside now key ttl loader.outcome)
        (.finishReload called now handle key ttl loader.outcome) h.old
      rw [if_pos atOnce]
      exact .inl ⟨decide_eq_true atOnce, ended.congr (fun _ => rfl) fun _ => rfl, gone⟩
    · rw [if_neg atOnce]
      refine .inr ⟨decide_eq_false atOnce, fun cell => rfl, ?_, h.old, h.inside⟩
      rw [Assoc.get?_insert_self]
      rfl
  | reloading handle key ttl loader due =>
    cases intends
    cases ready : d.isReady now (.reloading handle key ttl loader due) with
    | false => exact .inr ⟨ready, fun cell => rfl, h⟩
    | true =>
      exact .inl ⟨ready, ends_dropped (concludes_finishReload h.inside now key ttl loader.outcome)
        (.finishReload d now handle key ttl loader.outcome) h.old⟩
  | _ => cases intends

/-- A call that is given up leaves the stores alone. -/
theorem abort (h : d.Waits id i) : d.SameStores (d.abort id) ∧ (d.abort id).Over id := by
  obtain ⟨t, bound, intends⟩ := Option.bind_eq_some_iff.mp h.waits
  rw [Depot.abort, bound]
  cases t with
  | loading handle key ttl loader due => exact ⟨fun cell => rfl, over_dropTask h.old⟩
  | persisting handle key value ttl attempt due => exact ⟨fun cell => rfl, over_dropTask h.old⟩
  | caching handle key value ttl => exact ⟨fun cell => rfl, over_dropTask h.old⟩
  | reloadReady handle key ttl loader =>
    exact ⟨fun cell => rfl, over_dropTask (d := { d with reloading := _ }) h.old⟩
  | reloading handle key ttl loader due =>
    exact ⟨fun cell => rfl, over_dropTask (d := { d with reloading := _ }) h.old⟩
  | _ => cases intends

/-- What a teardown does is not done to a call. -/
theorem emptyOne (h : d.Waits id i) (handle : Handle) : d.emptyOne id handle = d := by
  obtain ⟨t, bound, intends⟩ := Option.bind_eq_some_iff.mp h.waits
  rw [Depot.emptyOne, bound]
  cases t with
  | clearing left answer => cases intends
  | _ => rfl

end Waits

/-! ## Courses of calls -/

/-- Whether everything that actions do to a task leaves the stores alone. -/
def Idles (id : Nat) : Depot → List (Nat × Action) → Prop
  | _, [] => True
  | d, (now, a) :: later =>
    (a.target? = some id → d.SameStores (d.act now a)) ∧ Idles id (d.act now a) later

/-- The course of a call that waits for its callback, whatever else goes on. Its own turns leave
the stores alone until all that it waits for has come. The first turn after that ends it, and it
may be given up before; then it does nothing more. -/
inductive Course (id : Nat) (i : Intent) : Depot → List (Nat × Action) → Prop
  | waits {d : Depot} (waits : d.Waits id i) : Course id i d []
  | elsewhere {d : Depot} {now : Nat} {a : Action} {later : List (Nat × Action)}
      (spared : a.target? ≠ some id) (rest : Course id i (d.act now a) later) :
      Course id i d ((now, a) :: later)
  | unmoved {d : Depot} {now : Nat} {h : Handle} {later : List (Nat × Action)}
      (same : d.act now (.clear id h) = d) (rest : Course id i d later) :
      Course id i d ((now, .clear id h) :: later)
  | early {d : Depot} {now : Nat} {later : List (Nat × Action)}
      (unanswered : d.isAnswered now id = false) (same : d.SameStores (d.act now (.resume id)))
      (rest : Course id i (d.act now (.resume id)) later) :
      Course id i d ((now, .resume id) :: later)
  | ends {d : Depot} {now : Nat} {later : List (Nat × Action)}
      (answered : d.isAnswered now id = true) (ended : d.Concludes now i (d.act now (.resume id)))
      (idle : Idles id (d.act now (.resume id)) later) : Course id i d ((now, .resume id) :: later)
  | givenUp {d : Depot} {now : Nat} {later : List (Nat × Action)}
      (same : d.SameStores (d.act now (.abort id)))
      (idle : Idles id (d.act now (.abort id)) later) : Course id i d ((now, .abort id) :: later)

theorem Over.idles (gone : d.Over id) (later : List (Nat × Action)) : Idles id d later := by
  induction later generalizing d with
  | nil => exact trivial
  | cons first rest ih =>
    refine ⟨fun own cell => ?_, ih (gone.act first.1 first.2)⟩
    rw [gone.act_own first.1 own]

theorem Waits.course (waits : d.Waits id i) (later : List (Nat × Action)) :
    Course id i d later := by
  -- As long as the call waits it goes on to do so or has its end; after that `Over` carries it.
  induction later generalizing d with
  | nil => exact .waits waits
  | cons first rest ih =>
    obtain ⟨now, a⟩ := first
    by_cases own : a.target? = some id
    · rcases Action.cases_of_target? own with rfl | ⟨h, rfl⟩ | rfl
      · rcases waits.resume now with ⟨answered, ended, gone⟩ | ⟨unanswered, same, waits'⟩
        · exact .ends answered ended (gone.idles rest)
        · exact .early unanswered same (ih waits')
      · exact .unmoved (waits.emptyOne h) (ih waits)
      · obtain ⟨same, gone⟩ := waits.abort
        exact .givenUp same (gone.idles rest)
    · exact .elsewhere own (ih (waits.act_of_ne now own))

/-- A call whose callback brings nothing to write leaves the stores alone all along. -/
theorem Course.idles {later : List (Nat × Action)} (course : Course id i d later)
    (fruitless : i.value? = none) : Idles id d later := by
  induction course with
  | waits => exact trivial
  | elsewhere spared rest ih => exact ⟨fun own => absurd own spared, ih⟩
  | unmoved same rest ih =>
    rw [Idles, same]
    exact ⟨fun _ cell => rfl, ih⟩
  | early unanswered same rest ih => exact ⟨fun _ => same, ih⟩
  | ends answered ended idle =>
    rw [Concludes, fruitless] at ended
    exact ⟨fun _ => ended, idle⟩
  | givenUp same idle => exact ⟨fun _ => same, idle⟩

/-- What comes of a call, beginning with the action that brings it to its callback. Without a value
to write it leaves the stores alone, then and later. With one it writes once and does nothing more:
at once, or when it has waited for its callback. -/
structure Outcome (d : Depot) (now id : Nat) (i : Intent) (d' : Depot) : Prop where
  fruitless : i.value? = none → d.SameStores d' ∧ ∀ later, Idles id d' later
  fruitful : ∀ value, i.value? = some value →
    (d.Sets now i value d' ∧ ∀ later, Idles id d' later) ∨
      (d.SameStores d' ∧ ∀ later, Course id i d' later)

/-- How a call begins: it has ended, or it waits. -/
theorem outcome_of_comes (comes : d.Comes now id i d') : d.Outcome now id i d' := by
  rcases comes with ⟨ended, gone⟩ | ⟨same, waits⟩
  · rw [Concludes] at ended
    constructor
    · intro fruitless
      rw [fruitless] at ended
      exact ⟨ended, gone.idles⟩
    · intro value fruitful
      rw [fruitful] at ended
      exact .inl ⟨ended, gone.idles⟩
  · exact ⟨fun fruitless => ⟨same, fun later => (waits.course later).idles fruitless⟩,
      fun _ _ => .inr ⟨same, waits.course⟩⟩

/-! ## Beginnings of calls -/

theorem comes_of_waits {t : Task} (intends : t.intent? = some i) (old : id < d.nextTask)
    (inside : i.handle.cell < d.stores.length) (now : Nat) :
    d.Comes now id i (settleTask id (.waits t, d)) := by
  refine .inr ⟨fun cell => rfl, ?_, old, inside⟩
  rw [settleTask, Assoc.get?_insert_self]
  exact intends

theorem comes_load {h : Handle} (inside : h.cell < d.stores.length) (old : id < d.nextTask)
    (now : Nat) (key : CacheKey) (ttl : Option Duration) (loader : Loader) :
    d.Comes now id ⟨h, key, ttl, loader.outcome.cached?⟩
      (settleTask id (d.load now h key ttl loader)) := by
  -- The call is recorded before its loader is asked, which leaves the stores alone.
  let called := d.record (.loaderCalled loader.label)
  have inside' : h.cell < called.stores.length := inside
  suffices comes : called.Comes now id ⟨h, key, ttl, loader.outcome.cached?⟩
      (settleTask id (d.load now h key ttl loader)) from comes.congr fun _ => rfl
  rw [load]
  by_cases atOnce : loader.delay = 0
  · rw [if_pos atOnce]
    exact .inl (ends_answered (concludes_finishLoad inside' now key ttl loader.outcome)
      (.finishLoad called now h key ttl loader.outcome) old _)
  · rw [if_neg atOnce]
    exact comes_of_waits (d := called) rfl old inside' now

theorem comes_writeThrough {store : String} (inside : (d.getCache store).cell < d.stores.length)
    (old : id < d.nextTask) (now : Nat) (key : CacheKey) (value : Json) (ttl : Option Duration)
    (persist : Persist) :
    d.Comes now id ⟨d.getCache store, key, ttl, (persist.attempt 0).cached? value⟩
      (settleTask id (d.writeThrough now store key value ttl persist)) := by
  let called := d.record (.persistCalled persist.label 0 value)
  have inside' : (d.getCache store).cell < called.stores.length := inside
  suffices comes : called.Comes now id
      ⟨d.getCache store, key, ttl, (persist.attempt 0).cached? value⟩
      (settleTask id (d.writeThrough now store key value ttl persist)) from
    comes.congr fun _ => rfl
  rw [writeThrough]
  by_cases atOnce : (persist.attempt 0).delay = 0
  · rw [if_pos atOnce]
    exact (Waits.afterPersist inside' old now key value ttl (persist.attempt 0)).imp And.right
      And.right
  · rw [if_neg atOnce]
    exact comes_of_waits (d := called) rfl old inside' now

section Reads

variable {store : String} {key : CacheKey} (ttl : Option Duration) (loader : Loader)

/-- A read that finds nothing calls its loader. -/
theorem cacheAside_of_absent
    (absent : (d.store (d.getCache store).cell).peek now key = none) :
    d.cacheAside now store key ttl loader =
      (d.getEntry now (d.getCache store) key).2.load now (d.getCache store) key ttl loader := by
  have missed : d.getKey now (d.getCache store) key =
      (none, (d.getEntry now (d.getCache store) key).2) := by
    refine Prod.ext ((Store.fst_get (d.store (d.getCache store).cell) now key).trans ?_) rfl
    rw [absent, Option.map_none]
  rw [cacheAside, missed]

theorem refreshAhead_of_absent
    (absent : (d.store (d.getCache store).cell).peek now key = none) (threshold : Threshold) :
    d.refreshAhead now store key ttl threshold loader =
      (d.getEntry now (d.getCache store) key).2.load now (d.getCache store) key ttl loader := by
  have missed : d.getEntry now (d.getCache store) key =
      (none, (d.getEntry now (d.getCache store) key).2) := by
    refine Prod.ext ((Store.fst_getEntry (d.store (d.getCache store).cell) now key).trans ?_) rfl
    rw [absent, Option.map_none]
  rw [refreshAhead, missed]

/-- The two ways to load a value for a caller begin in the same way. -/
theorem comes_read (inside : (d.getCache store).cell < d.stores.length)
    (absent : (d.store (d.getCache store).cell).peek now key = none) {operation : Operation}
    (reads : operation = .cacheAside store key ttl loader ∨
      ∃ threshold, operation = .refreshAhead store key ttl threshold loader) :
    (d.getEntry now (d.getCache store) key).2.Comes now d.nextTask
      ⟨d.getCache store, key, ttl, loader.outcome.cached?⟩ (d.act now (.start operation)) := by
  let numbered : Depot := { d with nextTask := d.nextTask + 1 }
  let looked := (numbered.getEntry now (d.getCache store) key).2
  have asked : d.act now (.start operation) =
      settleTask d.nextTask (looked.load now (d.getCache store) key ttl loader) := by
    rcases reads with rfl | ⟨threshold, rfl⟩
    · exact congrArg (settleTask d.nextTask)
        (cacheAside_of_absent (d := numbered) ttl loader absent)
    · exact congrArg (settleTask d.nextTask)
        (refreshAhead_of_absent (d := numbered) ttl loader absent threshold)
  have inside' : (d.getCache store).cell < looked.stores.length :=
    Nat.lt_of_lt_of_eq inside (List.length_set ..).symm
  rw [asked]
  exact (comes_load inside' (Nat.lt_succ_self _) now key ttl loader).congr fun _ => rfl

/-- A hit that starts a reload leaves the stores as its look has left them. -/
theorem comes_reload (inside : (d.getCache store).cell < d.stores.length) {threshold : Threshold}
    (needs : d.needsReload now store key threshold = true)
    (unclaimed : d.claimOf store key ∉ d.reloading) :
    (d.getEntry now (d.getCache store) key).2.Comes now (d.nextTask + 1)
      ⟨d.getCache store, key, ttl, loader.outcome.cached?⟩
      (d.act now (.start (.refreshAhead store key ttl threshold loader))) := by
  let numbered : Depot := { d with nextTask := d.nextTask + 1 }
  obtain ⟨value, found⟩ := refreshAhead_eq (d := numbered) needs ttl loader
  obtain ⟨-, numbers, started⟩ := act_refreshAhead_of_unclaimed needs unclaimed ttl loader
  refine .inr ⟨?_, ?_, numbers ▸ Nat.lt_succ_self _,
    Nat.lt_of_lt_of_le inside (d.turn_act now _).stores_le⟩
  · intro cell
    have asked : d.act now (.start (.refreshAhead store key ttl threshold loader)) =
        settleTask d.nextTask (.answered (.found (some value)),
          (numbered.getEntry now (d.getCache store) key).2.startReload (d.getCache store) key ttl
            loader) :=
      congrArg (settleTask d.nextTask) found
    rw [asked, store_settleTask, Depot.store, stores_startReload]
    rfl
  · rw [started]
    rfl

end Reads

/-- A read through a loader that finds nothing, in either of the two ways, a write that is persisted
first, and a reload that a hit has started: what each leaves of the stores, whatever is done later.
Before its callback a read has only looked its key up. If the loader breaks down, fails or answers
nothing or null, or the value could not be persisted, nothing is written at all. Otherwise the value
is written once, with the time asked for or else that of the store, unless the call is given up
before that. A callback that persists a value and breaks down is one whose call is given up then. -/
theorem strategies_write_once (reached : d.Reached) (now : Nat) (store : String) (key : CacheKey)
    (ttl : Option Duration) :
    let h := d.getCache store
    let looked := (d.getEntry now h key).2
    (∀ loader operation, (d.store h.cell).peek now key = none →
      (operation = .cacheAside store key ttl loader ∨
        ∃ threshold, operation = .refreshAhead store key ttl threshold loader) →
      d.Misses now h key looked ∧
        looked.Outcome now d.nextTask ⟨h, key, ttl, loader.outcome.cached?⟩
          (d.act now (.start operation))) ∧
    (∀ value persist,
      d.Outcome now d.nextTask ⟨h, key, ttl, (persist.attempt 0).cached? value⟩
        (d.act now (.start (.writeThrough store key value ttl persist)))) ∧
    ∀ threshold loader, d.needsReload now store key threshold = true →
      d.claimOf store key ∉ d.reloading →
      looked.Outcome now (d.nextTask + 1) ⟨h, key, ttl, loader.outcome.cached?⟩
        (d.act now (.start (.refreshAhead store key ttl threshold loader))) := by
  have inside := reached.orderly.inside_getCache store
  refine ⟨?_, ?_, ?_⟩
  · intro loader operation absent reads
    exact ⟨misses_getEntry inside absent,
      outcome_of_comes (comes_read ttl loader inside absent reads)⟩
  · intro value persist
    let numbered : Depot := { d with nextTask := d.nextTask + 1 }
    have comes := comes_writeThrough (d := numbered) inside (Nat.lt_succ_self d.nextTask) now key
      value ttl persist
    exact outcome_of_comes (comes.congr fun _ => rfl)
  · intro threshold loader needs unclaimed
    exact outcome_of_comes (comes_reload ttl loader inside needs unclaimed)

/-- A loader that fails after a while. -/
def failingLoader : Loader :=
  { label := "f", delay := 50, outcome := .fails { message := "offline" } }

/-- The entry of a key has expired when it is read through a loader that fails: the read counts one
miss and one expiration, and goes on to leave the store alone when the loader is heard of. -/
theorem failingLoader_writes_nothing :
    ∃ made, Depot.new 0 ⟨9, none, none⟩ ⟨10, 3, none⟩ = .ok made ∧
      let d := made.act 0 (.start (.set (.named "default") ⟨"k"⟩ .null (some (.ofMillis 1000))))
      let asked := d.act 2000 (.start (.cacheAside "default" ⟨"k"⟩ none failingLoader))
      (d.store 0).entries.contains ⟨"k"⟩ = true ∧
      (asked.store 0).counters = { sets := 1, misses := 1, expirations := 1 } ∧
      asked.SameStores (asked.act 2050 (.resume 1)) := by
  have new : Depot.new 0 ⟨9, none, none⟩ ⟨10, 3, none⟩ = .ok _ := rfl
  refine ⟨_, new, ?_⟩
  intro d asked
  have reached : d.Reached := .acts (.made new) 0 _
  obtain ⟨missed, outcome⟩ := (strategies_write_once reached 2000 "default" ⟨"k"⟩ none).1
    failingLoader _ rfl (.inl rfl)
  obtain ⟨same, idles⟩ := outcome.fruitless rfl
  refine ⟨rfl, ?_, (idles [(2050, .resume 1)]).1 rfl⟩
  rw [same]
  exact missed.looked.counters

end Depot
end CacheDepot
