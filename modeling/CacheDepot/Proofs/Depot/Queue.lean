import CacheDepot.Proofs.Depot.Frame
import CacheDepot.Proofs.WriteBehind.Ledger

/-!
# The queue of a depot

Whatever happens in a depot, its queue and workers only go through what actions on them alone
lead to. So everything that is pushed in a run of a depot stands in the ledger of its queue.
-/

namespace CacheDepot

open WriteBehind (Backlog Item Ledger)

/-- What an action pushes, if anything. -/
def Action.pushed? : Action → Option (CacheKey × Json × Persist)
  | .start (.writeBehind _ key value _ _ persist) | .start (.push key value persist) =>
    some (key, value, persist)
  | _ => none

/-- The backlog after what an action pushes at the time `now`. -/
def Action.pushInto (now : Nat) (b : Backlog) (a : Action) : Backlog :=
  match a.pushed? with
  | some (key, value, persist) => b.push now key value persist
  | none => b

namespace Depot

variable {d : Depot}

theorem settleTask_backlog (id : Nat) (p : Progress × Depot) :
    (settleTask id p).backlog = p.2.backlog := by
  obtain ⟨progress, d⟩ := p
  cases progress <;> rfl

theorem awaitWorker_backlog (d : Depot) (now worker : Nat) (waiting : Nat → Task)
    {next : Depot → Answer → Progress × Depot}
    (keeps : ∀ d answer, (next d answer).2.backlog = d.backlog) :
    (d.awaitWorker now worker waiting next).2.backlog =
      (d.backlog.resume now worker).collect worker := by
  rw [awaitWorker]
  cases ended : (d.onBacklog fun b => b.resume now worker).backlog.report? worker with
  | none => exact (Backlog.collect_of_running ended).symm
  | some report => exact keeps _ _

/-- A property of a queue and its workers that outlasts whatever a depot does to them, but for
pushes and for giving workers up. -/
structure Lasting (P : Backlog → Prop) : Prop where
  start : ∀ {b : Backlog} {w : WriteBehind.Worker}, w.Fresh → P b → P (b.start w).2
  await : ∀ {b : Backlog} (now id : Nat), P b → P ((b.resume now id).collect id)

namespace Lasting

variable {P : Backlog → Prop}

theorem awaitWorker (h : Lasting P) (holds : P d.backlog) (now worker : Nat)
    (waiting : Nat → Task) {next : Depot → Answer → Progress × Depot}
    (keeps : ∀ d answer, (next d answer).2.backlog = d.backlog) :
    P (d.awaitWorker now worker waiting next).2.backlog := by
  rw [awaitWorker_backlog d now worker waiting keeps]
  exact h.await now worker holds

theorem runWorker (h : Lasting P) (holds : P d.backlog) (now : Nat) {w : WriteBehind.Worker}
    (fresh : w.Fresh) : P (d.runWorker now w).2.backlog :=
  h.awaitWorker (d := (d.startWorker w).2) (h.start fresh holds) now _ _ fun _ _ => rfl

theorem afterTimer (h : Lasting P) (holds : P d.backlog) (now : Nat) (flushFirst : Bool) :
    P (d.afterTimer now flushFirst).2.backlog := by
  cases flushFirst with
  | false => exact holds
  | true =>
    have started := h.start WriteBehind.Worker.fresh_newFlush holds
    exact h.awaitWorker (d := (d.startWorker .newFlush).2) started now _ _ fun _ _ => rfl

theorem beginTearDown (h : Lasting P) (holds : P d.backlog) (now : Nat) (flushFirst : Bool) :
    P (d.beginTearDown now flushFirst).2.backlog := by
  unfold Depot.beginTearDown
  split
  · dsimp only
    split
    · exact holds
    · exact h.afterTimer (d := d.stopTimer) holds now flushFirst
  · exact h.afterTimer holds now flushFirst

theorem continueTick (h : Lasting P) (holds : P d.backlog) (now : Nat) (timer : DrainTimer)
    (worker : Nat) : P (d.continueTick now timer worker).backlog := by
  have awaited : P (d.awaitWorker now worker Task.awaiting finish).2.backlog :=
    h.awaitWorker holds now worker _ fun _ _ => rfl
  unfold Depot.continueTick
  generalize d.awaitWorker now worker Task.awaiting finish = result at awaited ⊢
  obtain ⟨progress, d'⟩ := result
  cases progress <;> exact awaited

theorem writeBehind (h : Lasting P) (now : Nat) (store : String) (key : CacheKey) (value : Json)
    (ttl : Option Duration) (batchSize : Nat) (persist : Persist)
    (holds : P (d.backlog.push now key value persist)) :
    P (d.writeBehind now store key value ttl batchSize persist).2.backlog := by
  unfold Depot.writeBehind
  dsimp only
  split
  · exact h.start WriteBehind.Worker.fresh_newDrain holds
  · exact holds

end Lasting

theorem startReload_backlog (d : Depot) (h : Handle) (key : CacheKey) (ttl : Option Duration)
    (loader : Loader) : (d.startReload h key ttl loader).backlog = d.backlog := by
  unfold startReload
  dsimp only
  split <;> rfl

theorem refreshAhead_backlog (d : Depot) (now : Nat) (store : String) (key : CacheKey)
    (ttl : Option Duration) (threshold : Threshold) (loader : Loader) :
    (d.refreshAhead now store key ttl threshold loader).2.backlog = d.backlog := by
  have read : d.StoresOnly (d.getEntry now (d.getCache store) key).2 := .onStore d _ _
  rw [refreshAhead]
  generalize d.getEntry now (d.getCache store) key = result at read ⊢
  obtain ⟨entry, d'⟩ := result
  cases entry with
  | none => exact (read.trans (.load d' now _ key ttl loader)).backlog
  | some e =>
    dsimp only
    split
    · exact (startReload_backlog d' _ key ttl loader).trans read.backlog
    · exact read.backlog

theorem runSweep_backlog (d : Depot) (now : Nat) (name : String) :
    (d.runSweep now name).backlog = d.backlog := by
  unfold runSweep
  split
  · split <;> rfl
  · rfl

theorem emptyOne_backlog (d : Depot) (id : Nat) (h : Handle) :
    (d.emptyOne id h).backlog = d.backlog := by
  unfold emptyOne
  split
  · split
    · rw [settleTask_backlog, snd_clearNext]
      rfl
    · rfl
  · rfl

/-- Giving up a task gives up at most one worker. -/
theorem abort_backlog (d : Depot) (id : Nat) :
    (d.abort id).backlog = d.backlog ∨
      ∃ worker, (d.abort id).backlog = d.backlog.cancel worker := by
  unfold abort
  cases d.tasks.get? id with
  | none => exact .inl rfl
  | some t =>
    cases t with
    | awaiting worker => exact .inr ⟨worker, rfl⟩
    | flushing worker => exact .inr ⟨worker, rfl⟩
    | draining worker => exact .inr ⟨worker, rfl⟩
    | _ => exact .inl rfl

namespace Lasting

variable {P : Backlog → Prop}

theorem startOperation (h : Lasting P) (now : Nat) (operation : Operation)
    (holds : P ((Action.start operation).pushInto now d.backlog)) :
    P (d.start now operation).2.backlog := by
  have same : ∀ {d' : Depot}, d'.backlog = d.backlog → P d.backlog → P d'.backlog :=
    fun same holds => same ▸ holds
  cases operation with
  | get s key => exact holds
  | getEntry s key => exact holds
  | peek s key => exact holds
  | set s key value ttl => exact holds
  | delete s key => exact holds
  | sweep s => exact holds
  | clear s => exact holds
  | stats s => exact holds
  | create name config =>
    rw [Depot.start, createCache]
    cases config.fault? <;> exact holds
  | warm store items => exact same (StoresOnly.warm d now store items).backlog holds
  | invalidate store key => exact holds
  | cacheAside store key ttl loader =>
    exact same (StoresOnly.cacheAside d now key ttl store loader).backlog holds
  | refreshAhead store key ttl threshold loader =>
    exact same (d.refreshAhead_backlog now store key ttl threshold loader) holds
  | writeThrough store key value ttl persist =>
    exact same (StoresOnly.writeThrough d now key ttl store value persist).backlog holds
  | writeBehind store key value ttl batchSize persist =>
    exact h.writeBehind now store key value ttl batchSize persist holds
  | tierGet first second key ttl =>
    exact same (StoresOnly.tierGet d now key ttl first second).backlog holds
  | tierSet first second key value ttl =>
    exact same (StoresOnly.tierSet d now key ttl first second value).backlog holds
  | push key value persist => exact holds
  | drain => exact h.runWorker holds now WriteBehind.Worker.fresh_newDrain
  | flush => exact h.runWorker holds now WriteBehind.Worker.fresh_newFlush
  | destroy => exact h.beginTearDown holds now false
  | shutdown => exact h.beginTearDown holds now true

theorem resumeTask (h : Lasting P) (holds : P d.backlog) (now id : Nat) (t : Task) :
    P (d.resumeTask now id t).backlog := by
  have same : ∀ {d' : Depot}, d'.backlog = d.backlog → P d'.backlog := fun same => same ▸ holds
  cases t with
  | loading handle key ttl loader due =>
    exact same (StoresOnly.finishLoad d now handle key ttl loader.outcome).backlog
  | persisting handle key value ttl attempt due =>
    rw [Depot.resumeTask, settleTask_backlog]
    exact holds
  | caching handle key value ttl => exact holds
  | awaiting worker =>
    rw [Depot.resumeTask, settleTask_backlog]
    exact h.awaitWorker holds now worker _ fun _ _ => rfl
  | stopping flushFirst =>
    rw [Depot.resumeTask, settleTask_backlog]
    exact h.afterTimer holds now flushFirst
  | flushing worker =>
    rw [Depot.resumeTask, settleTask_backlog]
    exact h.awaitWorker holds now worker _ fun _ _ => rfl
  | clearing left answer => exact same (StoresOnly.clearStores d left).backlog
  | reloadReady handle key ttl loader =>
    rw [Depot.resumeTask]
    split
    · exact same ((StoresOnly.record d _).trans (.finishReload _ now handle key ttl _)).backlog
    · exact holds
  | reloading handle key ttl loader due =>
    exact same (StoresOnly.finishReload d now handle key ttl loader.outcome).backlog
  | draining worker =>
    have awaited : P (d.awaitWorker now worker Task.draining finish).2.backlog :=
      h.awaitWorker holds now worker _ fun _ _ => rfl
    rw [Depot.resumeTask]
    generalize d.awaitWorker now worker Task.draining finish = result at awaited ⊢
    obtain ⟨progress, d'⟩ := result
    cases progress <;> exact awaited
  | storing handle key value ttl => exact holds
  | ended answer => exact holds

theorem runTimer (h : Lasting P) (holds : P d.backlog) (now : Nat) :
    P (d.runTimer now).backlog := by
  unfold Depot.runTimer
  split
  · rename_i timer _
    split
    · rename_i worker _
      split
      · exact h.continueTick holds now timer worker
      · exact holds
    · split
      · rename_i ticker _
        split
        · exact holds
        · have started := h.start WriteBehind.Worker.fresh_newDrain holds
          exact h.continueTick (d := (d.startWorker .newDrain).2) started now _ _
      · exact holds
  · exact holds

/-- A lasting property that holds after what an action pushes holds after the action, and after
giving a task up if it outlasts giving workers up too. -/
theorem act (h : Lasting P) (now : Nat) {a : Action} (holds : P (a.pushInto now d.backlog))
    (cancel : ∀ task, a = .abort task → ∀ b id, P b → P (Backlog.cancel b id)) :
    P (d.act now a).backlog := by
  cases a with
  | start operation =>
    have started :=
      h.startOperation (d := { d with nextTask := d.nextTask + 1 }) now operation holds
    rw [Depot.act, submit, settleTask_backlog]
    exact started
  | resume id =>
    rw [Depot.act, resume]
    split
    · split
      · exact h.resumeTask holds now id _
      · exact holds
    · exact holds
  | clear id handle =>
    rw [Depot.act, emptyOne_backlog]
    exact holds
  | drainTimer => exact h.runTimer holds now
  | sweep name =>
    rw [Depot.act, runSweep_backlog]
    exact holds
  | abort id =>
    unfold Depot.act
    rcases d.abort_backlog id with same | ⟨worker, cancels⟩
    · rw [same]
      exact holds
    · rw [cancels]
      exact cancel id rfl _ _ holds

end Lasting

/-- Onward is where a depot leads its queue. -/
theorem lasting_onward {b₀ : Backlog} : Lasting b₀.Onward where
  start := fun fresh on => on.trans (on.guarded.start fresh.not_holdsFlag)
  await := fun now id on =>
    have resumed := on.trans (on.guarded.resume now id)
    resumed.trans (resumed.guarded.collect id)

/-- What an action does to the queue comes after what it pushes, and pushes nothing more. -/
theorem act_onward (h : d.backlog.Guarded) (now : Nat) (a : Action) :
    (a.pushInto now d.backlog).Onward (d.act now a).backlog := by
  have guarded : (a.pushInto now d.backlog).Guarded := by
    unfold Action.pushInto
    split
    · exact h.push now _ _ _
    · exact h
  exact lasting_onward.act now guarded.onward fun _ _ b id on => on.trans (on.guarded.cancel id)

theorem guarded_act (h : d.backlog.Guarded) (now : Nat) (a : Action) :
    (d.act now a).backlog.Guarded :=
  (act_onward h now a).guarded

theorem maxRetries_act (h : d.backlog.Guarded) (now : Nat) (a : Action) :
    (d.act now a).backlog.queue.maxRetries = d.backlog.queue.maxRetries := by
  apply (act_onward h now a).maxRetries.trans
  unfold Action.pushInto
  split <;> rfl

theorem maxRetries_run (h : d.backlog.Guarded) (actions : List (Nat × Action)) :
    (d.run actions).backlog.queue.maxRetries = d.backlog.queue.maxRetries := by
  induction actions generalizing d with
  | nil => rfl
  | cons first rest ih =>
    exact (ih (guarded_act h first.1 first.2)).trans (maxRetries_act h first.1 first.2)

/-- The items that a run adds to the queue, the first of them under this ticket. -/
def issued (ticket : Nat) : List (Nat × Action) → List Item
  | [] => []
  | (now, a) :: rest =>
    match a.pushed? with
    | some (key, value, persist) =>
      ⟨ticket, key, value, persist, now, 0⟩ :: issued (ticket + 1) rest
    | none => issued ticket rest

theorem ledger_act {items : List Item} (h : Ledger items d.backlog) (now : Nat) (a : Action) :
    Ledger (items ++ issued items.length [(now, a)]) (d.act now a).backlog := by
  have on := act_onward h.guarded now a
  rw [Action.pushInto] at on
  simp only [issued]
  cases pushed : a.pushed? with
  | none =>
    rw [pushed] at on
    simpa using h.onward on
  | some push =>
    obtain ⟨key, value, persist⟩ := push
    rw [pushed] at on
    dsimp only
    rw [← h.pushed]
    exact (h.push now key value persist).onward on

theorem issued_cons (ticket : Nat) (first : Nat × Action) (rest : List (Nat × Action)) :
    issued ticket (first :: rest) =
      issued ticket [first] ++ issued (ticket + (issued ticket [first]).length) rest := by
  obtain ⟨now, a⟩ := first
  simp only [issued]
  cases a.pushed? <;> rfl

/-- Everything that is pushed in a run, and nothing else, stands in the ledger. -/
theorem ledger_run {items : List Item} (h : Ledger items d.backlog)
    (actions : List (Nat × Action)) :
    Ledger (items ++ issued items.length actions) (d.run actions).backlog := by
  induction actions generalizing items d with
  | nil => rwa [issued, List.append_nil]
  | cons first rest ih =>
    have next := ih (ledger_act h first.1 first.2)
    rw [List.length_append] at next
    rw [issued_cons, ← List.append_assoc]
    exact next

/-- Items that have been pushed only shift, whatever is pushed later. -/
theorem only_act (h : d.backlog.Guarded) {chosen : Nat → Bool}
    (known : ∀ ticket, chosen ticket = true → ticket < d.backlog.queue.pushed) (now : Nat)
    (a : Action) :
    (d.backlog.course.only chosen).Shifts d.backlog.queue
        ((d.act now a).backlog.course.only chosen) ∧
      d.backlog.queue.pushed ≤ (d.act now a).backlog.queue.pushed := by
  have on := act_onward h now a
  rw [Action.pushInto] at on
  cases pushed : a.pushed? with
  | none =>
    rw [pushed] at on
    exact ⟨on.course.only chosen, Nat.le_of_eq on.pushed.symm⟩
  | some push =>
    obtain ⟨key, value, persist⟩ := push
    rw [pushed] at on
    dsimp only at on
    have other : ¬ chosen d.backlog.queue.pushed = true :=
      fun pick => Nat.lt_irrefl _ (known _ pick)
    have same : (d.backlog.push now key value persist).course.only chosen =
        d.backlog.course.only chosen := by
      rw [Backlog.only_push, if_neg other, List.append_nil]
    have retries : (d.backlog.push now key value persist).queue.maxRetries =
        d.backlog.queue.maxRetries := rfl
    refine ⟨?_, Nat.le_of_lt (Nat.lt_of_lt_of_eq (Nat.lt_succ_self _) on.pushed.symm)⟩
    rw [← same]
    exact (on.course.only chosen).congr retries

theorem only_run (h : d.backlog.Guarded) {chosen : Nat → Bool}
    (known : ∀ ticket, chosen ticket = true → ticket < d.backlog.queue.pushed)
    (actions : List (Nat × Action)) :
    (d.backlog.course.only chosen).Shifts d.backlog.queue
      ((d.run actions).backlog.course.only chosen) := by
  induction actions generalizing d with
  | nil => exact .refl
  | cons first rest ih =>
    obtain ⟨shifts, pushed⟩ := only_act h known first.1 first.2
    have later := ih (guarded_act h first.1 first.2) fun ticket pick =>
      Nat.lt_of_lt_of_le (known ticket pick) pushed
    exact Relation.ReflTransGen.trans shifts (later.congr (maxRetries_act h first.1 first.2))

end Depot
end CacheDepot
