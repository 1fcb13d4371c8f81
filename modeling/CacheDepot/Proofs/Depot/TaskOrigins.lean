import CacheDepot.Proofs.Depot.Rest
import CacheDepot.Proofs.Depot.ActionEffects

/-!
# Where tasks come from

A task that is found after an action was there before and has moved on by at most one step, or it
was started by the action, which is then an operation of a caller. Callers start reloads and drains
in the background, but nothing that a caller asks of a depot starts to keep a response.
-/

namespace CacheDepot

/-- Whether a task is to put a response into a store. -/
def Task.isStoring : Task → Bool
  | .storing _ _ _ _ => true
  | _ => false

/-- The writes that a task makes in the end, unless it is given up. -/
def Task.brings : Task → List Write
  | .loading h key _ loader _ | .reloadReady h key _ loader | .reloading h key _ loader _ =>
    loader.outcome.writes h key
  | .persisting h key value _ attempt _ => if attempt.failure.isNone then [⟨h, key, value⟩] else []
  | .caching h key value _ | .storing h key value _ => [⟨h, key, value⟩]
  | _ => []

/-- The writes that are still to come from an operation. -/
def Progress.brings : Progress → List Write
  | .answered _ => []
  | .waits t => t.brings

/-- How a task moves on when nobody calls for it. A task that a caller waits for ends with an
answer or becomes another such task, which brings nothing more. -/
inductive Task.Becomes : Task → Task → Prop
  | same (t : Task) : Becomes t t
  | calls (h : Handle) (key : CacheKey) (ttl : Option Duration) (loader : Loader) (due : Nat) :
      Becomes (.reloadReady h key ttl loader) (.reloading h key ttl loader due)
  | settles {t t' : Task} (callers : t.isCallers = true)
      (then' : t'.isCallers = true ∨ ∃ answer, t' = .ended answer)
      (brings : t'.brings ⊆ t.brings) : Becomes t t'

namespace Task

variable {t t' : Task}

theorem mem_brings_of_mem_writes {w : Write} (member : w ∈ t.writes) : w ∈ t.brings := by
  cases t with
  | reloadReady h key ttl loader =>
    rw [writes, Loader.writes] at member
    split at member
    · exact member
    · cases member
  | persisting h key value ttl attempt due => cases member
  | _ => exact member

/-- A task that makes a write in the end is one that a caller waits for, a reload, or one that keeps
a response. -/
theorem cases_of_mem_brings {w : Write} (member : w ∈ t.brings) :
    t.isCallers = true ∨ t.reloadId?.isSome = true ∨ t.isStoring = true := by
  cases t with
  | loading h key ttl loader due => exact .inl rfl
  | persisting h key value ttl attempt due => exact .inl rfl
  | caching h key value ttl => exact .inl rfl
  | reloadReady h key ttl loader => exact .inr (.inl rfl)
  | reloading h key ttl loader due => exact .inr (.inl rfl)
  | storing h key value ttl => exact .inr (.inr rfl)
  | _ => cases member

/-- Whatever becomes of a task, it brings nothing that it did not bring before. -/
theorem Becomes.brings_subset (h : t.Becomes t') : t'.brings ⊆ t.brings := by
  cases h with
  | same => exact List.Subset.refl _
  | calls => exact List.Subset.refl _
  | settles _ _ brings => exact brings

theorem not_isStoring_of_settled (settled : t.isCallers = true ∨ ∃ answer, t = .ended answer) :
    t.isStoring = false := by
  rcases settled with callers | ⟨answer, rfl⟩
  · cases t with
    | storing h key value ttl => cases callers
    | _ => rfl
  · rfl

theorem Becomes.eq_of_isStoring (h : t.Becomes t') (storing : t'.isStoring = true) : t' = t := by
  cases h with
  | same => rfl
  | calls => cases storing
  | settles _ then' _ =>
    exact absurd (storing.symm.trans (not_isStoring_of_settled then')) Bool.noConfusion

end Task

namespace Depot

variable {d : Depot} {id now : Nat} {t t' : Task} {a : Action}

/-- Where a task has been settled it has an answer, or it is what its progress waits as. -/
theorem cases_of_settleTask {p : Progress × Depot}
    (found : (settleTask id p).tasks.get? id = some t') :
    (∃ answer, t' = .ended answer) ∨ p.1 = .waits t' := by
  obtain ⟨progress, d'⟩ := p
  cases progress with
  | answered answer =>
    cases (Assoc.get?_insert_self d'.tasks id (.ended answer)).symm.trans found
    exact .inl ⟨answer, rfl⟩
  | waits t =>
    cases (Assoc.get?_insert_self d'.tasks id t).symm.trans found
    exact .inr rfl

/-- A task of a caller that is settled brings what its progress brings. -/
theorem becomes_of_settleTask {p : Progress × Depot} (waits : t.isCallers = true)
    (callers : p.1.isCallers = true) (brings : p.1.brings ⊆ t.brings)
    (found : (settleTask id p).tasks.get? id = some t') : t.Becomes t' := by
  rcases cases_of_settleTask found with ⟨answer, rfl⟩ | goes
  · exact .settles waits (.inr ⟨answer, rfl⟩) (List.nil_subset _)
  · rw [goes] at callers brings
    exact .settles waits (.inl callers) brings

/-- A task of a caller that is settled and brings nothing more. -/
theorem becomes_of_brings_nil {p : Progress × Depot} (waits : t.isCallers = true)
    (callers : p.1.isCallers = true) (none : p.1.brings = [])
    (found : (settleTask id p).tasks.get? id = some t') : t.Becomes t' :=
  becomes_of_settleTask waits callers (none ▸ List.nil_subset _) found

theorem brings_awaitWorker (d : Depot) (now worker : Nat) {waiting : Nat → Task}
    (plain : (waiting worker).brings = []) {next : Depot → Answer → Progress × Depot}
    (ends : ∀ d answer, (next d answer).1.brings = []) :
    (d.awaitWorker now worker waiting next).1.brings = [] := by
  rw [awaitWorker]
  cases (d.onBacklog fun b => b.resume now worker).backlog.report? worker with
  | none => exact plain
  | some report => exact ends _ _

theorem brings_afterTimer (d : Depot) (now : Nat) (flushFirst : Bool) :
    (d.afterTimer now flushFirst).1.brings = [] := by
  cases flushFirst with
  | false => rfl
  | true => exact brings_awaitWorker (d.startWorker .newFlush).2 now _ rfl fun _ _ => rfl

theorem brings_beginTearDown (d : Depot) (now : Nat) (flushFirst : Bool) :
    (d.beginTearDown now flushFirst).1.brings = [] := by
  unfold beginTearDown
  split
  · dsimp only
    split
    · rfl
    · exact brings_afterTimer _ now flushFirst
  · exact brings_afterTimer d now flushFirst

theorem brings_clearNext (d : Depot) (left : List Handle) (answer : Answer) (h : Handle) :
    (d.clearNext left answer h).1.brings = [] := by
  rw [clearNext]
  split <;> rfl

theorem becomes_of_resumeTask (bound : d.tasks.get? id = some t)
    (found : (d.resumeTask now id t).tasks.get? id = some t') : t.Becomes t' := by
  cases t with
  | loading h key ttl loader due =>
    exact becomes_of_brings_nil (p := (.answered _, _)) rfl rfl rfl found
  | persisting h key value ttl attempt due =>
    refine becomes_of_settleTask rfl (isCallers_afterPersist ..) ?_ found
    rw [afterPersist, Task.brings]
    cases attempt.failure with
    | some cause => exact List.nil_subset _
    | none => exact List.Subset.refl _
  | caching h key value ttl =>
    exact becomes_of_brings_nil (p := (.answered _, _)) rfl rfl rfl found
  | awaiting worker =>
    refine becomes_of_brings_nil rfl ?_ ?_ found
    · exact isCallers_awaitWorker d now worker rfl fun _ _ => rfl
    · exact brings_awaitWorker d now worker rfl fun _ _ => rfl
  | stopping flushFirst =>
    exact becomes_of_brings_nil rfl (isCallers_afterTimer d now flushFirst)
      (brings_afterTimer d now flushFirst) found
  | flushing worker =>
    refine becomes_of_brings_nil rfl ?_ ?_ found
    · exact isCallers_awaitWorker d now worker rfl fun _ _ => rfl
    · exact brings_awaitWorker d now worker rfl fun _ _ => rfl
  | clearing left answer =>
    exact becomes_of_brings_nil (p := (.answered answer, _)) rfl rfl rfl found
  | reloadReady h key ttl loader =>
    rw [resumeTask] at found
    split at found
    · cases (get?_dropTask _ id).symm.trans found
    · cases (Assoc.get?_insert_self ..).symm.trans found
      exact .calls h key ttl loader _
  | reloading h key ttl loader due => cases (get?_dropTask _ id).symm.trans found
  | draining worker =>
    have kept : (d.awaitWorker now worker Task.draining finish).2.tasks = d.tasks :=
      (Beside.awaitWorker d now worker _ fun d _ => Beside.refl d).tasks
    rw [resumeTask] at found
    generalize d.awaitWorker now worker Task.draining finish = result at kept found
    obtain ⟨progress, d'⟩ := result
    cases progress with
    | answered answer => cases (get?_dropTask d' id).symm.trans found
    | waits t =>
      have same : some t' = some (.draining worker) :=
        found.symm.trans ((congrArg (·.get? id) kept).trans bound)
      cases same
      exact .same _
  | storing h key value ttl => cases (get?_dropTask _ id).symm.trans found
  | ended answer =>
    cases bound.symm.trans found
    exact .same _

/-- Without a call of a caller no task is started. -/
theorem exists_becomes_of_act (uncalled : ∀ operation, a ≠ .start operation)
    (found : (d.act now a).tasks.get? id = some t') :
    ∃ t, d.tasks.get? id = some t ∧ t.Becomes t' := by
  have stays : (d.act now a).tasks.get? id = d.tasks.get? id →
      ∃ t, d.tasks.get? id = some t ∧ t.Becomes t' := fun same =>
    ⟨t', same.symm.trans found, .same t'⟩
  cases a with
  | start operation => exact absurd rfl (uncalled operation)
  | drainTimer => exact stays (congrArg (·.get? id) (d.runTimer_leaves now).1)
  | sweep name => exact stays (congrArg (·.get? id) (d.runSweep_tasks now name).1)
  | resume other =>
    by_cases own : id = other
    · subst own
      rw [act, resume] at found
      cases bound : d.tasks.get? id with
      | none =>
        rw [bound] at found
        cases bound.symm.trans found
      | some t =>
        rw [bound] at found
        dsimp only at found
        split at found
        · exact ⟨t, rfl, becomes_of_resumeTask bound found⟩
        · cases bound.symm.trans found
          exact ⟨t', rfl, .same t'⟩
    · exact stays ((d.leavesOthers_resume now other).tasks id own)
  | clear other h =>
    by_cases own : id = other
    · subst own
      rw [act, emptyOne] at found
      split at found
      · rename_i left answer bound
        split at found
        · exact ⟨_, bound, becomes_of_brings_nil rfl (isCallers_clearNext d left answer h)
            (brings_clearNext d left answer h) found⟩
        · exact ⟨t', found, .same t'⟩
      · exact ⟨t', found, .same t'⟩
    · exact stays ((d.leavesOthers_emptyOne other h).tasks id own)
  | abort other =>
    by_cases own : id = other
    · subst own
      rw [act, abort] at found
      cases bound : d.tasks.get? id with
      | none =>
        rw [bound] at found
        cases bound.symm.trans found
      | some t =>
        rw [bound] at found
        cases t with
        | ended answer =>
          cases bound.symm.trans found
          exact ⟨_, rfl, .same _⟩
        | _ => cases (get?_dropTask _ id).symm.trans found
    · exact stays ((d.leavesOthers_abort other).tasks id own)

/-- What stands somewhere when an operation of a caller was started: its own task, a drain or a
reload in the background, or what was there before. -/
theorem cases_of_start {operation : Operation}
    (found : (d.act now (.start operation)).tasks.get? id = some t') :
    (id = d.nextTask ∧ ((∃ answer, t' = .ended answer) ∨
      ({ d with nextTask := d.nextTask + 1 }.start now operation).1 = .waits t')) ∨
    ((∃ worker, t' = .draining worker) ∨ ∃ h key ttl loader, t' = .reloadReady h key ttl loader) ∨
    d.tasks.get? id = some t' := by
  have started := starts_start { d with nextTask := d.nextTask + 1 } now operation
  rw [act, submit] at found
  dsimp only at found
  generalize { d with nextTask := d.nextTask + 1 }.start now operation = result at started found ⊢
  by_cases own : id = d.nextTask
  · subst own
    exact .inl ⟨rfl, cases_of_settleTask found⟩
  · right
    have inserted : ∀ {tasks : Assoc Nat Task} {other : Nat} {t : Task},
        (tasks.insert other t).get? id = some t' → t' = t ∨ tasks.get? id = some t' := by
      intro tasks other t found
      rw [Assoc.get?_insert] at found
      split at found
      · cases found
        exact .inl rfl
      · exact .inr found
    rw [get?_settleTask_of_ne own] at found
    cases started with
    | alone changes plain => exact .inr (changes.keeps.1 ▸ found)
    | drain changes worker =>
      exact (inserted found).imp (fun same => .inl ⟨worker, same⟩) fun was => changes.keeps.1 ▸ was
    | reload changes h key ttl loader =>
      rw [startReload] at found
      dsimp only at found
      split at found
      · exact .inr (changes.keeps.1 ▸ found)
      · exact (inserted found).imp (fun same => .inr ⟨h, key, ttl, loader, same⟩)
          fun was => changes.keeps.1 ▸ was

/-- What a caller asks for starts no task that keeps a response. -/
theorem get?_of_isStoring_start {operation : Operation} (storing : t'.isStoring = true)
    (found : (d.act now (.start operation)).tasks.get? id = some t') :
    d.tasks.get? id = some t' := by
  have callers := isCallers_start { d with nextTask := d.nextTask + 1 } now operation
  rcases cases_of_start found with ⟨-, ⟨answer, rfl⟩ | waits⟩ |
    (⟨worker, rfl⟩ | ⟨h, key, ttl, loader, rfl⟩) | was
  · cases storing
  · rw [waits] at callers
    exact absurd (storing.symm.trans (Task.not_isStoring_of_settled (.inl callers)))
      Bool.noConfusion
  · cases storing
  · cases storing
  · exact was

/-- A task that keeps a response has been started by none of the actions. -/
theorem get?_of_isStoring (storing : t'.isStoring = true)
    (found : (d.act now a).tasks.get? id = some t') : d.tasks.get? id = some t' := by
  by_cases called : ∃ operation, a = .start operation
  · obtain ⟨operation, rfl⟩ := called
    exact get?_of_isStoring_start storing found
  · obtain ⟨t, bound, becomes⟩ :=
      exists_becomes_of_act (fun operation same => called ⟨operation, same⟩) found
    rw [becomes.eq_of_isStoring storing]
    exact bound

/-! ## What is found when nobody calls -/

/-- Whether no caller waits for anything. -/
def isUnattended (d : Depot) : Bool := d.tasks.bindings.all fun b => !b.2.isCallers

theorem isUnattended_iff :
    d.isUnattended = true ↔ ∀ id t, d.tasks.get? id = some t → t.isCallers = false := by
  rw [isUnattended, List.all_eq_true]
  constructor
  · intro alone id t bound
    simpa using alone (id, t) (Assoc.get?_eq_some_iff.mp bound)
  · intro alone b member
    simpa using alone b.1 b.2 (Assoc.get?_eq_some_iff.mpr member)

/-- Whether a task will make this write, unless it is given up. -/
def Brings (d : Depot) (id : Nat) (w : Write) : Prop := ∃ t, d.tasks.get? id = some t ∧ w ∈ t.brings

/-- What a depot can have become when nobody has called for anything: no name leads elsewhere, no
task brings anything new, and what is found in a store was there before or one of the tasks has
brought it. -/
structure LeftAlone (d d' : Depot) : Prop where
  names : d.SameNames d'
  brings : ∀ id w, d'.Brings id w → d.Brings id w
  found : ∀ cell key value, (d'.store cell).resident? key = some value →
    (d.store cell).resident? key = some value ∨
      ∃ id w, d.Brings id w ∧ w.isAt cell key = true ∧ w.value = value

/-- Without a call of a caller, what is written is what a task brings. -/
theorem exists_brings_of_mem_writes {w : Write} (uncalled : ∀ operation, a ≠ .start operation)
    (member : w ∈ d.writes now a) : ∃ id, d.Brings id w := by
  cases a with
  | start operation => exact absurd rfl (uncalled operation)
  | resume id =>
    rw [writes] at member
    cases bound : d.tasks.get? id with
    | none =>
      rw [bound] at member
      cases member
    | some t =>
      rw [bound] at member
      dsimp only at member
      split at member
      · exact ⟨id, t, bound, Task.mem_brings_of_mem_writes member⟩
      · cases member
  | _ => cases member

namespace LeftAlone

variable {d' d'' : Depot}

theorem refl (d : Depot) : d.LeftAlone d := ⟨fun _ => rfl, fun _ _ h => h, fun _ _ _ => .inl⟩

theorem trans (h : d.LeftAlone d') (h' : d'.LeftAlone d'') : d.LeftAlone d'' where
  names := fun name => (h'.names name).trans (h.names name)
  brings := fun id w brings => h.brings id w (h'.brings id w brings)
  found := by
    intro cell key value there
    rcases h'.found cell key value there with was | ⟨id, w, brings, here, same⟩
    · exact h.found cell key value was
    · exact .inr ⟨id, w, h.brings id w brings, here, same⟩

theorem act (now : Nat) (uncalled : ∀ operation, a ≠ .start operation) :
    d.LeftAlone (d.act now a) where
  names := d.sameNames_act now uncalled
  brings := by
    rintro id w ⟨t', bound, member⟩
    obtain ⟨t, was, becomes⟩ := exists_becomes_of_act uncalled bound
    exact ⟨t, was, becomes.brings_subset member⟩
  found := by
    intro cell key value there
    have stems := (d.turn_act now a).stems cell key
    rcases stems.resident_cases there with stays | ⟨w, written, here, rfl⟩
    · exact .inl stays
    · obtain ⟨id, brings⟩ := exists_brings_of_mem_writes uncalled written
      exact .inr ⟨id, w, brings, here, rfl⟩

theorem run (d : Depot) (actions : List (Nat × Action))
    (uncalled : ∀ a ∈ actions, ∀ operation, a.2 ≠ .start operation) :
    d.LeftAlone (d.run actions) := by
  induction actions generalizing d with
  | nil => exact refl d
  | cons first rest ih =>
    apply (act first.1 (uncalled first List.mem_cons_self)).trans
    exact ih _ fun a member => uncalled a (List.mem_cons_of_mem _ member)

/-- What is found in a store that was empty has been brought by a task. -/
theorem exists_brings_of_isEmpty (h : d.LeftAlone d') {cell : Nat} {key : CacheKey} {value : Json}
    (empty : (d.store cell).isEmpty = true) (there : (d'.store cell).resident? key = some value) :
    ∃ id w, d.Brings id w ∧ w.isAt cell key = true ∧ w.value = value := by
  apply (h.found cell key value there).resolve_left
  rw [Store.resident?_of_isEmpty empty]
  exact nofun

end LeftAlone

end Depot
end CacheDepot
