import CacheDepot.Proofs.WriteBehind.Steps

/-!
# What drains report

A drain that has taken a batch accounts for every item of it, whatever the others do meanwhile.
-/

namespace CacheDepot.WriteBehind

theorem Queue.processed_tally (q : Queue) (batch : List Item) :
    (tally (batch.map q.judge)).processed = batch.length := by
  induction batch with
  | nil => rfl
  | cons item rest ih =>
    have split : (tally ((item :: rest).map q.judge)).processed =
        (tally [q.judge item]).processed + (tally (rest.map q.judge)).processed := by
      simp only [tally, Report.processed, List.map_cons, List.countP_cons, List.countP_nil]
      omega
    have alone : (tally [q.judge item]).processed = 1 := by
      unfold judge
      split
      · rfl
      · split <;> rfl
    rw [split, alone, ih, List.length_cons, Nat.add_comm]

namespace DrainStage

variable {n : Nat} {stage : DrainStage}

/-- Whether a drain has taken a batch of `n` items and will report as many. -/
def Accounts (n : Nat) : DrainStage → Prop
  | .claiming | .taking => False
  | .attempting batch _ | .settling batch => batch.length = n
  | .releasing report => report.skipped = false ∧ report.processed = n
  | .done report => report.skipped = false → report.processed = n

theorem accounts_take (now : Nat) (q : Queue) :
    (step now q .taking).2.1.Accounts (min q.batchSize q.items.length) := by
  have length : q.batch.length = min q.batchSize q.items.length := List.length_take
  rw [← length, step]
  split
  · rename_i empty
    rw [List.isEmpty_iff.mp empty]
    exact ⟨rfl, rfl⟩
  · rfl

theorem Accounts.step (h : stage.Accounts n) (now : Nat) (q : Queue) :
    (stage.step now q).2.1.Accounts n := by
  cases stage with
  | claiming => exact h.elim
  | taking => exact h.elim
  | attempting batch due => exact h
  | settling batch => exact ⟨rfl, (q.processed_tally batch).trans h⟩
  | releasing report => exact fun _ => h.2
  | done report => exact h

end DrainStage

namespace Worker

variable {w : Worker} {stage : DrainStage} (now : Nat) (q : Queue)

/-- What a worker does to the queue and to items is what the drain does that it is at. -/
theorem step_eq (drains : w.drainStage? = some stage) :
    (w.step now q).1 = (stage.step now q).1 ∧ (w.step now q).2.2 = (stage.step now q).2.2 := by
  cases w with
  | drain own =>
    cases drains
    exact ⟨rfl, rfl⟩
  | flush own =>
    cases own with
    | draining total own =>
      cases drains
      exact ⟨rfl, rfl⟩
    | _ => cases drains

theorem holdsFlag_step (drains : w.drainStage? = some stage) :
    (w.step now q).2.1.holdsFlag = (stage.step now q).2.1.holdsFlag := by
  cases w with
  | drain own =>
    cases drains
    rfl
  | flush own =>
    cases own with
    | draining total own =>
      cases drains
      exact FlushStage.holdsFlag_afterDrain now total _
    | _ => cases drains

/-- A worker that keeps the flag up goes on with the drain it is at. -/
theorem drainStage_step (drains : w.drainStage? = some stage)
    (keeps : (stage.step now q).2.1.holdsFlag = true) :
    (w.step now q).2.1.drainStage? = some (stage.step now q).2.1 := by
  cases w with
  | drain own =>
    cases drains
    rfl
  | flush own =>
    cases own with
    | draining total own =>
      cases drains
      show (Worker.flush (FlushStage.afterDrain now total (stage.step now q).2.1)).drainStage? = _
      cases reached : (stage.step now q).2.1 with
      | done report => rw [reached] at keeps; cases keeps
      | _ => rfl
    | _ => cases drains

end Worker

namespace Backlog

variable {b : Backlog} {id n : Nat}

/-- Whether worker `id` is a drain of its own at such a stage, or gone. -/
structure DrainsAt (P : DrainStage → Prop) (id : Nat) (b : Backlog) : Prop where
  known : id < b.nextWorker
  stage : ∀ w, b.workers.get? id = some w → ∃ stage, w = .drain stage ∧ P stage

namespace DrainsAt

variable {P : DrainStage → Prop}

theorem gone (known : id < b.nextWorker) (gone : b.workers.get? id = none) : DrainsAt P id b :=
  ⟨known, fun w bound => by simp [gone] at bound⟩

theorem put (known : id < b.nextWorker) {stage : DrainStage} (holds : P stage) (q : Queue)
    (fates : List Fate) : DrainsAt P id (b.put id (q, .drain stage, fates)) := by
  refine ⟨known, ?_⟩
  intro w bound
  rw [get?_put, if_pos rfl] at bound
  cases bound
  exact ⟨stage, rfl, holds⟩

theorem step (stays : ∀ stage now q, P stage → P (stage.step now q).2.1) (h : DrainsAt P id b)
    (now : Nat) : DrainsAt P id (b.step now id) := by
  cases found : b.workers.get? id with
  | none =>
    rw [Backlog.step, found]
    exact h
  | some v =>
    obtain ⟨stage, rfl, holds⟩ := h.stage v found
    rw [step_of_get? found]
    exact put h.known (stays stage now b.queue holds) _ _

/-- Nobody else moves a drain from its stage. -/
theorem act (stays : ∀ stage now q, P stage → P (stage.step now q).2.1) (h : DrainsAt P id b)
    (now : Nat) (a : Action) : DrainsAt P id (b.act now a) := by
  have known := Nat.lt_of_lt_of_le h.known (nextWorker_le_act b now a)
  by_cases own : a.worker? = some id
  · cases a with
    | push key value persist => cases own
    | startDrain => cases own
    | startFlush => cases own
    | step id => cases own; exact h.step stays now
    | resume id => cases own; exact resume_induction (fun _ h => h.step stays now) h
    | cancel id =>
      cases own
      rw [Backlog.act, Backlog.cancel] at known ⊢
      split
      · exact .gone h.known (Assoc.get?_erase_self ..)
      · exact h
    | collect id =>
      cases own
      rw [Backlog.act, Backlog.collect] at known ⊢
      split
      · exact .gone h.known (Assoc.get?_erase_self ..)
      · exact h
  · refine ⟨known, fun w bound => h.stage w ?_⟩
    rwa [b.get?_act_of_ne now h.known own] at bound

theorem run (stays : ∀ stage now q, P stage → P (stage.step now q).2.1) (h : DrainsAt P id b)
    (actions : List (Nat × Action)) : DrainsAt P id (b.run actions) := by
  induction actions generalizing b with
  | nil => exact h
  | cons first rest ih => exact ih (h.act stays first.1 first.2)

end DrainsAt

/-- A fresh drain that finds the flag up has ended after its first step. -/
theorem resume_newDrain_of_draining (now : Nat) (fresh : b.workers.get? id = some .newDrain)
    (up : b.queue.draining = true) :
    b.resume now id = b.put id (b.queue, .drain (.done { skipped := true }), []) := by
  obtain ⟨fuel, patience⟩ : ∃ fuel, Worker.patience b.queue .newDrain = fuel + 1 + 1 := ⟨_, rfl⟩
  have skips : Worker.newDrain.step now b.queue =
      (b.queue, .drain (.done { skipped := true }), []) := by
    simp [Worker.newDrain, Worker.step, DrainStage.step, up]
  have resumed : b.resume now id = b.put id (Worker.newDrain.run now b.queue (fuel + 1 + 1)) := by
    rw [resume, fresh, ← patience]
    rfl
  rw [resumed, put_run_succ b id now rfl, skips]
  exact put_put b id _ _

/-- A fresh drain that finds the flag down takes a batch and goes on from there: what holds after
it has taken the batch, and after every step that follows, holds at its first wait. -/
theorem drainsAt_resume {P : DrainStage → Prop}
    (stays : ∀ stage now q, P stage → P (stage.step now q).2.1) (now : Nat)
    (known : id < b.nextWorker) (fresh : b.workers.get? id = some .newDrain)
    (down : b.queue.draining = false)
    (taken : P (DrainStage.taking.step now { b.queue with draining := true }).2.1) :
    DrainsAt P id (b.resume now id) := by
  obtain ⟨fuel, patience⟩ : ∃ fuel, Worker.patience b.queue .newDrain = fuel + 1 + 1 := ⟨_, rfl⟩
  have resumed : b.resume now id = b.put id (Worker.newDrain.run now b.queue (fuel + 1 + 1)) := by
    rw [resume, fresh, ← patience]
    rfl
  let claimed := b.put id ({ b.queue with draining := true }, .drain .taking, [])
  have claims : Worker.newDrain.step now b.queue =
      ({ b.queue with draining := true }, .drain .taking, []) := by
    simp [Worker.newDrain, Worker.step, DrainStage.step, down]
  have takes := put_run_succ claimed id now (w := .drain .taking) rfl fuel
  rw [resumed, put_run_succ b id now rfl, claims]
  refine takes ▸ run_induction (fun _ h => h.step stays now) _ (Assoc.get?_insert_self ..) ?_
  exact .put (b := claimed) known taken _ _

/-- Whether worker `id` is a drain of its own that accounts for `n` items, or gone. -/
structure OwnDrain (id n : Nat) (b : Backlog) : Prop where
  known : id < b.nextWorker
  accounts : ∀ w, b.workers.get? id = some w → ∃ stage, w = .drain stage ∧ stage.Accounts n

theorem ownDrain_iff : OwnDrain id n b ↔ DrainsAt (DrainStage.Accounts n) id b :=
  ⟨fun h => ⟨h.known, h.accounts⟩, fun h => ⟨h.known, h.stage⟩⟩

theorem OwnDrain.run (h : OwnDrain id n b) (actions : List (Nat × Action)) :
    OwnDrain id n (b.run actions) :=
  ownDrain_iff.mpr ((ownDrain_iff.mp h).run (fun _ now q h => h.step now q) actions)

/-- The steps of a fresh drain up to its first wait make it account for a batch. -/
theorem ownDrain_resume (now : Nat) (known : id < b.nextWorker)
    (fresh : b.workers.get? id = some .newDrain) :
    OwnDrain id (min b.queue.batchSize b.queue.items.length) (b.resume now id) := by
  refine ownDrain_iff.mpr ?_
  cases up : b.queue.draining with
  | true =>
    rw [resume_newDrain_of_draining now fresh up]
    exact .put known (fun ran => absurd ran (by simp)) _ _
  | false =>
    exact drainsAt_resume (fun _ now q h => h.step now q) now known fresh up
      (DrainStage.accounts_take now { b.queue with draining := true })

/-- Whether worker `id` goes on with the drain it is at: it takes single steps only, and after
each of these actions it still has the flag up. -/
def KeepsFlag (id : Nat) (b : Backlog) : List (Nat × Action) → Prop
  | [] => True
  | (now, a) :: rest =>
    a ≠ .resume id ∧ ((b.act now a).workers.get? id).any Worker.holdsFlag = true ∧
      (b.act now a).KeepsFlag id rest

/-- Whether worker `id` is at a drain, its own or one of a flush, that accounts for `n` items. -/
structure AtDrain (id n : Nat) (b : Backlog) : Prop where
  known : id < b.nextWorker
  accounts : ∃ w stage, b.workers.get? id = some w ∧ w.drainStage? = some stage ∧ stage.Accounts n

theorem AtDrain.act (h : AtDrain id n b) {now : Nat} {a : Action} (single : a ≠ .resume id)
    (keeps : ((b.act now a).workers.get? id).any Worker.holdsFlag = true) :
    AtDrain id n (b.act now a) := by
  obtain ⟨known, w, stage, bound, drains, accounts⟩ := h
  have known' := Nat.lt_of_lt_of_le known (nextWorker_le_act b now a)
  by_cases own : a.worker? = some id
  · cases a with
    | push key value persist => cases own
    | startDrain => cases own
    | startFlush => cases own
    | resume id => cases own; exact absurd rfl single
    | step id =>
      cases own
      have bound' : (b.act now (.step id)).workers.get? id = some (w.step now b.queue).2.1 := by
        rw [Backlog.act, step_of_get? bound, get?_put, if_pos rfl]
      rw [bound', Option.any_some, Worker.holdsFlag_step now b.queue drains] at keeps
      exact ⟨known', _, _, bound', Worker.drainStage_step now b.queue drains keeps,
        accounts.step now b.queue⟩
    | cancel id =>
      cases own
      have gone : (b.act now (.cancel id)).workers.get? id = none := by
        rw [Backlog.act, Backlog.cancel, bound]
        exact Assoc.get?_erase_self ..
      rw [gone] at keeps
      simp at keeps
    | collect id =>
      cases own
      rw [Backlog.act, Backlog.collect] at keeps ⊢
      split at keeps
      · rw [Assoc.get?_erase_self] at keeps
        simp at keeps
      · rename_i running
        rw [if_neg running]
        exact ⟨known, w, stage, bound, drains, accounts⟩
  · exact ⟨known', w, stage, (b.get?_act_of_ne now known own).trans bound, drains, accounts⟩

theorem AtDrain.run (h : AtDrain id n b) {actions : List (Nat × Action)}
    (keeps : b.KeepsFlag id actions) : AtDrain id n (b.run actions) := by
  induction actions generalizing b with
  | nil => exact h
  | cons first rest ih => exact ih (h.act keeps.1 keeps.2.1) keeps.2.2

/-- A drain that takes its batch in one step accounts for it. -/
theorem atDrain_take {w : Worker} (now : Nat) (known : id < b.nextWorker)
    (bound : b.workers.get? id = some w) (takes : w.drainStage? = some .taking) :
    AtDrain id (min b.queue.batchSize b.queue.items.length) (b.step now id) := by
  have keeps : (DrainStage.taking.step now b.queue).2.1.holdsFlag = true := by
    rw [DrainStage.step]
    split <;> rfl
  refine ⟨Nat.lt_of_lt_of_le known (nextWorker_le_act b now (.step id)), _, _, ?_,
    Worker.drainStage_step now b.queue takes keeps, DrainStage.accounts_take now b.queue⟩
  rw [step_of_get? bound, get?_put, if_pos rfl]

end Backlog
end CacheDepot.WriteBehind
