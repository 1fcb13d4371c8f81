import CacheDepot.Proofs.WriteBehind.Accounting

/-!
# One drain at a time

A drain raises the flag when it finds it down and lowers it when it ends or is given up. So the flag
is up exactly while one drain is between the two; a drain that is called meanwhile is skipped and
does nothing, and any other is not.
-/

namespace CacheDepot.WriteBehind

namespace DrainStage

/-- Whether a drain has found the flag down; whatever it reports, it was not skipped. -/
def Ran : DrainStage → Prop
  | .claiming => False
  | .taking | .attempting _ _ | .settling _ => True
  | .releasing report | .done report => report.skipped = false

theorem Ran.step {stage : DrainStage} (h : stage.Ran) (now : Nat) (q : Queue) :
    (stage.step now q).2.1.Ran := by
  cases stage with
  | claiming => exact h.elim
  | taking =>
    rw [DrainStage.step]
    split
    · rfl
    · trivial
  | attempting batch due => trivial
  | settling batch => rfl
  | releasing report => exact h
  | done report => exact h

/-- A drain has the flag up from the step after which it has begun until it has ended. -/
theorem holdsFlag_iff (stage : DrainStage) :
    stage.holdsFlag = true ↔ stage ≠ .claiming ∧ (Worker.drain stage).report? = none := by
  cases stage <;> simp [holdsFlag, Worker.report?]

end DrainStage

namespace Backlog

variable {b : Backlog} {id : Nat} {w : Worker}

/-- Whether a drain is running: it has raised the flag, and it has not ended nor been given up. -/
def IsDrained (b : Backlog) : Prop :=
  ∃ id w, b.workers.get? id = some w ∧ w.holdsFlag = true

theorem Guarded.isDrained_iff (h : b.Guarded) : b.IsDrained ↔ b.queue.draining = true := by
  constructor
  · rintro ⟨id, w, bound, up⟩
    cases down : b.queue.draining with
    | true => rfl
    | false => exact absurd (h.not_holdsFlag down bound) (by simp [up])
  · intro up
    have one := h.flags
    rw [up, Bool.toNat_true, flagsUp] at one
    obtain ⟨⟨id, w⟩, member, holds⟩ :=
      List.countP_pos_iff.mp (Nat.lt_of_lt_of_eq Nat.zero_lt_one one.symm)
    exact ⟨id, w, Assoc.get?_eq_some_iff.mpr member, holds⟩

theorem Guarded.draining_iff (h : b.Guarded) :
    b.queue.draining = true ↔ ∃! id, ∃ w, b.workers.get? id = some w ∧ w.holdsFlag = true := by
  rw [← h.isDrained_iff]
  constructor
  · rintro ⟨id, w, bound, up⟩
    refine ⟨id, ⟨w, bound, up⟩, ?_⟩
    rintro other ⟨v, bound', up'⟩
    exact h.eq_of_holdsFlag bound up bound' up'
  · rintro ⟨id, ⟨w, bound, up⟩, -⟩
    exact ⟨id, w, bound, up⟩

/-- A drain is skipped where it is about to begin exactly if another one is running, and nothing
happens to the queue then. -/
theorem Guarded.skips_iff (h : b.Guarded) (bound : b.workers.get? id = some w)
    (claims : w.drainStage? = some .claiming) (now : Nat) :
    ((DrainStage.claiming.step now b.queue).2.1 = .done { skipped := true } ↔ b.IsDrained) ∧
      (b.IsDrained → (b.step now id).queue = b.queue) ∧
      (¬ b.IsDrained → ((b.step now id).workers.get? id).any Worker.holdsFlag = true) := by
  rw [step_of_get? bound, h.isDrained_iff, get?_put, if_pos rfl, Option.any_some,
    Worker.holdsFlag_step now b.queue claims]
  refine ⟨?_, ?_, ?_⟩
  · rw [DrainStage.step]
    split
    · rename_i up
      exact iff_of_true rfl up
    · rename_i down
      refine iff_of_false (fun ended => ?_) down
      cases ended
  · intro up
    rw [Backlog.put, (w.step_eq now b.queue claims).1, DrainStage.step, if_pos up]
  · intro down
    rw [DrainStage.step, if_neg down]
    rfl

/-- A drain of its own that finds no other running never reports that it was skipped. -/
theorem Guarded.not_skipped (h : b.Guarded) (fresh : b.workers.get? id = some .newDrain)
    (free : ¬ b.IsDrained) (now : Nat) (later : List (Nat × Action)) {report : Report}
    (ended : ((b.resume now id).run later).report? id = some report) :
    report.skipped = false := by
  have down : b.queue.draining = false := by
    rw [h.isDrained_iff] at free
    exact Bool.eq_false_iff.mpr free
  have ran : ∀ stage now q, DrainStage.Ran stage → (stage.step now q).2.1.Ran :=
    fun _ now q h => h.step now q
  have taking : DrainStage.Ran .taking := trivial
  have at' := (drainsAt_resume ran now (h.known id _ fresh) fresh down (taking.step now _)).run
    ran later
  obtain ⟨w, found, ended⟩ := exists_of_report ended
  obtain ⟨stage, rfl, ran⟩ := at'.stage w found
  cases stage with
  | done report =>
    cases ended
    exact ran
  | _ => cases ended

/-- Whatever is pushed, drained, flushed and cancelled, and in whatever order the steps come: at
most one worker holds a batch; the flag is up exactly while there is one drain, a single one, that
has begun and has neither ended nor been given up. A drain that is about to begin, its own or one
of a flush, is skipped exactly if one is running; then the queue with its flag stays as it is, and
otherwise the drain is the one that is running. A drain call that meets a running drain reports so
at once, and one that meets none never does. -/
theorem run_new_excludes (batchSize maxRetries : Nat) (actions : List (Nat × Action)) :
    let b := (Backlog.new batchSize maxRetries).run actions
    (∀ id w id' w', b.workers.get? id = some w → b.workers.get? id' = some w' →
      w.inFlight ≠ [] → w'.inFlight ≠ [] → id' = id) ∧
    (b.queue.draining = true ↔ ∃! id, ∃ w, b.workers.get? id = some w ∧ w.holdsFlag = true) ∧
    (∀ id stage, b.workers.get? id = some (.drain stage) →
      (stage.holdsFlag = true ↔ stage ≠ .claiming ∧ b.report? id = none)) ∧
    (∀ now id w, b.workers.get? id = some w → w.drainStage? = some .claiming →
      ((DrainStage.claiming.step now b.queue).2.1 = .done { skipped := true } ↔ b.IsDrained) ∧
      (b.IsDrained → (b.step now id).queue = b.queue) ∧
      (¬ b.IsDrained → ((b.step now id).workers.get? id).any Worker.holdsFlag = true)) ∧
    (∀ now id, b.workers.get? id = some .newDrain →
      (b.IsDrained →
        (b.resume now id).report? id = some { skipped := true } ∧
          (b.resume now id).queue = b.queue) ∧
      (¬ b.IsDrained → ∀ later report,
        ((b.resume now id).run later).report? id = some report → report.skipped = false)) := by
  intro b
  have guarded : b.Guarded := ((guarded_new batchSize maxRetries).run actions).1
  have up : ∀ {w : Worker}, w.inFlight ≠ [] → w.holdsFlag = true := by
    intro w busy
    cases flag : w.holdsFlag with
    | true => rfl
    | false => exact absurd (Worker.inFlight_of_not_holdsFlag flag) busy
  refine ⟨?_, guarded.draining_iff, ?_, ?_, ?_⟩
  · intro id w id' w' bound bound' busy busy'
    exact guarded.eq_of_holdsFlag bound (up busy) bound' (up busy')
  · intro id stage bound
    rw [report?, bound, Option.bind_some]
    exact stage.holdsFlag_iff
  · intro now id w bound claims
    exact guarded.skips_iff bound claims now
  · intro now id fresh
    refine ⟨?_, fun free later report => guarded.not_skipped fresh free now later⟩
    intro drained
    rw [resume_newDrain_of_draining now fresh (guarded.isDrained_iff.mp drained), report?, get?_put,
      if_pos rfl]
    exact ⟨rfl, rfl⟩

/-- A drain that is waiting for its batch when another one is called. -/
def busyRun : List (Nat × Action) :=
  [(0, .push ⟨"a"⟩ .null ⟨"first", [{ delay := 9 }]⟩), (1, .startDrain), (1, .resume 0),
    (2, .startDrain)]

/-- The same, where the first drain is then given up and a third one is called. -/
def interruptedRun : List (Nat × Action) :=
  busyRun ++ [(2, .resume 1), (3, .cancel 0), (4, .startDrain)]

theorem interruptedRun_excludes :
    (((Backlog.new 5 1).run busyRun).resume 2 1).report? 1 = some { skipped := true } ∧
    (((Backlog.new 5 1).run interruptedRun).resume 4 2).report? 2 = some {} ∧
    ({} : Report).skipped = false := by
  obtain ⟨-, -, -, -, meets⟩ := run_new_excludes 5 1 busyRun
  obtain ⟨-, -, -, -, follows⟩ := run_new_excludes 5 1 interruptedRun
  have guarded := ((guarded_new 5 1).run interruptedRun).1
  have drained : ((Backlog.new 5 1).run busyRun).IsDrained := ⟨0, _, rfl, rfl⟩
  have free : ¬ ((Backlog.new 5 1).run interruptedRun).IsDrained := by
    rw [guarded.isDrained_iff]
    decide
  have ended : (((Backlog.new 5 1).run interruptedRun).resume 4 2).report? 2 = some {} := by decide
  exact ⟨((meets 2 1 rfl).1 drained).1, ended, (follows 4 2 rfl).2 free [] _ ended⟩

end Backlog
end CacheDepot.WriteBehind
