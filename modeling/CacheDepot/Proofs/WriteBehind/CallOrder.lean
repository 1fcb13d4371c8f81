import CacheDepot.Proofs.WriteBehind.Accounting

/-!
# The order of first calls

Items are tried for the first time in the order in which they were pushed, whoever takes them and
whatever becomes of the drains. What a drain puts back stands behind all that waits at that moment,
in the order of its batch, and nothing that waits is overtaken afterwards.
-/

namespace CacheDepot.WriteBehind

/-- Whether no attempt of the item has failed yet. -/
def Item.isNew (item : Item) : Bool := item.retries == 0

namespace Queue

variable (q : Queue)

/-- Whether the next attempt of an item puts it back into the queue. -/
def putsBack (item : Item) : Bool :=
  item.nextAttempt.failure.isSome && decide (item.retries < q.maxRetries)

/-- What goes back into the queue of a batch whose attempts are over. -/
def back (batch : List Item) : List Item := (batch.filter q.putsBack).map .retried

/-- One item of a batch alone. -/
theorem retries_cons_judge (item : Item) (fates : List Fate) :
    retries (q.judge item :: fates) =
      if q.putsBack item then item.retried :: retries fates else retries fates := by
  unfold judge putsBack
  cases item.nextAttempt.failure with
  | none => rfl
  | some cause =>
    by_cases more : item.retries < q.maxRetries
    · simp [more, retries]
    · simp [more, retries]

theorem retries_map_judge (batch : List Item) : retries (batch.map q.judge) = q.back batch := by
  induction batch with
  | nil => rfl
  | cons item rest ih =>
    rw [List.map_cons, retries_cons_judge, ih, back, back, List.filter_cons]
    cases q.putsBack item <;> rfl

end Queue

/-! ## First attempts -/

namespace Course

variable {q : Queue} {c c' : Course}

/-- The calls that were the first for their item: no earlier call was for the same ticket. -/
def firstCalls (c : Course) : List Item :=
  c.calls.eraseDupsBy fun call earlier => call.ticket == earlier.ticket

/-- The new items that were tried, in the order of the calls, and those that wait to be, in the
order of the queue. -/
def newcomers (c : Course) : List Item := (c.calls ++ c.queued).filter Item.isNew

theorem calls_append (queued inFlight : List Item) (history more : List Fate) :
    calls ⟨queued, inFlight, history ++ more⟩ =
      calls ⟨queued, inFlight, history⟩ ++ calls ⟨queued, inFlight, more⟩ :=
  List.filterMap_append ..

theorem calls_map_attempted (queued inFlight batch : List Item) :
    calls ⟨queued, inFlight, batch.map .attempted⟩ = batch := by
  rw [calls, List.filterMap_map]
  exact List.filterMap_some

theorem calls_map_lost (queued inFlight batch : List Item) :
    calls ⟨queued, inFlight, batch.map .lost⟩ = [] := by
  refine List.filterMap_eq_nil_iff.mpr ?_
  intro fate member
  obtain ⟨item, -, rfl⟩ := List.mem_map.mp member
  rfl

/-- An attempt that is over is not a call. -/
theorem calls_map_judge (queued inFlight batch : List Item) (q : Queue) :
    calls ⟨queued, inFlight, batch.map q.judge⟩ = [] := by
  refine List.filterMap_eq_nil_iff.mpr ?_
  intro fate member
  obtain ⟨item, -, rfl⟩ := List.mem_map.mp member
  rcases q.judge_cases item with judged | judged | judged <;> rw [judged]

theorem calls_only (c : Course) (chosen : Nat → Bool) :
    (c.only chosen).calls = c.calls.filter fun call => chosen call.ticket := by
  rw [calls, calls, List.filter_filterMap, only, List.filterMap_filter]
  congr 1
  funext fate
  cases fate with
  | attempted item => cases pick : chosen item.ticket <;> simp [Fate.item, Option.filter, pick]
  | _ => exact ite_self none

/-- Nothing that happens to the items moves a newcomer before another: a batch is taken from the
front, and what is put back is not new. -/
theorem Shift.newcomers (shift : c.Shift q c') : c'.newcomers = c.newcomers := by
  cases shift with
  | stay => rfl
  | take idle split =>
    rename_i front rest
    rw [Course.newcomers, Course.newcomers, calls_append, calls_map_attempted, split,
      List.append_assoc]
    rfl
  | settle =>
    have old : (q.back c.inFlight).filter Item.isNew = [] := by
      refine List.filter_eq_nil_iff.mpr ?_
      intro item member
      obtain ⟨before, -, rfl⟩ := List.mem_map.mp member
      simp [Item.isNew, Item.retried]
    rw [Course.newcomers, Course.newcomers, calls_append, calls_map_judge, q.retries_map_judge,
      List.append_nil, ← List.append_assoc, List.filter_append, old, List.append_nil]
    rfl
  | lose =>
    rw [Course.newcomers, Course.newcomers, calls_append, calls_map_lost, List.append_nil]
    rfl

theorem Shifts.newcomers (shifts : c.Shifts q c') : c'.newcomers = c.newcomers := by
  induction shifts with
  | refl => rfl
  | tail _ shift ih => exact shift.newcomers.trans ih

/-- Where the calls for each ticket are counted by the retries of their items, the first calls are
those for new items. -/
theorem eraseDupsBy_ticket (calls : List Item)
    (counted : ∀ ticket, ∃ n,
      (calls.filter fun call => call.ticket == ticket).map Item.retries = List.range n) :
    (calls.eraseDupsBy fun call earlier => call.ticket == earlier.ticket) =
      calls.filter Item.isNew := by
  match calls with
  | [] => rfl
  | call :: rest =>
    let others := rest.filter fun other => decide ((other.ticket == call.ticket) = false)
    obtain ⟨n, own⟩ := counted call.ticket
    rw [List.filter_cons, if_pos (beq_self_eq_true _), List.map_cons] at own
    obtain ⟨k, rfl⟩ : ∃ k, n = k + 1 := Nat.exists_eq_succ_of_ne_zero (by rintro rfl; cases own)
    rw [List.range_succ_eq_map] at own
    obtain ⟨new, again⟩ := List.cons.inj own
    have repeated : ∀ other ∈ rest, other.ticket = call.ticket → other.isNew = false := by
      intro other member same
      have there : other.retries ∈ (List.range k).map Nat.succ :=
        again ▸ List.mem_map_of_mem (List.mem_filter.mpr ⟨member, beq_iff_eq.mpr same⟩)
      obtain ⟨m, -, retried⟩ := List.mem_map.mp there
      rw [Item.isNew, ← retried]
      rfl
    have counted' : ∀ ticket, ∃ n,
        (others.filter fun other => other.ticket == ticket).map Item.retries = List.range n := by
      intro ticket
      rw [List.filter_filter]
      by_cases same : ticket = call.ticket
      · exact ⟨0, by simp [same]⟩
      · obtain ⟨n, counted⟩ := counted ticket
        rw [List.filter_cons, if_neg (by simpa using Ne.symm same)] at counted
        refine ⟨n, counted ▸ congrArg (List.map _) (List.filter_congr fun other _ => ?_)⟩
        by_cases own : other.ticket = ticket
        · simp [own, same]
        · simp [own]
    rw [List.eraseDupsBy_cons, eraseDupsBy_ticket others counted', List.filter_filter,
      List.filter_cons_of_pos (by rw [Item.isNew, new]; rfl)]
    congr 1
    refine List.filter_congr fun other member => ?_
    by_cases same : other.ticket = call.ticket
    · simp [same, repeated other member same]
    · simp [same]
termination_by calls.length
decreasing_by exact Nat.lt_succ_of_le (List.length_filter_le ..)

end Course

namespace Ledger

variable {items : List Item} {b : Backlog}

/-- In the order of the calls, the first calls are those for new items. -/
theorem firstCalls (h : Ledger items b) :
    b.course.firstCalls = b.course.calls.filter Item.isNew := by
  refine Course.eraseDupsBy_ticket _ fun ticket => ?_
  rw [← Course.calls_only b.course fun t => t == ticket]
  rcases Nat.lt_or_ge ticket items.length with known | unused
  · obtain ⟨same, -⟩ := h.fresh ticket items[ticket] (List.getElem?_eq_getElem known)
    obtain ⟨place, failures, accounts⟩ := h.accounted (List.getElem_mem known)
    have calls := accounts.calls
    rw [Backlog.callsOf, same] at calls
    exact ⟨place.calls failures, by simp [calls, Item.after, Function.comp_def]⟩
  · exact ⟨0, by rw [h.unknown ticket unused]; rfl⟩

end Ledger

theorem Backlog.newcomers_push (b : Backlog) (now : Nat) (key : CacheKey) (value : Json)
    (persist : Persist) :
    (b.push now key value persist).course.newcomers =
      b.course.newcomers ++ [b.queue.newItem now key value persist] := by
  have new : (b.queue.newItem now key value persist).isNew = true := rfl
  rw [Course.newcomers, Course.newcomers, List.filter_append, List.filter_append, List.append_assoc]
  show _ ++ (b.queue.items ++ [_]).filter Item.isNew = _
  rw [List.filter_append, List.filter_cons_of_pos new]
  rfl

/-- The newcomers of a run are the items that were pushed, in the order of the pushes. -/
theorem Ledger.newcomers_run {items : List Item} {b : Backlog} (h : Ledger items b)
    (line : b.course.newcomers = items) (actions : List (Nat × Backlog.Action)) :
    (b.run actions).course.newcomers = items ++ issued items.length actions := by
  let Line (items : List Item) (b : Backlog) := Ledger items b ∧ b.course.newcomers = items
  refine (Backlog.issued_induction (P := Line) ?_ ⟨h, line⟩ actions).2
  rintro items b now a ⟨h, line⟩
  refine ⟨h.act now a, ?_⟩
  cases a with
  | push key value persist =>
    rw [issued, issued, ← h.pushed, Backlog.act, Backlog.newcomers_push, line]
    rfl
  | _ =>
    rw [issued, issued, List.append_nil]
    · exact (h.guarded.act now (by simp)).course.newcomers.trans line
    · simp

/-! ## The order of the queue -/

namespace Course

/-- Whether all that waited has been called since or still waits, in its order and ahead of
everything that came later. -/
def InTurn (c c' : Course) : Prop :=
  ∃ called, c'.calls = c.calls ++ called ∧ c.queued <+: called ++ c'.queued

namespace InTurn

variable {c c' c'' : Course}

theorem of_calls_eq (same : c'.calls = c.calls) (kept : c.queued <+: c'.queued) : c.InTurn c' :=
  ⟨[], by rw [same, List.append_nil], kept⟩

theorem refl (c : Course) : c.InTurn c := .of_calls_eq rfl (List.prefix_refl _)

theorem trans (h : c.InTurn c') (h' : c'.InTurn c'') : c.InTurn c'' := by
  obtain ⟨called, calls, inTurn⟩ := h
  obtain ⟨called', calls', inTurn'⟩ := h'
  refine ⟨called ++ called', by rw [calls', calls, List.append_assoc], ?_⟩
  rw [List.append_assoc]
  exact inTurn.trans ((List.prefix_append_right_inj called).mpr inTurn')

end InTurn

variable {q : Queue} {c c' : Course}

theorem Shift.inTurn (shift : c.Shift q c') : c.InTurn c' := by
  cases shift with
  | stay => exact .refl c
  | take idle split =>
    rename_i front rest
    refine ⟨front, ?_, split ▸ List.prefix_refl _⟩
    rw [calls_append, calls_map_attempted]
    rfl
  | settle =>
    refine .of_calls_eq ?_ (List.prefix_append ..)
    rw [calls_append, calls_map_judge, List.append_nil]
    rfl
  | lose =>
    refine .of_calls_eq ?_ (List.prefix_refl _)
    rw [calls_append, calls_map_lost, List.append_nil]
    rfl

theorem Shifts.inTurn (shifts : c.Shifts q c') : c.InTurn c' := by
  induction shifts with
  | refl => exact .refl c
  | tail _ shift ih => exact ih.trans shift.inTurn

end Course

theorem Worker.isReady_of_drainStage {w : Worker} {stage : DrainStage}
    (drains : w.drainStage? = some stage) (running : ∀ report, stage ≠ .done report) (now : Nat) :
    w.isReady now = stage.wait?.all (· ≤ now) := by
  cases w with
  | drain own =>
    cases drains
    cases stage with
    | done report => exact absurd rfl (running report)
    | _ => rfl
  | flush own =>
    cases own with
    | draining total own => cases drains; rfl
    | _ => cases drains

namespace Backlog

variable {b : Backlog} {id : Nat} {w : Worker} {batch : List Item}

/-- Whatever happens, nothing that waits is overtaken. -/
theorem Guarded.inTurn_run (h : b.Guarded) (actions : List (Nat × Action)) :
    b.course.InTurn (b.run actions).course := by
  induction actions generalizing b with
  | nil => exact .refl _
  | cons first rest ih =>
    obtain ⟨now, a⟩ := first
    have quiet : (∀ key value persist, a ≠ .push key value persist) →
        b.course.InTurn ((b.act now a).run rest).course := by
      intro quiet
      have on := h.act now quiet
      exact on.course.inTurn.trans (ih on.guarded)
    cases a with
    | push key value persist =>
      have pushed : b.course.InTurn (b.push now key value persist).course :=
        .of_calls_eq rfl (List.prefix_append ..)
      exact pushed.trans (ih (h.push now key value persist))
    | _ => exact quiet (by simp)

/-- Only a drain that takes a batch makes calls. -/
theorem calls_step {stage : DrainStage} (bound : b.workers.get? id = some w)
    (drains : w.drainStage? = some stage) (other : stage ≠ .taking) (now : Nat) :
    (b.step now id).course.calls = b.course.calls := by
  have none : ∀ queued inFlight,
      Course.calls ⟨queued, inFlight, (stage.step now b.queue).2.2⟩ = [] := by
    intro queued inFlight
    cases stage with
    | claiming => rw [DrainStage.step]; split <;> rfl
    | taking => exact absurd rfl other
    | settling batch => exact Course.calls_map_judge ..
    | _ => rfl
  rw [step_of_get? bound, put, course, List.reverse_append, List.reverse_reverse,
    Course.calls_append, (w.step_eq now b.queue drains).2, none]
  exact List.append_nil _

/-- A drain that settles a batch puts what failed behind all that waits. -/
theorem items_step_of_settling (bound : b.workers.get? id = some w)
    (settles : w.drainStage? = some (.settling batch)) (now : Nat) :
    (b.step now id).queue.items = b.queue.items ++ b.queue.back batch := by
  rw [step_of_get? bound, put, (w.step_eq now b.queue settles).1, ← b.queue.retries_map_judge]
  rfl

theorem step_of_attempting {due : Nat} (bound : b.workers.get? id = some w)
    (attempts : w.drainStage? = some (.attempting batch due)) (now : Nat) :
    (b.step now id).queue = b.queue ∧ ∃ w', (b.step now id).workers.get? id = some w' ∧
      w'.drainStage? = some (.settling batch) := by
  rw [step_of_get? bound]
  refine ⟨(w.step_eq now b.queue attempts).1, _, Assoc.get?_insert_self .., ?_⟩
  exact w.drainStage_step now b.queue attempts rfl

/-- A worker whose attempts are over puts what failed behind all that waits when it is resumed,
before it does anything else. -/
theorem Guarded.inTurn_resume (h : b.Guarded) {now due : Nat} (bound : b.workers.get? id = some w)
    (attempts : w.drainStage? = some (.attempting batch due)) (passed : due ≤ now) :
    ∃ called, (b.resume now id).course.calls = b.course.calls ++ called ∧
      b.queue.items ++ b.queue.back batch <+: called ++ (b.resume now id).queue.items := by
  obtain ⟨same, w', bound', settles⟩ := step_of_attempting bound attempts now
  have ready : b.isReady now id = true := by
    rw [isReady, bound, Option.any_some]
    refine (Worker.isReady_of_drainStage attempts ?_ now).trans (decide_eq_true passed)
    intro report ended
    cases ended
  have ready' : (b.step now id).isReady now id = true := by
    rw [isReady, bound', Option.any_some]
    refine (Worker.isReady_of_drainStage settles ?_ now).trans rfl
    intro report ended
    cases ended
  have quiet : ((b.step now id).step now id).course.calls = b.course.calls := by
    refine (calls_step bound' settles ?_ now).trans (calls_step bound attempts ?_ now)
    · intro taken
      cases taken
    · intro taken
      cases taken
  have put := items_step_of_settling bound' settles now
  obtain ⟨steps, resumed⟩ := b.exists_advance now id
  rw [resumed, advance_succ ready, advance_succ ready', ← same, ← put, ← quiet]
  exact ((((h.step now id).guarded.step now id).guarded.advance now id _).course).inTurn

/-- A drain of its own whose attempts are over ends when it is resumed. -/
theorem resume_of_attempting {now due : Nat}
    (bound : b.workers.get? id = some (.drain (.attempting batch due))) (passed : due ≤ now) :
    (b.resume now id).queue.items = b.queue.items ++ b.queue.back batch ∧
      (b.resume now id).report? id = some (Queue.tally (batch.map b.queue.judge)) := by
  let requeued := b.queue.requeue (Queue.retries (batch.map b.queue.judge))
  let report := Queue.tally (batch.map b.queue.judge)
  let waited := b.put id (b.queue, .drain (.settling batch), [])
  let settled := waited.put id
    (requeued, .drain (.releasing report), (Queue.byEnd batch).map b.queue.judge)
  let released := settled.put id ({ requeued with draining := false }, .drain (.done report), [])
  have bound₁ : waited.workers.get? id = some (.drain (.settling batch)) :=
    Assoc.get?_insert_self ..
  have bound₂ : settled.workers.get? id = some (.drain (.releasing report)) :=
    Assoc.get?_insert_self ..
  have bound₃ : released.workers.get? id = some (.drain (.done report)) :=
    Assoc.get?_insert_self ..
  have step₁ : b.step now id = waited := step_of_get? bound now
  have step₂ : waited.step now id = settled := step_of_get? bound₁ now
  have step₃ : settled.step now id = released := step_of_get? bound₂ now
  have ready : b.isReady now id = true := by
    rw [isReady, bound]
    exact (Bool.true_and _).trans (decide_eq_true passed)
  have ready₁ : waited.isReady now id = true := by rw [isReady, bound₁]; rfl
  have ready₂ : settled.isReady now id = true := by rw [isReady, bound₂]; rfl
  have ended : released.isReady now id = false := by rw [isReady, bound₃]; rfl
  obtain ⟨steps, resumed⟩ := b.exists_advance now id
  rw [resumed, advance_succ ready, step₁, advance_succ ready₁, step₂, advance_succ ready₂, step₃,
    advance_of_not_ready ended, ← b.queue.retries_map_judge]
  exact ⟨rfl, by rw [report?, bound₃]; rfl⟩

/-- Whatever is pushed, drained, flushed and given up, and in whatever order the steps come: the
calls that are the first for their items are for the items that were pushed first, in the order
in which they were pushed. What waits is called before everything that comes later, in the
order of the queue. A drain puts what failed behind all that waits when it settles its batch, in
the order of the batch; so does a worker that is resumed when its attempts are over, before it
calls or ends, and a drain of its own has then ended. -/
theorem run_new_keepsOrder (batchSize maxRetries : Nat) (actions : List (Nat × Action)) :
    let b := (Backlog.new batchSize maxRetries).run actions
    b.course.firstCalls <+: issued 0 actions ∧
    (∀ later, b.course.InTurn (b.run later).course) ∧
    (∀ now id w batch, b.workers.get? id = some w → w.drainStage? = some (.settling batch) →
      (b.step now id).queue.items = b.queue.items ++ b.queue.back batch ∧
        (b.step now id).course.calls = b.course.calls) ∧
    (∀ now id w batch due, b.workers.get? id = some w →
      w.drainStage? = some (.attempting batch due) → due ≤ now →
      ∃ called, (b.resume now id).course.calls = b.course.calls ++ called ∧
        b.queue.items ++ b.queue.back batch <+: called ++ (b.resume now id).queue.items) ∧
    (∀ now id batch due, b.workers.get? id = some (.drain (.attempting batch due)) → due ≤ now →
      (b.resume now id).queue.items = b.queue.items ++ b.queue.back batch ∧
        (b.resume now id).report? id = some (Queue.tally (batch.map b.queue.judge))) := by
  intro b
  have ledger : Ledger (issued 0 actions) b := (Ledger.new batchSize maxRetries).run actions
  have line : b.course.newcomers = issued 0 actions :=
    (Ledger.new batchSize maxRetries).newcomers_run rfl actions
  refine ⟨?_, ledger.guarded.inTurn_run, ?_, ?_, ?_⟩
  · rw [ledger.firstCalls, ← line, Course.newcomers, List.filter_append]
    exact List.prefix_append ..
  · intro now id w batch bound settles
    exact ⟨items_step_of_settling bound settles now, calls_step bound settles nofun now⟩
  · intro now id w batch due bound attempts passed
    exact ledger.guarded.inTurn_resume bound attempts passed
  · intro now id batch due bound passed
    exact resume_of_attempting bound passed

/-- A drain takes two items of which the first fails, and a third is pushed while it waits. -/
def pushedMeanwhile : List (Nat × Action) :=
  [(0, .push ⟨"a"⟩ .null ⟨"first", [{ failure := some { message := "down" } }, {}]⟩),
    (0, .push ⟨"b"⟩ .null ⟨"second", [{ delay := 3 }]⟩),
    (1, .startDrain), (1, .resume 0), (2, .push ⟨"c"⟩ .null ⟨"third", []⟩)]

/-- The first item stands behind the third when the drain has ended, and when it has settled its
batch after single steps. -/
theorem pushedMeanwhile_keepsOrder :
    ((Backlog.new 2 1).run pushedMeanwhile).course.firstCalls.map Item.ticket = [0, 1] ∧
    ((Backlog.new 2 1).run pushedMeanwhile).course.firstCalls <+: issued 0 pushedMeanwhile ∧
    (((Backlog.new 2 1).run pushedMeanwhile).resume 4 0).report? 0 = some ⟨1, 1, 0, false⟩ ∧
    (((Backlog.new 2 1).run pushedMeanwhile).resume 4 0).queue.items.map
      (fun item => (item.ticket, item.retries)) = [(2, 0), (0, 1)] ∧
    (∃ called, (((Backlog.new 2 1).run pushedMeanwhile).resume 4 0).course.calls =
      ((Backlog.new 2 1).run pushedMeanwhile).course.calls ++ called) ∧
    (((Backlog.new 2 1).run (pushedMeanwhile ++ [(4, .step 0)])).step 4 0).queue.items.map
      (fun item => (item.ticket, item.retries)) = [(2, 0), (0, 1)] := by
  obtain ⟨first, -, -, resumed, own⟩ := run_new_keepsOrder 2 1 pushedMeanwhile
  obtain ⟨-, -, settles, -, -⟩ := run_new_keepsOrder 2 1 (pushedMeanwhile ++ [(4, .step 0)])
  obtain ⟨items, report⟩ := own 4 0 _ _ rfl (by decide)
  obtain ⟨called, calls, -⟩ := resumed 4 0 _ _ _ rfl rfl (by decide)
  obtain ⟨items', -⟩ := settles 4 0 _ _ rfl rfl
  refine ⟨by decide, first, report, ?_, ⟨called, calls⟩, ?_⟩
  · rw [items]
    decide
  · rw [items']
    decide

end Backlog
end CacheDepot.WriteBehind
