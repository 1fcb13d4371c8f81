import CacheDepot.Proofs.WriteBehind.Accounting
import Mathlib.Data.List.Induction

/-!
# What a flush overlooks

A flush looks at the flag and then, in another step, at the queue. A drain that raises the flag in
between and takes what there is goes unseen, and the flush returns while the batch is being tried.
Nothing else is overlooked.
-/

namespace CacheDepot.WriteBehind

/-! ## The looks of a flush -/

namespace FlushStage

variable {now : Nat} {q : Queue} {stage : FlushStage} {total : Report}

/-- After a drain of its own or of someone else a flush looks at the flag anew. -/
theorem afterDrain_cases (now : Nat) (total : Report) (stage : DrainStage) :
    afterDrain now total stage = .draining total stage ∨
      afterDrain now total stage = .pausing total (now + pollInterval) ∨
      ∃ total', afterDrain now total stage = .readingFlag total' := by
  cases stage with
  | done report =>
    rw [afterDrain]
    split
    · exact .inr (.inl rfl)
    · exact .inr (.inr ⟨_, rfl⟩)
  | _ => exact .inl rfl

/-- Who is about to look at the queue has just found the flag down. -/
theorem eq_of_step_eq_readingItems (stepped : (stage.step now q).2.1 = .readingItems total) :
    stage = .readingFlag total ∧ q.draining = false := by
  cases stage with
  | readingFlag before =>
    rw [step] at stepped
    cases up : q.draining with
    | true =>
      rw [up] at stepped
      cases stepped
    | false =>
      rw [up] at stepped
      cases stepped
      exact ⟨rfl, rfl⟩
  | readingItems before =>
    rw [step] at stepped
    cases empty : q.items.isEmpty <;> rw [empty] at stepped <;> cases stepped
  | draining before inner =>
    rw [step] at stepped
    rcases afterDrain_cases now before (inner.step now q).2.1 with eq | eq | ⟨_, eq⟩ <;>
      cases eq.symm.trans stepped
  | pausing before due => cases stepped
  | done before => cases stepped

/-- Who has ended has just found the queue empty. -/
theorem eq_of_step_eq_done (stepped : (stage.step now q).2.1 = .done total) :
    stage = .done total ∨ stage = .readingItems total ∧ q.items = [] := by
  cases stage with
  | readingFlag before =>
    rw [step] at stepped
    cases up : q.draining <;> rw [up] at stepped <;> cases stepped
  | readingItems before =>
    rw [step] at stepped
    cases empty : q.items.isEmpty with
    | false =>
      rw [empty] at stepped
      cases stepped
    | true =>
      rw [empty] at stepped
      cases stepped
      exact .inr ⟨rfl, List.isEmpty_iff.mp empty⟩
  | draining before inner =>
    rw [step] at stepped
    rcases afterDrain_cases now before (inner.step now q).2.1 with eq | eq | ⟨_, eq⟩ <;>
      cases eq.symm.trans stepped
  | pausing before due => cases stepped
  | done before =>
    cases stepped
    exact .inl rfl

end FlushStage

namespace Backlog

variable {b : Backlog} {id now : Nat} {total : Report}

theorem draining_of_step (looks : (b.step now id).workers.get? id =
    some (.flush (.readingItems total))) : b.queue.draining = false := by
  cases bound : b.workers.get? id with
  | none =>
    rw [step, bound] at looks
    cases bound.symm.trans looks
  | some w =>
    rw [step_of_get? bound, get?_put, if_pos rfl] at looks
    cases w with
    | drain stage => cases looks
    | flush stage =>
      have stepped : (stage.step now b.queue).2.1 = .readingItems total :=
        Worker.flush.inj (Option.some.inj looks)
      exact (FlushStage.eq_of_step_eq_readingItems stepped).2

/-- A flush is about to look at the queue only after a step of its own. -/
theorem readingItems_of_act {a : Action} (other : a ≠ .step id) (single : a ≠ .resume id)
    (looks : (b.act now a).workers.get? id = some (.flush (.readingItems total))) :
    b.workers.get? id = some (.flush (.readingItems total)) := by
  have differs : ∀ own, (a = .step own ∨ a = .resume own) → id ≠ own := by
    rintro own (rfl | rfl) rfl
    · exact other rfl
    · exact single rfl
  cases a with
  | push key value persist => exact looks
  | startDrain =>
    rw [act, start, Assoc.get?_insert] at looks
    split at looks
    · cases looks
    · exact looks
  | startFlush =>
    rw [act, start, Assoc.get?_insert] at looks
    split at looks
    · cases looks
    · exact looks
  | step own =>
    rw [act, get?_step_of_ne b now (differs own (.inl rfl))] at looks
    exact looks
  | resume own =>
    rw [act, get?_resume_of_ne b now (differs own (.inr rfl))] at looks
    exact looks
  | cancel own =>
    by_cases same : id = own
    · subst same
      rw [act, cancel] at looks
      cases bound : b.workers.get? id with
      | none =>
        rw [bound] at looks
        cases bound.symm.trans looks
      | some w =>
        rw [bound] at looks
        cases (Assoc.get?_erase_self ..).symm.trans looks
    · rwa [act, get?_cancel_of_ne b same] at looks
  | collect own =>
    by_cases same : id = own
    · subst same
      rw [act, collect] at looks
      split at looks
      · cases (Assoc.get?_erase_self ..).symm.trans looks
      · exact looks
    · rwa [act, get?_collect_of_ne b same] at looks

theorem run_concat (b : Backlog) (actions : List (Nat × Action)) (last : Nat × Action) :
    b.run (actions ++ [last]) = (b.run actions).act last.1 last.2 := by
  rw [run, run, List.foldl_append]
  rfl

/-- A flush that is about to look at the queue has found the flag down at its last step. -/
theorem exists_look {batchSize maxRetries : Nat} {actions : List (Nat × Action)}
    (single : ∀ a ∈ actions, a.2 ≠ .resume id)
    (looks : ((Backlog.new batchSize maxRetries).run actions).workers.get? id =
      some (.flush (.readingItems total))) :
    ∃ first looked between, actions = first ++ (looked, .step id) :: between ∧
      (∀ a ∈ between, a.2 ≠ .step id) ∧
      ((Backlog.new batchSize maxRetries).run first).queue.draining = false := by
  -- The last action is the step that was looked for, or it left the flush where it was.
  induction actions using List.reverseRecOn with
  | nil => cases looks
  | append_singleton earlier last ih =>
    obtain ⟨now, a⟩ := last
    rw [run_concat] at looks
    by_cases own : a = .step id
    · subst own
      exact ⟨earlier, now, [], rfl, nofun, draining_of_step looks⟩
    · have before := readingItems_of_act own
        (single (now, a) (List.mem_append_right _ (List.mem_singleton_self _))) looks
      obtain ⟨first, looked, between, rfl, others, down⟩ :=
        ih (fun a member => single a (List.mem_append_left _ member)) before
      refine ⟨first, looked, between ++ [(now, a)], by simp, ?_, down⟩
      intro a' member
      rcases List.mem_append.mp member with before | last
      · exact others a' before
      · rw [List.mem_singleton.mp last]
        exact own

/-- A flush returns when it finds the queue empty, and does nothing then. -/
theorem readingItems_of_report {stage : FlushStage}
    (bound : b.workers.get? id = some (.flush stage)) (running : b.report? id = none)
    (returns : (b.step now id).report? id = some total) :
    stage = .readingItems total ∧ b.queue.items = [] ∧ (b.step now id).queue = b.queue := by
  rw [report?, bound, Option.bind_some] at running
  rw [step_of_get? bound] at returns ⊢
  rw [report?, get?_put, if_pos rfl, Option.bind_some] at returns
  have stepped : (stage.step now b.queue).2.1 = .done total := by
    rw [Worker.step] at returns
    dsimp only at returns
    generalize (stage.step now b.queue).2.1 = next at returns
    cases next with
    | done report =>
      cases returns
      rfl
    | _ => cases returns
  rcases FlushStage.eq_of_step_eq_done stepped with rfl | ⟨rfl, empty⟩
  · cases running
  · exact ⟨rfl, empty, rfl⟩

/-! ## What is lost without a cancellation -/

theorem lost_act (b : Backlog) (now : Nat) {a : Action} (kept : ∀ id, a ≠ .cancel id) :
    (b.act now a).lost = b.lost := by
  cases a with
  | push key value persist => rfl
  | startDrain => rfl
  | startFlush => rfl
  | step id => exact b.lost_step now id
  | resume id => exact b.lost_resume now id
  | cancel id => exact absurd rfl (kept id)
  | collect id => exact b.lost_collect id

theorem lost_run (b : Backlog) {actions : List (Nat × Action)}
    (kept : ∀ a ∈ actions, ∀ id, a.2 ≠ .cancel id) : (b.run actions).lost = b.lost := by
  induction actions generalizing b with
  | nil => rfl
  | cons first rest ih =>
    have later := ih (b.act first.1 first.2) fun a member => kept a (List.mem_cons_of_mem _ member)
    exact later.trans (b.lost_act first.1 (kept first List.mem_cons_self))

/-- An item is in flight with a worker that has the flag up. -/
theorem exists_of_inFlight {item : Item} (there : (.inFlight, item) ∈ b.placesOf item.ticket) :
    ∃ id w, b.workers.get? id = some w ∧ w.holdsFlag = true ∧ item ∈ w.inFlight := by
  rcases cases_of_mem_placesOf there with ⟨same, -⟩ | ⟨-, busy⟩ | ⟨fate, -, left, -⟩
  · cases same
  · obtain ⟨⟨id, w⟩, bound, flies⟩ := List.mem_flatMap.mp busy
    refine ⟨id, w, Assoc.get?_eq_some_iff.mpr bound, ?_, flies⟩
    cases up : w.holdsFlag with
    | true => rfl
    | false =>
      rw [Worker.inFlight_of_not_holdsFlag up] at flies
      cases flies
  · cases fate <;> cases left

theorem not_queued_of_empty (empty : b.queue.items = []) {item : Item} :
    (.queued, item) ∉ b.placesOf item.ticket := by
  intro there
  rcases cases_of_mem_placesOf there with ⟨-, waits⟩ | ⟨same, -⟩ | ⟨fate, -, left, -⟩
  · rw [empty] at waits
    cases waits
  · cases same
  · cases fate <;> cases left

/-- What a flush has brought about when it returns, whatever others push, drain and flush at the
same time, one step of one of them after the other, if nothing is given up: the queue is empty,
and every item that was pushed is persisted or abandoned, or it is in the batch of a drain that
raised the flag after the last look of the flush at it. -/
theorem accounted_of_flush_returns {batchSize maxRetries : Nat} {actions : List (Nat × Action)}
    (single : ∀ a ∈ actions, a.2 ≠ .resume id) (kept : ∀ a ∈ actions, ∀ id, a.2 ≠ .cancel id)
    {stage : FlushStage}
    (flushes : ((Backlog.new batchSize maxRetries).run actions).workers.get? id =
      some (.flush stage))
    (running : ((Backlog.new batchSize maxRetries).run actions).report? id = none)
    (returns : (((Backlog.new batchSize maxRetries).run actions).step now id).report? id =
      some total) :
    let b := ((Backlog.new batchSize maxRetries).run actions).step now id
    b.queue.items = [] ∧
    ∃ first looked between, actions = first ++ (looked, .step id) :: between ∧
      (∀ a ∈ between, a.2 ≠ .step id) ∧
      (∀ other w, ((Backlog.new batchSize maxRetries).run first).workers.get? other = some w →
        w.holdsFlag = false) ∧
      ∀ item ∈ issued 0 actions, ∃ place failures,
        b.Accounted maxRetries item place failures ∧
        (place = .persisted ∨ place = .abandoned ∨
          place = .inFlight ∧ ∃ other w, b.workers.get? other = some w ∧ w.holdsFlag = true ∧
            item.after failures ∈ w.inFlight) := by
  intro b
  obtain ⟨guarded, -, retries⟩ := (guarded_new batchSize maxRetries).run actions
  obtain ⟨rfl, empty, same⟩ := readingItems_of_report flushes running returns
  obtain ⟨first, looked, between, split, others, down⟩ := exists_look single flushes
  have on := guarded.step now id
  have ledger : Ledger (issued 0 actions) b :=
    ((Ledger.new batchSize maxRetries).run actions).onward on
  have retries' : b.queue.maxRetries = maxRetries := on.maxRetries.trans retries
  have lost : b.lost = [] := (lost_step _ now id).trans (lost_run _ kept)
  have empty' : b.queue.items = [] := same ▸ empty
  refine ⟨empty', first, looked, between, split, others, ?_, ?_⟩
  · intro other w bound
    exact ((guarded_new batchSize maxRetries).run first).1.not_holdsFlag down bound
  · intro item member
    obtain ⟨place, failures, accounted⟩ := ledger.accounted member
    rw [retries'] at accounted
    have there : (place, item.after failures) ∈ b.placesOf (item.after failures).ticket := by
      rw [Item.after_ticket, accounted.places]
      exact List.mem_singleton_self _
    refine ⟨place, failures, accounted, ?_⟩
    cases place with
    | queued => exact absurd there (not_queued_of_empty empty')
    | inFlight => exact .inr (.inr ⟨rfl, exists_of_inFlight there⟩)
    | persisted => exact .inl rfl
    | abandoned => exact .inr (.inl rfl)
    | lost =>
      have gone := mem_lost_iff.mpr there
      rw [lost] at gone
      cases gone

/-- One item, a flush that has found the flag down, and a drain that raises it and takes the item
before the flush looks at the queue. -/
def overlookedDrain : List (Nat × Action) :=
  [(0, .push ⟨"k"⟩ .null ⟨"a", [{ delay := 9 }]⟩), (1, .startFlush), (1, .startDrain),
    (1, .step 0), (1, .step 1), (1, .step 1)]

/-- The drain that is overlooked has the item in its batch when the flush returns. -/
theorem overlookedDrain_accounted :
    (((Backlog.new 10 3).run overlookedDrain).step 1 0).queue.items = [] ∧
      ∃ place failures, (((Backlog.new 10 3).run overlookedDrain).step 1 0).Accounted 3
        ⟨0, ⟨"k"⟩, .null, ⟨"a", [{ delay := 9 }]⟩, 0, 0⟩ place failures := by
  have flushes : ((Backlog.new 10 3).run overlookedDrain).workers.get? 0 =
      some (.flush (.readingItems {})) := rfl
  have returns : (((Backlog.new 10 3).run overlookedDrain).step 1 0).report? 0 = some {} := rfl
  obtain ⟨empty, -, -, -, -, -, -, accounted⟩ := accounted_of_flush_returns
    (by simp [overlookedDrain]) (by simp [overlookedDrain]) flushes (by rfl) returns
  obtain ⟨place, failures, accounted, -⟩ := accounted _ List.mem_cons_self
  exact ⟨empty, place, failures, accounted⟩

/-- A flush that was called after the only push returns, with nothing given up, while the item is
neither persisted nor abandoned but in the batch of a drain that is running. -/
theorem flush_overlooks_drain :
    (((Backlog.new 10 3).run overlookedDrain).step 1 0).report? 0 = some {} ∧
    (((Backlog.new 10 3).run overlookedDrain).step 1 0).queue.draining = true ∧
    ((((Backlog.new 10 3).run overlookedDrain).step 1 0).placesOf 0).map Prod.fst =
      [.inFlight] := by
  exact ⟨rfl, rfl, rfl⟩

end Backlog
end CacheDepot.WriteBehind
