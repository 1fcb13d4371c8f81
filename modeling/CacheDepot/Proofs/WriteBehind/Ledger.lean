import CacheDepot.Proofs.WriteBehind.Steps

/-!
# The ledger of pushed items

The course of a single item is always the same: it waits, is attempted and put back as long as its
attempts fail, and comes to one end. The ledger says so of every item that was pushed, and of
no other.
-/

namespace CacheDepot.WriteBehind

namespace Item

/-- The item after so many failed attempts. -/
def after (item : Item) (failures : Nat) : Item := { item with retries := failures }

@[simp] theorem after_ticket (item : Item) (failures : Nat) :
    (item.after failures).ticket = item.ticket := rfl

/-- What happens to an item that fails so often and is put back each time. -/
def rounds (item : Item) : Nat → List Fate
  | 0 => []
  | n + 1 => item.rounds n ++ [.attempted (item.after n), .requeued (item.after (n + 1))]

/-- The first attempts, so many of them, fail, and the item is put back after each. -/
structure Failing (maxRetries : Nat) (item : Item) (failures : Nat) : Prop where
  few : failures ≤ maxRetries
  failed : ∀ call < failures, (item.persist.attempt call).failure.isSome = true

/-- How an item can end whose attempt after these failures is over or given up. -/
inductive End (maxRetries : Nat) (item : Item) (failures : Nat) : Fate → Prop
  | persisted (succeeds : (item.persist.attempt failures).failure = none) :
      End maxRetries item failures (.persisted (item.after failures))
  | abandoned (last : failures = maxRetries)
      (fails : (item.persist.attempt failures).failure.isSome = true) :
      End maxRetries item failures (.abandoned (item.after failures))
  | lost : End maxRetries item failures (.lost (item.after failures))

end Item

/-- The courses that an item can have taken. -/
inductive Standing (maxRetries : Nat) (item : Item) : Course → Prop
  | queued {n : Nat} (failing : item.Failing maxRetries n) :
      Standing maxRetries item ⟨[item.after n], [], item.rounds n⟩
  | inFlight {n : Nat} (failing : item.Failing maxRetries n) :
      Standing maxRetries item ⟨[], [item.after n], item.rounds n ++ [.attempted (item.after n)]⟩
  | settled {n : Nat} {fate : Fate} (failing : item.Failing maxRetries n)
      (final : item.End maxRetries n fate) :
      Standing maxRetries item ⟨[], [], item.rounds n ++ [.attempted (item.after n), fate]⟩

namespace Standing

variable {q : Queue} {item : Item} {c : Course}

/-- An attempt that is over puts the item back or ends it. -/
theorem settle {n : Nat} (failing : item.Failing q.maxRetries n) :
    Standing q.maxRetries item ⟨Queue.retries [q.judge (item.after n)], [],
      item.rounds n ++ [.attempted (item.after n), q.judge (item.after n)]⟩ := by
  cases failure : (item.persist.attempt n).failure with
  | none =>
    have judged : q.judge (item.after n) = .persisted (item.after n) := by
      rw [Queue.judge, if_pos]
      exact Option.isNone_iff_eq_none.mpr failure
    rw [judged]
    exact .settled failing (.persisted failure)
  | some cause =>
    have fails : ¬ (item.after n).nextAttempt.failure.isNone = true :=
      Bool.eq_false_iff.mp (congrArg Option.isNone failure)
    by_cases more : n < q.maxRetries
    · have judged : q.judge (item.after n) = .requeued (item.after (n + 1)) := by
        rw [Queue.judge, if_neg fails]
        exact if_pos more
      have failing' : item.Failing q.maxRetries (n + 1) := by
        refine ⟨more, ?_⟩
        intro call before
        rcases Nat.lt_succ_iff_lt_or_eq.mp before with before | rfl
        · exact failing.failed call before
        · rw [failure, Option.isSome_some]
      rw [judged]
      exact .queued failing'
    · have judged : q.judge (item.after n) = .abandoned (item.after n) := by
        rw [Queue.judge, if_neg fails]
        exact if_neg more
      rw [judged]
      refine .settled failing (.abandoned (Nat.le_antisymm failing.few (Nat.le_of_not_lt more)) ?_)
      rw [failure, Option.isSome_some]

theorem shift {c' : Course} (standing : Standing q.maxRetries item c) (shift : c.Shift q c') :
    Standing q.maxRetries item c' := by
  cases standing with
  | queued failing =>
    cases shift with
    | stay => exact .queued failing
    | take idle split =>
      rcases List.append_eq_singleton_iff.mp split.symm with ⟨rfl, rfl⟩ | ⟨rfl, rfl⟩
      · simpa using Standing.queued failing
      · exact .inFlight failing
    | settle => simpa [Queue.retries, Queue.byEnd] using Standing.queued failing
    | lose => simpa using Standing.queued failing
  | inFlight failing =>
    cases shift with
    | stay => exact .inFlight failing
    | take idle split => simp at idle
    | settle => simpa [Queue.byEnd, Item.placeByEnd] using settle failing
    | lose => simpa using Standing.settled failing .lost
  | settled failing final =>
    rw [shift.eq_of_settled]
    exact .settled failing final

theorem shifts {c' : Course} (standing : Standing q.maxRetries item c)
    (shifts : c.Shifts q c') : Standing q.maxRetries item c' := by
  induction shifts with
  | refl => exact standing
  | tail _ shift ih => exact ih.shift shift

end Standing

/-- The items that the pushes of a run add, the first of them under this ticket. -/
def issued (ticket : Nat) : List (Nat × Backlog.Action) → List Item
  | [] => []
  | (now, .push key value persist) :: rest =>
    ⟨ticket, key, value, persist, now, 0⟩ :: issued (ticket + 1) rest
  | _ :: rest => issued ticket rest

/-- These items, and no others, were pushed, and each stands where its fates have brought it. -/
structure Ledger (items : List Item) (b : Backlog) : Prop where
  guarded : b.Guarded
  pushed : b.queue.pushed = items.length
  fresh : ∀ (t : Nat) (item : Item), items[t]? = some item → item.ticket = t ∧ item.retries = 0
  standing : ∀ item ∈ items,
    Standing b.queue.maxRetries item (b.course.only fun t => t == item.ticket)
  unknown : ∀ ticket, items.length ≤ ticket → b.course.only (fun t => t == ticket) = ⟨[], [], []⟩

/-- A push puts its own item into the queue and changes nothing else. -/
theorem Backlog.only_push (b : Backlog) (now : Nat) (key : CacheKey) (value : Json)
    (persist : Persist) (chosen : Nat → Bool) :
    (b.push now key value persist).course.only chosen =
      ⟨(b.course.only chosen).queued ++
          if chosen b.queue.pushed then [b.queue.newItem now key value persist] else [],
        (b.course.only chosen).inFlight, (b.course.only chosen).history⟩ := by
  simp only [Backlog.push, Backlog.course, Course.only, Queue.push, List.filter_append,
    List.filter_cons, List.filter_nil, Queue.newItem]

/-- What every action keeps, with the items that it issues, is kept by a run with all its items. -/
theorem Backlog.issued_induction {P : List Item → Backlog → Prop}
    (act : ∀ {items : List Item} {b : Backlog} (now : Nat) (a : Action), P items b →
      P (items ++ issued items.length [(now, a)]) (b.act now a))
    {items : List Item} {b : Backlog} (holds : P items b) (actions : List (Nat × Action)) :
    P (items ++ issued items.length actions) (b.run actions) := by
  induction actions generalizing items b with
  | nil => rwa [issued, List.append_nil]
  | cons first rest ih =>
    obtain ⟨now, a⟩ := first
    have split : items ++ issued items.length ((now, a) :: rest) =
        (items ++ issued items.length [(now, a)]) ++
          issued (items ++ issued items.length [(now, a)]).length rest := by
      cases a <;> simp [issued]
    rw [split]
    exact ih (act now a holds)

namespace Ledger

variable {items : List Item} {b b' : Backlog}

theorem ticket_lt {item : Item} (h : Ledger items b) (member : item ∈ items) :
    item.ticket < items.length := by
  obtain ⟨t, found⟩ := List.getElem?_of_mem member
  rw [(h.fresh t item found).1]
  exact (List.getElem?_eq_some_iff.mp found).1

theorem new (batchSize maxRetries : Nat) : Ledger [] (.new batchSize maxRetries) where
  guarded := Backlog.guarded_new batchSize maxRetries
  pushed := rfl
  fresh := fun _ _ found => nomatch found
  standing := fun _ member => nomatch member
  unknown := fun _ _ => rfl

theorem onward (h : Ledger items b) (on : b.Onward b') : Ledger items b' where
  guarded := on.guarded
  pushed := on.pushed.trans h.pushed
  fresh := h.fresh
  standing := by
    intro item member
    rw [on.maxRetries]
    exact (h.standing item member).shifts (on.course.only _)
  unknown := by
    intro ticket unused
    have shifts := on.course.only fun t => t == ticket
    rw [h.unknown ticket unused] at shifts
    exact shifts.eq_of_settled

theorem push (h : Ledger items b) (now : Nat) (key : CacheKey) (value : Json)
    (persist : Persist) :
    Ledger (items ++ [b.queue.newItem now key value persist]) (b.push now key value persist) := by
  refine ⟨h.guarded.push now key value persist, ?_, ?_, ?_, ?_⟩
  · rw [List.length_append, ← h.pushed]
    rfl
  · intro t item found
    rcases Nat.lt_or_ge t items.length with old | late
    · rw [List.getElem?_append_left old] at found
      exact h.fresh t item found
    · rw [List.getElem?_append_right late, List.getElem?_singleton] at found
      split at found
      · rename_i first
        cases found
        exact ⟨h.pushed.trans (by omega), rfl⟩
      · simp at found
  · intro item member
    rw [Backlog.only_push]
    rcases List.mem_append.mp member with old | new
    · have early := h.ticket_lt old
      rw [if_neg (by rw [h.pushed, beq_iff_eq]; omega), List.append_nil]
      exact h.standing item old
    · obtain rfl := List.mem_singleton.mp new
      have ticket : (b.queue.newItem now key value persist).ticket = b.queue.pushed := rfl
      rw [ticket, h.unknown _ (Nat.le_of_eq h.pushed.symm), if_pos (beq_self_eq_true _)]
      exact .queued (n := 0) ⟨Nat.zero_le _, fun _ none => absurd none (Nat.not_lt_zero _)⟩
  · intro ticket unused
    rw [List.length_append, List.length_singleton] at unused
    rw [Backlog.only_push, if_neg (by rw [h.pushed, beq_iff_eq]; omega),
      h.unknown ticket (by omega)]
    rfl

theorem act (h : Ledger items b) (now : Nat) (a : Backlog.Action) :
    Ledger (items ++ issued items.length [(now, a)]) (b.act now a) := by
  cases a with
  | push key value persist =>
    rw [issued, ← h.pushed]
    exact h.push now key value persist
  | _ =>
    rw [issued, issued, List.append_nil]
    · exact h.onward (h.guarded.act now (by simp))
    · simp

theorem run (h : Ledger items b) (actions : List (Nat × Backlog.Action)) :
    Ledger (items ++ issued items.length actions) (b.run actions) :=
  Backlog.issued_induction (fun now a h => h.act now a) h actions

/-- What has come to its end is left alone by everything that follows. -/
theorem only_run_of_settled (h : Ledger items b) {ticket : Nat} (known : ticket < items.length)
    {history : List Fate} (settled : b.course.only (fun t => t == ticket) = ⟨[], [], history⟩)
    (later : List (Nat × Backlog.Action)) :
    (b.run later).course.only (fun t => t == ticket) = ⟨[], [], history⟩ := by
  induction later generalizing items b with
  | nil => exact settled
  | cons first rest ih =>
    obtain ⟨now, a⟩ := first
    apply ih (h.act now a) (by rw [List.length_append]; omega)
    show (b.act now a).course.only (fun t => t == ticket) = ⟨[], [], history⟩
    have quiet : (∀ key value persist, a ≠ .push key value persist) →
        (b.act now a).course.only (fun t => t == ticket) = ⟨[], [], history⟩ := by
      intro quiet
      have shifts := (h.guarded.act now quiet).course.only fun t => t == ticket
      rw [settled] at shifts
      exact shifts.eq_of_settled
    cases a with
    | push key value persist =>
      rw [Backlog.act, Backlog.only_push, if_neg (by rw [h.pushed, beq_iff_eq]; omega), settled]
      rfl
    | _ => exact quiet (by simp)

end Ledger
end CacheDepot.WriteBehind
