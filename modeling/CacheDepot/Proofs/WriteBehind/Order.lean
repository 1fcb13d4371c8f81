import CacheDepot.Proofs.WriteBehind.Ledger

/-!
# Which of two items is persisted last

An item stays ahead of another that was pushed after it until it is put back. If it is not, the
two are taken one after the other, and the first is persisted first, or they are taken together,
and the one is persisted last whose attempt takes longer.
-/

namespace CacheDepot.WriteBehind

/-- The successful attempts of two items were under way at the same time, and that of the first
takes longer. -/
structure Outlasts (history : List Fate) (slow fast : Item) : Prop where
  began : [Fate.attempted slow, .persisted fast].Sublist history
  ended : [Fate.attempted fast, .persisted slow].Sublist history
  longer : fast.attemptTime < slow.attemptTime

theorem Outlasts.mono {history larger : List Fate} {slow fast : Item}
    (h : Outlasts history slow fast) (sub : history.Sublist larger) :
    Outlasts larger slow fast where
  began := h.began.trans sub
  ended := h.ended.trans sub
  longer := h.longer

/-- If both items are persisted, the first is persisted first. -/
def Won (first second : Item) (history : List Fate) : Prop :=
  ∀ m n, .persisted (first.after m) ∈ history → .persisted (second.after n) ∈ history →
    [Fate.persisted (first.after m), .persisted (second.after n)].Sublist history

/-- No item is persisted. -/
def Undecided (history : List Fate) : Prop := ∀ item, Fate.persisted item ∉ history

theorem Undecided.append_attempted {history : List Fate} (undecided : Undecided history)
    (items : List Item) : Undecided (history ++ items.map .attempted) := by
  intro item member
  rcases List.mem_append.mp member with old | new
  · exact undecided item old
  · obtain ⟨other, -, same⟩ := List.mem_map.mp new
    simp at same

theorem Item.undecided_rounds (item : Item) (n : Nat) : Undecided (item.rounds n) := by
  induction n with
  | zero => exact fun _ => List.not_mem_nil
  | succ n ih =>
    intro other persisted
    rcases List.mem_append.mp persisted with old | new
    · exact ih other old
    · simp at new

/-- The courses of two items of which the first was pushed first and has not been put back
since. -/
inductive Race (first second : Item) : Course → Prop
  | waiting {m n : Nat} {history : List Fate} (undecided : Undecided history) :
      Race first second ⟨[first.after m, second.after n], [], history⟩
  | taken {m n : Nat} {history : List Fate} (undecided : Undecided history) :
      Race first second ⟨[second.after n], [first.after m], history⟩
  | together {m n : Nat} {history : List Fate} (undecided : Undecided history) :
      Race first second ⟨[], [first.after m, second.after n],
        history ++ [.attempted (first.after m), .attempted (second.after n)]⟩
  | decided {c : Course} (gone : ∀ item ∈ c.queued ++ c.inFlight, item.ticket = second.ticket)
      (won : Won first second c.history) : Race first second c

/-- What has become of the order of two items: the first has not been put back, or it has been, or
it outlasted the second. -/
inductive Verdict (first second : Item) (old : List Fate) (c : Course) : Prop
  | race (race : Race first second c)
  | putBack {n : Nat} {new : List Fate} (grown : c.history = old ++ new)
      (requeued : .requeued (first.after n) ∈ new)
  | outlasts {m n : Nat} (outlasts : Outlasts c.history (first.after m) (second.after n))

namespace Race

variable {q : Queue} {c c' : Course} {first second : Item}

theorem won_of_undecided {history new : List Fate} (undecided : Undecided history)
    (others : ∀ n, .persisted (second.after n) ∉ new) : Won first second (history ++ new) := by
  intro m n _ late
  rcases List.mem_append.mp late with old | new
  · exact absurd old (undecided _)
  · exact absurd new (others n)

theorem persisted_ne (differs : first.ticket ≠ second.ticket) (m n : Nat) :
    Fate.persisted (second.after n) ≠ .persisted (first.after m) := by
  intro same
  exact differs (congrArg (fun fate : Fate => fate.item.ticket) same).symm

theorem byEnd_pair (i j : Item) :
    Queue.byEnd [i, j] = if i.attemptTime ≤ j.attemptTime then [i, j] else [j, i] := rfl

/-- The first item's batch is over while the second waits. -/
theorem settle_taken (differs : first.ticket ≠ second.ticket) (m n : Nat) {history : List Fate}
    (undecided : Undecided history) :
    Verdict first second history
      ⟨[second.after n] ++ Queue.retries [q.judge (first.after m)], [],
        history ++ [q.judge (first.after m)]⟩ := by
  have gone : ∀ item ∈ [second.after n] ++ [] ++ ([] : List Item),
      item.ticket = second.ticket := by
    intro item member
    rw [List.append_nil, List.append_nil, List.mem_singleton] at member
    rw [member, Item.after_ticket]
  rcases q.judge_cases (first.after m) with judged | judged | judged
  · rw [judged]
    refine .race (.decided gone (won_of_undecided undecided ?_))
    intro k member
    exact persisted_ne differs m k (List.mem_singleton.mp member)
  · rw [judged]
    exact .putBack rfl (n := m + 1) (List.mem_singleton.mpr rfl)
  · rw [judged]
    refine .race (.decided gone (won_of_undecided undecided ?_))
    intro k member
    simp at member

/-- Beside an item that has come to its end only the other one can be put back. -/
theorem retries_ticket {fate : Fate} {item : Item}
    (ended : fate = .persisted item ∨ fate = .abandoned item) (other : Item) :
    ∀ back ∈ Queue.retries [fate, q.judge other] ++ ([] : List Item),
      back.ticket = other.ticket := by
  rcases ended with rfl | rfl <;>
    rcases q.judge_cases other with judged | judged | judged <;>
      simp [Queue.retries, Item.retried, judged]

/-- Where nothing was decided before, an item of a batch of two that is persisted is so by what its
own attempt comes to. -/
theorem judge_of_persisted {history : List Fate} (undecided : Undecided history)
    {batch : List Item} {own other : Item} (both : batch.Perm [own, other]) (item : Item)
    (differs : item.ticket ≠ other.ticket)
    (member : .persisted item ∈ history ++ batch.map q.judge) :
    q.judge own = .persisted item := by
  rcases List.mem_append.mp member with old | new
  · exact absurd old (undecided item)
  · obtain ⟨taken, there, same⟩ := List.mem_map.mp new
    rw [both.mem_iff, List.mem_cons, List.mem_singleton] at there
    rcases there with rfl | rfl
    · exact same
    · have ticket := q.judge_ticket taken
      rw [same] at ticket
      exact absurd ticket differs

/-- The batch of both items is over. -/
theorem settle_together (differs : first.ticket ≠ second.ticket) (m n : Nat) {history : List Fate}
    (undecided : Undecided (history ++ [.attempted (first.after m), .attempted (second.after n)])) :
    Verdict first second
      (history ++ [.attempted (first.after m), .attempted (second.after n)])
      ⟨Queue.retries [q.judge (first.after m), q.judge (second.after n)], [],
        history ++ [.attempted (first.after m), .attempted (second.after n)] ++
          (Queue.byEnd [first.after m, second.after n]).map q.judge⟩ := by
  have both := Queue.perm_byEnd [first.after m, second.after n]
  have early := fun k => judge_of_persisted (q := q) undecided both (first.after k) differs
  have late := fun k => judge_of_persisted (q := q) undecided (both.trans (.swap ..))
    (second.after k) differs.symm
  rcases q.judge_cases (first.after m) with judged | back | judged
  · have gone := retries_ticket (q := q) (.inl judged) (second.after n)
    by_cases ordered : (first.after m).attemptTime ≤ (second.after n).attemptTime
    · -- If both are persisted, it is in the order in which their attempts end.
      refine .race (.decided gone ?_)
      intro k l isFirst isSecond
      rw [← early k isFirst, ← late l isSecond, byEnd_pair, if_pos ordered]
      exact List.sublist_append_right _ _
    · by_cases judged' : q.judge (second.after n) = .persisted (second.after n)
      · rw [byEnd_pair, if_neg ordered, List.map_cons, List.map_cons, List.map_nil, judged, judged']
        refine .outlasts (m := m) (n := n) ⟨?_, ?_, Nat.lt_of_not_le ordered⟩
        · exact (List.singleton_sublist.mpr (by simp)).append (List.singleton_sublist.mpr (by simp))
        · exact (List.singleton_sublist.mpr (by simp)).append (List.singleton_sublist.mpr (by simp))
      · refine .race (.decided gone ?_)
        intro k l _ isSecond
        have persisted := late l isSecond
        rw [Queue.eq_of_judge_eq_persisted persisted] at persisted
        exact absurd persisted judged'
  · refine .putBack rfl (n := m + 1) ?_
    have member := List.mem_map_of_mem (f := q.judge) (both.mem_iff.mpr List.mem_cons_self)
    rwa [back] at member
  · refine .race (.decided (retries_ticket (q := q) (.inr judged) (second.after n)) ?_)
    intro k l isFirst _
    cases judged.symm.trans (early k isFirst)

theorem shift (differs : first.ticket ≠ second.ticket) (race : Race first second c)
    (shift : c.Shift q c') : Verdict first second c.history c' := by
  cases race with
  | waiting undecided =>
    cases shift with
    | stay => exact .race (.waiting undecided)
    | take idle split =>
      rename_i front rest
      rcases front with - | ⟨a, - | ⟨b, tail⟩⟩
      · cases split
        simpa using Verdict.race (Race.waiting undecided)
      · cases split
        exact .race (.taken (undecided.append_attempted _))
      · simp only [List.cons_append, List.cons.injEq, List.nil_eq_append_iff] at split
        obtain ⟨rfl, rfl, rfl, rfl⟩ := split
        exact .race (.together undecided)
    | settle => simpa [Queue.retries, Queue.byEnd] using Verdict.race (Race.waiting undecided)
    | lose => simpa using Verdict.race (Race.waiting undecided)
  | taken undecided =>
    cases shift with
    | stay => exact .race (.taken undecided)
    | take idle split => simp at idle
    | settle => exact settle_taken differs _ _ undecided
    | lose =>
      refine .race (.decided (by simp) (won_of_undecided undecided ?_))
      intro k member
      simp at member
  | together undecided =>
    cases shift with
    | stay => exact .race (.together undecided)
    | take idle split => simp at idle
    | settle => exact settle_together differs _ _ (undecided.append_attempted [_, _])
    | lose =>
      refine .race (.decided (by simp) (won_of_undecided (undecided.append_attempted
        [_, _]) ?_))
      intro k member
      simp at member
  | decided gone won =>
    obtain ⟨gone', new, grown, about⟩ := shift.tickets (P := fun t => t = second.ticket) gone
    refine .race (.decided gone' ?_)
    intro m n early late
    rw [grown] at early late ⊢
    rcases List.mem_append.mp early with early | early
    · rcases List.mem_append.mp late with late | late
      · exact (won m n early late).trans (List.sublist_append_left ..)
      · exact (List.singleton_sublist.mpr early).append (List.singleton_sublist.mpr late)
    · exact absurd (about _ early) differs

theorem shifts (differs : first.ticket ≠ second.ticket) (race : Race first second c)
    (shifts : c.Shifts q c') : Verdict first second c.history c' := by
  induction shifts with
  | refl => exact .race race
  | tail earlier last ih =>
    rename_i between final
    obtain ⟨new, grown⟩ := Course.Shifts.exists_history earlier
    cases ih with
    | race race =>
      cases race.shift differs last with
      | race race => exact .race race
      | putBack grown' requeued =>
        rw [grown, List.append_assoc] at grown'
        exact .putBack grown' (List.mem_append_right new requeued)
      | outlasts outlasts => exact .outlasts outlasts
    | putBack grown requeued =>
      obtain ⟨more, grown'⟩ := last.exists_history
      rw [grown, List.append_assoc] at grown'
      exact .putBack grown' (List.mem_append_left more requeued)
    | outlasts outlasts =>
      obtain ⟨more, grown'⟩ := last.exists_history
      exact .outlasts (grown' ▸ outlasts.mono (List.sublist_append_left ..))

/-- In a race both of whose items are persisted the first is persisted first. -/
theorem sublist (race : Race first second c) {m n : Nat}
    (early : .persisted (first.after m) ∈ c.history)
    (late : .persisted (second.after n) ∈ c.history) :
    [Fate.persisted (first.after m), .persisted (second.after n)].Sublist c.history := by
  cases race with
  | waiting undecided => exact absurd early (undecided _)
  | taken undecided => exact absurd early (undecided _)
  | together undecided => exact absurd early (undecided.append_attempted [_, _] _)
  | decided gone won => exact won m n early late

end Race

/-- The course of two items of which one is unknown is that of the other. -/
theorem Course.only_or {c : Course} {ticket other : Nat}
    (unknown : c.only (fun t => t == other) = ⟨[], [], []⟩) :
    c.only (fun t => t == ticket || t == other) = c.only fun t => t == ticket := by
  simp only [Course.only, Course.mk.injEq, List.filter_eq_nil_iff] at unknown ⊢
  obtain ⟨queued, inFlight, history⟩ := unknown
  refine ⟨List.filter_congr ?_, List.filter_congr ?_, List.filter_congr ?_⟩
  · intro item member
    simp [queued item member]
  · intro item member
    simp [inFlight item member]
  · intro fate member
    simp [history fate member]

/-- A new item is behind every item pushed before. -/
theorem Ledger.race {items : List Item} {b : Backlog} {item : Item} (h : Ledger items b)
    (member : item ∈ items) (now : Nat) (key : CacheKey) (value : Json) (persist : Persist) :
    Race item (b.queue.newItem now key value persist)
      ((b.push now key value persist).course.only fun t =>
        t == item.ticket || t == b.queue.pushed) := by
  have unknown := h.unknown _ (Nat.le_of_eq h.pushed.symm)
  have standing := h.standing item member
  rw [Backlog.only_push, Course.only_or unknown, if_pos (by simp)]
  have about : ∀ fate ∈ (b.course.only fun t => t == item.ticket).history,
      fate.item.ticket = item.ticket := by
    intro fate member
    exact beq_iff_eq.mp (List.mem_filter.mp member).2
  generalize b.course.only (fun t => t == item.ticket) = c at standing about
  cases standing with
  | queued failing => exact .waiting (n := 0) (item.undecided_rounds _)
  | inFlight failing => exact .taken (n := 0) ((item.undecided_rounds _).append_attempted [_])
  | settled failing final =>
    refine .decided (by simp [Queue.newItem]) ?_
    intro m n _ late
    have same : b.queue.pushed = item.ticket := about _ late
    exact absurd (h.ticket_lt member) (by rw [← same, h.pushed]; omega)

/-- What is persisted was pushed, and is persisted once. -/
theorem Ledger.exists_of_persisted {items : List Item} {b : Backlog} {item : Item}
    (h : Ledger items b) (persisted : .persisted item ∈ b.course.history) :
    ∃ pushed ∈ items, ∃ n, item = pushed.after n ∧
      (b.course.only fun t => t == item.ticket).history =
        pushed.rounds n ++ [.attempted item, .persisted item] := by
  have member : .persisted item ∈ (b.course.only fun t => t == item.ticket).history :=
    List.mem_filter.mpr ⟨persisted, beq_self_eq_true _⟩
  rcases Nat.lt_or_ge item.ticket items.length with known | unknown
  · have found : items[item.ticket]? = some items[item.ticket] := List.getElem?_eq_getElem known
    have listed : items[item.ticket] ∈ items := List.getElem_mem known
    have standing := h.standing _ listed
    rw [(h.fresh _ _ found).1] at standing
    generalize b.course.only (fun t => t == item.ticket) = c at standing member
    cases standing with
    | queued failing => exact absurd member (Item.undecided_rounds _ _ _)
    | inFlight failing =>
      exact absurd member ((Item.undecided_rounds _ _).append_attempted [_] _)
    | settled failing final =>
      rename_i n fate
      have last : .persisted item = fate := by
        rcases List.mem_append.mp member with old | new
        · exact absurd old (Item.undecided_rounds _ _ _)
        · simpa using new
      cases final with
      | persisted succeeds =>
        have same : item = (items[item.ticket]).after n := by injection last
        exact ⟨_, listed, n, same, by rw [← same]⟩
      | abandoned _ _ => simp at last
      | lost => simp at last
  · rw [h.unknown _ unknown] at member
    simp at member

theorem Ledger.eq_of_persisted {items : List Item} {b : Backlog} {item other : Item}
    (h : Ledger items b) (persisted : .persisted item ∈ b.course.history)
    (persisted' : .persisted other ∈ b.course.history) (same : other.ticket = item.ticket) :
    other = item := by
  obtain ⟨pushed, -, n, -, history⟩ := h.exists_of_persisted persisted
  have member : .persisted other ∈ (b.course.only fun t => t == item.ticket).history :=
    List.mem_filter.mpr ⟨persisted', beq_iff_eq.mpr same⟩
  rw [history] at member
  rcases List.mem_append.mp member with old | new
  · exact absurd old (pushed.undecided_rounds n other)
  · simpa using new

end CacheDepot.WriteBehind
