import CacheDepot.WriteBehind.Queue
import Mathlib.Data.List.Induction
import Mathlib.Logic.Relation

/-!
# The course of items

Where items are and what has become of them, with the four ways in which that changes while
nothing is pushed. A course can be followed for some of the items only: what happens to all of
them happens to these, in the same order.
-/

namespace CacheDepot.WriteBehind

namespace Item

variable (item : Item) {ended : List Item}

theorem perm_placeByEnd (ended : List Item) : (item.placeByEnd ended).Perm (item :: ended) := by
  induction ended with
  | nil => exact .refl _
  | cons other rest ih =>
    unfold placeByEnd
    split
    · exact (ih.cons other).trans (.swap item other rest)
    · exact .refl _

theorem placeByEnd_of_forall_lt (later : ∀ other ∈ ended, item.attemptTime < other.attemptTime) :
    item.placeByEnd ended = item :: ended := by
  cases ended with
  | nil => rfl
  | cons other rest => rw [placeByEnd, if_neg (Nat.not_le.mpr (later other List.mem_cons_self))]

theorem pairwise_placeByEnd
    (sorted : ended.Pairwise fun i j => i.attemptTime ≤ j.attemptTime) :
    (item.placeByEnd ended).Pairwise fun i j => i.attemptTime ≤ j.attemptTime := by
  induction ended with
  | nil => exact List.pairwise_singleton ..
  | cons other rest ih =>
    unfold placeByEnd
    obtain ⟨first, sortedRest⟩ := List.pairwise_cons.mp sorted
    split
    · rename_i earlier
      refine List.pairwise_cons.mpr ⟨?_, ih sortedRest⟩
      intro j member
      rcases List.mem_cons.mp ((item.perm_placeByEnd rest).mem_iff.mp member) with rfl | member
      · exact earlier
      · exact first j member
    · rename_i later
      have before : item.attemptTime ≤ other.attemptTime := Nat.le_of_not_le later
      refine List.pairwise_cons.mpr ⟨?_, sorted⟩
      intro j member
      rcases List.mem_cons.mp member with rfl | member
      · exact before
      · exact Nat.le_trans before (first j member)

theorem filter_placeByEnd (p : Item → Bool)
    (sorted : ended.Pairwise fun i j => i.attemptTime ≤ j.attemptTime) :
    (item.placeByEnd ended).filter p =
      if p item then item.placeByEnd (ended.filter p) else ended.filter p := by
  induction ended with
  | nil => rw [placeByEnd, List.filter_cons]; rfl
  | cons other rest ih =>
    obtain ⟨first, sortedRest⟩ := List.pairwise_cons.mp sorted
    rw [placeByEnd]
    split
    · rename_i earlier
      rw [List.filter_cons, List.filter_cons, ih sortedRest]
      cases p item <;> cases p other <;> simp [placeByEnd, earlier]
    · rename_i later
      have all : ∀ j ∈ (other :: rest).filter p, item.attemptTime < j.attemptTime := by
        intro j member
        have before : item.attemptTime < other.attemptTime := Nat.lt_of_not_le later
        rcases List.mem_cons.mp (List.mem_filter.mp member).1 with rfl | member
        · exact before
        · exact Nat.lt_of_lt_of_le before (first j member)
      rw [List.filter_cons, placeByEnd_of_forall_lt item all]

end Item

namespace Queue

theorem byEnd_concat (batch : List Item) (item : Item) :
    byEnd (batch ++ [item]) = item.placeByEnd (byEnd batch) := by
  rw [byEnd, List.foldl_append]
  rfl

/-- The attempts of a batch end in some order. -/
theorem perm_byEnd (batch : List Item) : (byEnd batch).Perm batch := by
  induction batch using List.reverseRecOn with
  | nil => exact .refl _
  | append_singleton rest item ih =>
    rw [byEnd_concat]
    exact (item.perm_placeByEnd _).trans
      ((ih.cons item).trans (List.perm_append_singleton item rest).symm)

theorem pairwise_byEnd (batch : List Item) :
    (byEnd batch).Pairwise fun i j => i.attemptTime ≤ j.attemptTime := by
  induction batch using List.reverseRecOn with
  | nil => exact .nil
  | append_singleton rest item ih =>
    rw [byEnd_concat]
    exact item.pairwise_placeByEnd ih

/-- Some items of a batch end in the order in which they would end alone. -/
theorem filter_byEnd (p : Item → Bool) (batch : List Item) :
    (byEnd batch).filter p = byEnd (batch.filter p) := by
  induction batch using List.reverseRecOn with
  | nil => rfl
  | append_singleton rest item ih =>
    rw [byEnd_concat, Item.filter_placeByEnd item p (pairwise_byEnd rest), ih, List.filter_append]
    cases holds : p item with
    | true => rw [List.filter_cons_of_pos holds, if_pos rfl, List.filter_nil, byEnd_concat]
    | false =>
      rw [List.filter_cons_of_neg (by simp [holds]), List.filter_nil, List.append_nil,
        if_neg Bool.false_ne_true]

theorem judge_congr {q q' : Queue} (same : q'.maxRetries = q.maxRetries) :
    q'.judge = q.judge := by
  funext item
  simp only [judge, same]

/-- The three ways in which an attempt can end. -/
theorem judge_cases (q : Queue) (item : Item) :
    q.judge item = .persisted item ∨ q.judge item = .requeued item.retried ∨
      q.judge item = .abandoned item := by
  unfold judge
  split
  · exact .inl rfl
  · split
    · exact .inr (.inl rfl)
    · exact .inr (.inr rfl)

theorem eq_of_judge_eq_persisted {q : Queue} {item persisted : Item}
    (judged : q.judge item = .persisted persisted) : persisted = item := by
  rcases q.judge_cases item with same | same | same <;> rw [same] at judged <;> cases judged
  rfl

end Queue

/-- The item that a fate is about. -/
def Fate.item : Fate → Item
  | .attempted item | .persisted item | .requeued item | .abandoned item | .lost item => item

@[simp] theorem Queue.judge_ticket (q : Queue) (item : Item) :
    (q.judge item).item.ticket = item.ticket := by
  rcases q.judge_cases item with judged | judged | judged <;> rw [judged] <;> rfl

/-- Where items are and what has become of them: those that wait, the one batch that is taken, and
all fates so far, the earliest first. -/
structure Course where
  queued : List Item
  inFlight : List Item
  history : List Fate

namespace Course

/-- What happens to the items when nothing is pushed. -/
inductive Shift (q : Queue) (c : Course) : Course → Prop
  | stay : Shift q c c
  | take {front rest : List Item} (idle : c.inFlight = []) (split : c.queued = front ++ rest) :
      Shift q c ⟨rest, front, c.history ++ front.map .attempted⟩
  | settle :
      Shift q c ⟨c.queued ++ Queue.retries (c.inFlight.map q.judge), [],
        c.history ++ (Queue.byEnd c.inFlight).map q.judge⟩
  | lose : Shift q c ⟨c.queued, [], c.history ++ c.inFlight.map .lost⟩

variable {q q' : Queue} {c c' : Course}

/-- Only the number of retries of the queue matters. -/
theorem Shift.congr (same : q'.maxRetries = q.maxRetries) (shift : c.Shift q' c') :
    c.Shift q c' := by
  cases shift with
  | stay => exact .stay
  | take idle split => exact .take idle split
  | settle => rw [Queue.judge_congr same]; exact .settle
  | lose => exact .lose

/-- The course of the items whose tickets are chosen. -/
def only (chosen : Nat → Bool) (c : Course) : Course where
  queued := c.queued.filter fun item => chosen item.ticket
  inFlight := c.inFlight.filter fun item => chosen item.ticket
  history := c.history.filter fun fate => chosen fate.item.ticket

theorem filter_retries (q : Queue) (chosen : Nat → Bool) (batch : List Item) :
    (Queue.retries (batch.map q.judge)).filter (fun item => chosen item.ticket) =
      Queue.retries ((batch.filter fun item => chosen item.ticket).map q.judge) := by
  induction batch with
  | nil => rfl
  | cons item rest ih =>
    have split : ∀ l : List Item, Queue.retries ((item :: l).map q.judge) =
        Queue.retries [q.judge item] ++ Queue.retries (l.map q.judge) :=
      fun l => List.filterMap_append (l := [q.judge item]) ..
    have alone : (Queue.retries [q.judge item]).filter (fun item => chosen item.ticket) =
        if chosen item.ticket then Queue.retries [q.judge item] else [] := by
      rcases q.judge_cases item with judged | judged | judged <;> rw [judged] <;>
        cases pick : chosen item.ticket <;> simp [Queue.retries, Item.retried, pick]
    rw [split, List.filter_append, alone, ih, List.filter_cons]
    cases chosen item.ticket with
    | true => rw [if_pos rfl, if_pos rfl, split]
    | false => rfl

theorem filter_map_fates (chosen : Nat → Bool) {f : Item → Fate}
    (about : ∀ item, (f item).item.ticket = item.ticket) (items : List Item) :
    (items.map f).filter (fun fate => chosen fate.item.ticket) =
      (items.filter fun item => chosen item.ticket).map f := by
  rw [List.filter_map]
  congr 2
  funext item
  exact congrArg chosen (about item)

/-- What happens to all items happens to the chosen ones. -/
theorem Shift.only (shift : c.Shift q c') (chosen : Nat → Bool) :
    (c.only chosen).Shift q (c'.only chosen) := by
  cases shift with
  | stay => exact .stay
  | take idle split =>
    rename_i front rest
    have nothing : (c.only chosen).inFlight = [] := by
      rw [Course.only, idle]
      rfl
    have parts : (c.only chosen).queued = front.filter (fun item => chosen item.ticket) ++
        rest.filter fun item => chosen item.ticket := by
      rw [Course.only, split, List.filter_append]
    have taken := Shift.take (q := q) nothing parts
    rw [Course.only, Course.only, List.filter_append, filter_map_fates chosen (fun _ => rfl)]
    exact taken
  | settle =>
    have settled := Shift.settle (q := q) (c := c.only chosen)
    rw [Course.only, Course.only, List.filter_append, List.filter_append, filter_retries,
      filter_map_fates chosen q.judge_ticket, Queue.filter_byEnd]
    exact settled
  | lose =>
    have lost := Shift.lose (q := q) (c := c.only chosen)
    rw [Course.only, Course.only, List.filter_append, filter_map_fates chosen (fun _ => rfl)]
    exact lost

/-- Nothing happens to items that neither wait nor are taken. -/
theorem Shift.eq_of_settled {history : List Fate} (shift : Shift q ⟨[], [], history⟩ c) :
    c = ⟨[], [], history⟩ := by
  cases shift with
  | stay => rfl
  | take idle split =>
    obtain ⟨rfl, rfl⟩ := List.nil_eq_append_iff.mp split
    simp
  | settle => simp [Queue.retries, Queue.byEnd]
  | lose => simp

/-- What a shift adds to the history comes at its end. -/
theorem Shift.exists_history (shift : c.Shift q c') : ∃ new, c'.history = c.history ++ new := by
  cases shift with
  | stay => exact ⟨[], (List.append_nil _).symm⟩
  | take idle split => exact ⟨_, rfl⟩
  | settle => exact ⟨_, rfl⟩
  | lose => exact ⟨_, rfl⟩

/-- A shift brings no item into play that was not waiting or taken before. -/
theorem Shift.tickets (shift : c.Shift q c') {P : Nat → Prop}
    (all : ∀ item ∈ c.queued ++ c.inFlight, P item.ticket) :
    (∀ item ∈ c'.queued ++ c'.inFlight, P item.ticket) ∧
      ∃ new, c'.history = c.history ++ new ∧ ∀ fate ∈ new, P fate.item.ticket := by
  cases shift with
  | stay => exact ⟨all, [], (List.append_nil _).symm, fun _ => False.elim ∘ List.not_mem_nil⟩
  | take idle split =>
    rename_i front rest
    rw [idle, List.append_nil, split] at all
    refine ⟨?_, _, rfl, ?_⟩
    · intro item member
      exact all item (List.mem_append.mpr (List.mem_append.mp member).symm)
    · intro fate member
      obtain ⟨item, taken, rfl⟩ := List.mem_map.mp member
      exact all item (List.mem_append_left rest taken)
  | settle =>
    refine ⟨?_, _, rfl, ?_⟩
    · intro item member
      rw [List.append_nil] at member
      rcases List.mem_append.mp member with waits | back
      · exact all item (List.mem_append_left _ waits)
      · obtain ⟨fate, judged, requeued⟩ := List.mem_filterMap.mp back
        obtain ⟨old, taken, rfl⟩ := List.mem_map.mp judged
        have same : (q.judge old).item = item := by
          cases fate : q.judge old <;> rw [fate] at requeued <;> cases requeued
          rfl
        rw [← same, Queue.judge_ticket]
        exact all old (List.mem_append_right _ taken)
    · intro fate member
      obtain ⟨item, ended, rfl⟩ := List.mem_map.mp member
      rw [Queue.judge_ticket]
      exact all item (List.mem_append_right _ ((Queue.perm_byEnd _).mem_iff.mp ended))
  | lose =>
    refine ⟨?_, _, rfl, ?_⟩
    · intro item member
      rw [List.append_nil] at member
      exact all item (List.mem_append_left _ member)
    · intro fate member
      obtain ⟨item, taken, rfl⟩ := List.mem_map.mp member
      exact all item (List.mem_append_right _ taken)

/-- Any number of shifts. -/
def Shifts (q : Queue) : Course → Course → Prop := Relation.ReflTransGen (Shift q)

namespace Shifts

theorem congr (same : q'.maxRetries = q.maxRetries) (shifts : c.Shifts q' c') :
    c.Shifts q c' := by
  induction shifts with
  | refl => exact .refl
  | tail _ shift ih => exact ih.tail (shift.congr same)

theorem only (shifts : c.Shifts q c') (chosen : Nat → Bool) :
    (c.only chosen).Shifts q (c'.only chosen) := by
  induction shifts with
  | refl => exact .refl
  | tail _ shift ih => exact ih.tail (shift.only chosen)

theorem eq_of_settled {history : List Fate} (shifts : Shifts q ⟨[], [], history⟩ c) :
    c = ⟨[], [], history⟩ := by
  induction shifts with
  | refl => rfl
  | tail _ shift ih =>
    subst ih
    exact shift.eq_of_settled

theorem exists_history (shifts : c.Shifts q c') : ∃ new, c'.history = c.history ++ new := by
  induction shifts with
  | refl => exact ⟨[], (List.append_nil _).symm⟩
  | tail _ shift ih =>
    obtain ⟨new, grown⟩ := ih
    obtain ⟨more, grown'⟩ := shift.exists_history
    exact ⟨new ++ more, by rw [grown', grown, List.append_assoc]⟩

end Shifts
end Course
end CacheDepot.WriteBehind
