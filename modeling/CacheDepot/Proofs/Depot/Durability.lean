import CacheDepot.Proofs.Depot.Queue
import CacheDepot.Proofs.WriteBehind.Order

/-!
# Which value of a key stays

Writes to be persisted later are taken in the order in which they were issued. That does not make
the newest value of a key the last one that is persisted: an older one that failed goes behind
it, and an older one of the same batch may take longer. Nothing else can overwrite it.
-/

namespace CacheDepot

open WriteBehind (Backlog Course Fate Item Ledger Outlasts Race Verdict)

namespace WriteBehind

/-- The item that a fate is about if it is persisted and has this key. -/
def Fate.persistedUnder? (key : CacheKey) : Fate → Option Item
  | .persisted item => if item.key = key then some item else none
  | _ => none

/-- The persisted items with this key among fates. -/
def persistedOf (key : CacheKey) (history : List Fate) : List Item :=
  history.filterMap (Fate.persistedUnder? key)

theorem mem_persistedOf {key : CacheKey} {history : List Fate} {item : Item} :
    item ∈ persistedOf key history ↔ .persisted item ∈ history ∧ item.key = key := by
  rw [persistedOf, List.mem_filterMap]
  constructor
  · rintro ⟨fate, member, kept⟩
    cases fate with
    | persisted other =>
      by_cases same : other.key = key
      · obtain rfl : other = item := by simpa [Fate.persistedUnder?, same] using kept
        exact ⟨member, same⟩
      · simp [Fate.persistedUnder?, same] at kept
    | _ => cases kept
  · rintro ⟨member, same⟩
    exact ⟨_, member, by simp [Fate.persistedUnder?, same]⟩

theorem persistedOf_eq_nil {key : CacheKey} {history : List Fate}
    (undecided : WriteBehind.Undecided history) : persistedOf key history = [] := by
  rw [List.eq_nil_iff_forall_not_mem]
  intro item member
  exact undecided item (mem_persistedOf.mp member).1

theorem item_of_persistedUnder? {key : CacheKey} {fate : Fate} {item : Item}
    (picked : fate.persistedUnder? key = some item) : fate.item = item := by
  cases fate with
  | persisted other =>
    rw [Fate.persistedUnder?] at picked
    split at picked
    · cases picked
      rfl
    · simp at picked
  | _ => cases picked

theorem filter_persistedOf (key : CacheKey) (history : List Fate) (ticket : Nat) :
    (persistedOf key history).filter (fun item => item.ticket == ticket) =
      persistedOf key (history.filter fun fate => fate.item.ticket == ticket) := by
  induction history with
  | nil => rfl
  | cons fate rest ih =>
    rw [persistedOf] at ih ⊢
    cases picked : fate.persistedUnder? key with
    | none =>
      rw [List.filterMap_cons_none picked, ih, List.filter_cons]
      split
      · rw [persistedOf, persistedOf, List.filterMap_cons_none picked]
      · rfl
    | some item =>
      rw [List.filterMap_cons_some picked, List.filter_cons, List.filter_cons, ih,
        item_of_persistedUnder? picked]
      split
      · rw [persistedOf, persistedOf, List.filterMap_cons_some picked]
      · rfl

/-- No other item with its key is persisted after the item that is persisted last. -/
theorem Ledger.not_before_of_getLast? {items : List Item} {b : Backlog} (h : Ledger items b)
    {key : CacheKey} {final other : Item}
    (last : (persistedOf key b.course.history).getLast? = some final) (same : other.key = key) :
    ¬ [Fate.persisted final, .persisted other].Sublist b.course.history := by
  intro before
  obtain ⟨rest, split⟩ := List.getLast?_eq_some_iff.mp last
  have member : final ∈ persistedOf key b.course.history := by rw [split]; simp
  obtain ⟨persisted, finalKey⟩ := mem_persistedOf.mp member
  obtain ⟨pushed, -, n, -, history⟩ := h.exists_of_persisted persisted
  have once : (persistedOf key b.course.history).filter
      (fun item => item.ticket == final.ticket) = [final] := by
    have own : b.course.history.filter (fun fate => fate.item.ticket == final.ticket) =
        pushed.rounds n ++ [.attempted final] ++ [.persisted final] :=
      history.trans (List.append_cons ..)
    rw [filter_persistedOf, own, persistedOf, List.filterMap_append]
    have none : persistedOf key (pushed.rounds n ++ [final].map .attempted) = [] :=
      persistedOf_eq_nil ((pushed.undecided_rounds n).append_attempted [final])
    rw [persistedOf, List.map_cons, List.map_nil] at none
    rw [none]
    simp [Fate.persistedUnder?, finalKey]
  have early : final ∈ rest := by
    have pair : [final, other].Sublist (rest ++ [final]) := by
      have kept := before.filterMap (Fate.persistedUnder? key)
      rw [← split, persistedOf]
      simpa [Fate.persistedUnder?, finalKey, same] using kept
    obtain ⟨front, back, eq, inRest, inLast⟩ := List.sublist_append_iff.mp pair
    cases front with
    | nil =>
      rw [List.nil_append] at eq
      exact absurd inLast.length_le (by simp [← eq])
    | cons first tail =>
      rw [List.cons_append, List.cons.injEq] at eq
      exact inRest.subset (by simp [eq.1])
  have none : rest.filter (fun item => item.ticket == final.ticket) = [] := by
    rw [split, List.filter_append, List.filter_cons_of_pos (by simp)] at once
    simpa using once
  have kept : final ∈ rest.filter fun item => item.ticket == final.ticket :=
    List.mem_filter.mpr ⟨early, beq_self_eq_true _⟩
  rw [none] at kept
  simp at kept

end WriteBehind

namespace Depot

variable {d : Depot}

/-- The items with this key that were persisted, the earliest first. -/
def durable (d : Depot) (key : CacheKey) : List Item :=
  WriteBehind.persistedOf key d.backlog.course.history

/-- The item that a write adds after these actions. -/
def written (before : List (Nat × Action)) (now : Nat) (key : CacheKey) (value : Json)
    (persist : Persist) : Item :=
  ⟨(issued 0 before).length, key, value, persist, now, 0⟩

/-- The history of the queue only grows. -/
theorem exists_history_run (h : d.backlog.Guarded) (actions : List (Nat × Action)) :
    ∃ new, (d.run actions).backlog.course.history = d.backlog.course.history ++ new := by
  induction actions generalizing d with
  | nil => exact ⟨[], (List.append_nil _).symm⟩
  | cons first rest ih =>
    have on := act_onward h first.1 first.2
    obtain ⟨new, grown⟩ := on.course.exists_history
    obtain ⟨more, grown'⟩ := ih on.guarded
    have same : (first.2.pushInto first.1 d.backlog).course.history = d.backlog.course.history := by
      unfold Action.pushInto
      split <;> rfl
    rw [same] at grown
    exact ⟨new ++ more, by rw [← List.append_assoc, ← grown]; exact grown'⟩

/-- How an item stands to one that was pushed before it, after everything that follows. -/
theorem verdict_run {items : List Item} (h : Ledger items d.backlog) {older : Item}
    (member : older ∈ items) {a : Action} {key : CacheKey} {value : Json} {persist : Persist}
    (pushes : a.pushed? = some (key, value, persist)) (now : Nat)
    (after : List (Nat × Action)) :
    Verdict older (d.backlog.queue.newItem now key value persist)
      (d.backlog.course.only fun t => t == older.ticket || t == d.backlog.queue.pushed).history
      (((d.act now a).run after).backlog.course.only fun t =>
        t == older.ticket || t == d.backlog.queue.pushed) := by
  have early : older.ticket < d.backlog.queue.pushed := h.pushed ▸ h.ticket_lt member
  have on := act_onward h.guarded now a
  rw [Action.pushInto, pushes] at on
  have known : ∀ t, (t == older.ticket || t == d.backlog.queue.pushed) = true →
      t < (d.act now a).backlog.queue.pushed := by
    intro t chosen
    have pushed : (d.act now a).backlog.queue.pushed = d.backlog.queue.pushed + 1 := on.pushed
    rw [Bool.or_eq_true, beq_iff_eq, beq_iff_eq] at chosen
    omega
  have later := only_run on.guarded known after
  have shifts := Relation.ReflTransGen.trans (on.course.only _) (later.congr on.maxRetries)
  have race := (h.race member now key value persist).shifts (Nat.ne_of_lt early) shifts
  rw [Backlog.only_push] at race
  exact race

/-- An older item that is persisted last, though the one that was pushed after it is persisted too,
was put back behind that one or outlasted it. -/
theorem putBack_or_outlasts {items : List Item} (h : Ledger items d.backlog) {older : Item}
    (member : older ∈ items) {a : Action} {key : CacheKey} {value : Json} {persist : Persist}
    (pushes : a.pushed? = some (key, value, persist)) (now : Nat) (after : List (Nat × Action))
    {m n : Nat} (stays : (((d.act now a).run after).durable key).getLast? = some (older.after m))
    (persisted : .persisted ((d.backlog.queue.newItem now key value persist).after n) ∈
      ((d.act now a).run after).backlog.course.history) :
    (∃ k new, ((d.act now a).run after).backlog.course.history = d.backlog.course.history ++ new ∧
        .requeued (older.after k) ∈ new) ∨
      ∃ n, Outlasts ((d.act now a).run after).backlog.course.history (older.after m)
        ((d.backlog.queue.newItem now key value persist).after n) := by
  obtain ⟨done, -⟩ := WriteBehind.mem_persistedOf.mp (List.mem_of_getLast? stays)
  have ledger : Ledger (items ++ issued items.length ((now, a) :: after))
      ((d.act now a).run after).backlog := ledger_run h ((now, a) :: after)
  cases verdict_run h member pushes now after with
  | race race =>
    have before := race.sublist
      (List.mem_filter.mpr ⟨done, by simp [Fate.item]⟩)
      (List.mem_filter.mpr ⟨persisted, by simp [Fate.item, WriteBehind.Queue.newItem]⟩)
    exact absurd (before.trans List.filter_sublist) (ledger.not_before_of_getLast? stays rfl)
  | putBack grown requeued =>
    rename_i k new
    obtain ⟨full, grown'⟩ := exists_history_run h.guarded ((now, a) :: after)
    refine .inl ⟨k, full, grown', ?_⟩
    have chosen : new = full.filter fun fate =>
        fate.item.ticket == older.ticket || fate.item.ticket == d.backlog.queue.pushed := by
      refine List.append_cancel_left (grown.symm.trans ?_)
      exact (congrArg _ grown').trans (List.filter_append ..)
    rw [chosen] at requeued
    exact (List.mem_filter.mp requeued).1
  | outlasts outlasts =>
    rename_i m' n'
    have full := outlasts.mono List.filter_sublist
    have same : older.after m' = older.after m :=
      ledger.eq_of_persisted done (full.ended.subset (by simp)) rfl
    exact .inr ⟨n', same ▸ full⟩

/-- Whenever the newest write of a key has been persisted, the last persisted write of the key is
that one, unless it is an older one that was put back after the newest was issued, or one whose
successful attempt ran beside that of the newest and took longer. -/
theorem exists_last_persisted {batchSize maxRetries : Nat}
    (fresh : d.backlog = .new batchSize maxRetries) (before after : List (Nat × Action))
    (now : Nat) (store : String) (key : CacheKey) (value : Json) (ttl : Option Duration)
    (batch : Nat) (persist : Persist)
    (newest : ∀ item ∈ issued ((issued 0 before).length + 1) after, item.key ≠ key) :
    let issuing := d.run before
    let last :=
      issuing.run ((now, .start (.writeBehind store key value ttl batch persist)) :: after)
    let item := written before now key value persist
    (∃ n, .persisted (item.after n) ∈ last.backlog.course.history) →
    ∃ final, (last.durable key).getLast? = some final ∧
      ((∃ n, final = item.after n) ∨
        ∃ older ∈ issued 0 before, older.key = key ∧ ∃ m, final = older.after m ∧
          ((∃ k new, last.backlog.course.history = issuing.backlog.course.history ++ new ∧
              .requeued (older.after k) ∈ new) ∨
            ∃ n, Outlasts last.backlog.course.history final (item.after n))) := by
  intro issuing last item persisted
  obtain ⟨n, persisted⟩ := persisted
  have ledger : Ledger (issued 0 before) issuing.backlog := by
    have empty : Ledger [] d.backlog := fresh ▸ .new batchSize maxRetries
    exact ledger_run empty before
  have ledger' := ledger_run ledger
    ((now, .start (.writeBehind store key value ttl batch persist)) :: after)
  have item_eq : issuing.backlog.queue.newItem now key value persist = item := by
    simp only [WriteBehind.Queue.newItem, ledger.pushed, item, written]
  have kept : item.after n ∈ last.durable key := WriteBehind.mem_persistedOf.mpr ⟨persisted, rfl⟩
  obtain ⟨final, final_eq⟩ : ∃ final, (last.durable key).getLast? = some final :=
    ⟨_, List.getLast?_eq_some_getLast (List.ne_nil_of_mem kept)⟩
  refine ⟨final, final_eq, ?_⟩
  obtain ⟨done, sameKey⟩ := WriteBehind.mem_persistedOf.mp (List.mem_of_getLast? final_eq)
  obtain ⟨older, member, m, rfl, -⟩ := ledger'.exists_of_persisted done
  have split : issued (issued 0 before).length
      ((now, .start (.writeBehind store key value ttl batch persist)) :: after) =
        item :: issued ((issued 0 before).length + 1) after := rfl
  rw [split, List.mem_append, List.mem_cons] at member
  rcases member with member | rfl | member
  · refine .inr ⟨older, member, sameKey, m, rfl, ?_⟩
    rw [← item_eq] at persisted ⊢
    exact putBack_or_outlasts ledger member rfl now after final_eq persisted
  · exact .inl ⟨m, rfl⟩
  · exact absurd sameKey (newest older member)

/-- At the end of the run all is persisted that was written, and the last that was persisted is not
what was written last. -/
structure EndsOlder (d : Depot) (actions : List (Nat × Action)) (key : CacheKey) : Prop where
  empty : (d.run actions).backlog.queue.items = []
  idle : (d.run actions).backlog.queue.draining = false
  all : ((d.run actions).durable key).length = (issued 0 actions).length
  older : (((d.run actions).durable key).getLast?).map Item.ticket ≠
    ((issued 0 actions).getLast?).map Item.ticket

/-- A write that fails once. -/
def failingWrite : Nat × Action :=
  (0, .start (.writeBehind "default" ⟨"k"⟩ (.string "old") none 10
    ⟨"a", [{ failure := some { message := "down" } }, {}]⟩))

/-- Two writes of one key, of which the first fails once. -/
def retriedWrites : List (Nat × Action) :=
  [failingWrite, (0, .start (.writeBehind "default" ⟨"k"⟩ (.string "new") none 10 ⟨"b", []⟩)),
    (0, .start .flush)]

/-- Two writes of one key, of which the first takes longer. -/
def racingWrites : List (Nat × Action) :=
  [(0, .start (.writeBehind "default" ⟨"k"⟩ (.string "old") none 10 ⟨"a", [{ delay := 20 }]⟩)),
    (0, .start (.writeBehind "default" ⟨"k"⟩ (.string "new") none 10 ⟨"b", []⟩)),
    (0, .start .flush), (20, .resume 2)]

/-- The older write can stay in both ways: put back behind the newer one, which in batches of one
was then taken alone, and outlasting it within a batch. -/
theorem endsOlder_both_ways :
    (∃ d, Depot.new 0 ⟨9, none, none⟩ ⟨1, 3, none⟩ = .ok d ∧ d.EndsOlder retriedWrites ⟨"k"⟩) ∧
      ∃ d, Depot.new 0 ⟨9, none, none⟩ ⟨10, 3, none⟩ = .ok d ∧ d.EndsOlder racingWrites ⟨"k"⟩ :=
  ⟨⟨_, rfl, rfl, rfl, rfl, by decide⟩, ⟨_, rfl, rfl, rfl, rfl, by decide⟩⟩

/-- A depot in which both are persisted, one at a time. -/
def retriedDepot : Depot :=
  ((Depot.forQueue 1 3).run [failingWrite]).run
    ((0, .start (.writeBehind "default" ⟨"k"⟩ (.string "new") none 10 ⟨"b", []⟩)) ::
      [(0, .start .flush)])

/-- What was persisted last there was put back after the other write was issued. -/
theorem retriedDepot_last_persisted :
    ∃ final, (retriedDepot.durable ⟨"k"⟩).getLast? = some final ∧
      ((∃ n, final = (written [failingWrite] 0 ⟨"k"⟩ (.string "new") ⟨"b", []⟩).after n) ∨
        ∃ older ∈ issued 0 [failingWrite], older.key = ⟨"k"⟩ ∧ ∃ m, final = older.after m ∧
          ((∃ k new, retriedDepot.backlog.course.history =
                ((Depot.forQueue 1 3).run [failingWrite]).backlog.course.history ++ new ∧
              .requeued (older.after k) ∈ new) ∨
            ∃ n, Outlasts retriedDepot.backlog.course.history final
              ((written [failingWrite] 0 ⟨"k"⟩ (.string "new") ⟨"b", []⟩).after n))) := by
  have first : (retriedDepot.durable ⟨"k"⟩).head? =
      some ⟨1, ⟨"k"⟩, .string "new", ⟨"b", []⟩, 0, 0⟩ := rfl
  have persisted := (WriteBehind.mem_persistedOf.mp (List.mem_of_head? first)).1
  exact exists_last_persisted rfl [failingWrite] [(0, .start .flush)] 0 "default" ⟨"k"⟩
    (.string "new") none 10 ⟨"b", []⟩ (by simp [issued, Action.pushed?]) ⟨0, persisted⟩

end Depot
end CacheDepot
