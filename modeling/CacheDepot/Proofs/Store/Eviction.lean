import CacheDepot.Proofs.Store.Sweeping

/-!
# Who has to go

A write of a new key to a full store drops the entry that was used least recently: the entries
stand in the order of their last uses, and so in the order of the times of these, however many of
them fall into one millisecond. All other entries keep their value, their times and their order.
-/

namespace CacheDepot

/-- To take the front out of a list is to go on with its tail. -/
theorem filter_ne_head? {α : Type} [DecidableEq α] {l : List α} (distinct : l.Nodup) :
    l.filter (fun a => l.head? ≠ some a) = l.tail := by
  cases l with
  | nil => rfl
  | cons front rest =>
    obtain ⟨once, -⟩ := List.nodup_cons.mp distinct
    rw [List.filter_cons_of_neg (by simp), List.tail_cons]
    apply List.filter_eq_self.mpr
    intro other member
    have differs : front ≠ other := fun same => once (same ▸ member)
    simpa using differs

namespace Store

variable {s : Store} {key other : CacheKey} {now later : Nat}

/-! ## What a write drops -/

theorem fst_evict (s : Store) : s.evict.1 = s.recency.toList.head? := by
  rw [evict, Recency.evictOldest, Recency.toList]
  cases s.recency.order <;> rfl

theorem get?_evict (s : Store) (other : CacheKey) :
    s.evict.2.entries.get? other =
      if s.evict.1 = some other then none else s.entries.get? other := by
  rw [evict]
  split
  · rw [Assoc.get?_erase]
    simp only [Option.some.injEq, eq_comm]
  · rfl

/-- A write of a new key to a full store drops what stands first in the order of use. -/
theorem evicted_set (s : Store) (now : Nat) (key : CacheKey) (value : Json)
    (ttl : Option Duration) :
    (s.set now key value ttl).1.evicted =
      if s.entries.contains key = false ∧ s.capacity ≤ s.entries.size then
        s.recency.toList.head?
      else none := by
  rw [set]
  cases resident : s.entries.contains key with
  | true => rfl
  | false =>
    by_cases full : s.capacity ≤ s.entries.size
    · simp [full, fst_evict]
    · simp [full]

/-- A write leaves the entry of another key alone, unless it drops it. -/
theorem get?_set_of_ne (differs : other ≠ key) (s : Store) (now : Nat) (value : Json)
    (ttl : Option Duration) :
    (s.set now key value ttl).2.entries.get? other =
      if (s.set now key value ttl).1.evicted = some other then none
      else s.entries.get? other := by
  rw [set]
  dsimp only
  rw [Assoc.get?_insert_of_ne _ _ (Ne.symm differs)]
  split
  · exact s.get?_evict other
  · rfl

/-- Without the key that is dropped, the order of use is what it was. -/
theorem toList_evict (h : s.recency.Coherent) :
    s.evict.2.recency.Coherent ∧
      s.evict.2.recency.toList = s.recency.toList.filter fun other => s.evict.1 ≠ some other := by
  cases front : s.recency.toList with
  | nil =>
    have empty : s.recency.order = [] := List.map_eq_nil_iff.mp front
    have none : s.recency.evictOldest = none := by rw [Recency.evictOldest, empty]
    rw [evict, none]
    exact ⟨h, front⟩
  | cons victim rest =>
    obtain ⟨r', evicted, coherent, order, -⟩ := h.evictOldest_eq_some front
    have distinct : (victim :: rest).Nodup := front ▸ h.nodup_toList
    rw [evict, evicted]
    exact ⟨coherent, order.trans (filter_ne_head? distinct).symm⟩

/-- A write leaves the keys in their order, without the one it drops, and its own at the end. -/
theorem toList_set (h : s.recency.Coherent) (now : Nat) (key : CacheKey) (value : Json)
    (ttl : Option Duration) :
    (s.set now key value ttl).2.recency.toList = (s.recency.toList.filter fun other =>
      other ≠ key ∧ (s.set now key value ttl).1.evicted ≠ some other) ++ [key] := by
  rw [set]
  dsimp only
  split
  · obtain ⟨coherent, order⟩ := toList_evict h
    rw [coherent.toList_touch, order, List.filter_filter]
    simp
  · rw [h.toList_touch]
    simp

/-! ## The times of entries -/

/-- What is found after an operation was there before, at most read since, or has been written. -/
theorem get?_perform_cases {operation : StoreOperation} {e : Entry}
    (bound : (s.perform now operation).2.entries.get? key = some e) :
    (∃ old, s.entries.get? key = some old ∧ (e = old ∨ e = old.touch now)) ∨
      ∃ value ttl, operation = .set key value ttl ∧ e = .new now value (ttl.or s.defaultTtl) := by
  have read : ∀ own, (s.getEntry now own).2.entries.get? key = some e →
      ∃ old, s.entries.get? key = some old ∧ (e = old ∨ e = old.touch now) := by
    intro own bound
    rw [get?_getEntry] at bound
    split at bound
    · rename_i same
      rw [fst_getEntry] at bound
      obtain ⟨old, live, rfl⟩ := Option.map_eq_some_iff.mp bound
      exact ⟨old, same ▸ (peek_eq_some_iff.mp live).1, .inr rfl⟩
    · exact ⟨e, bound, .inl rfl⟩
  cases operation with
  | set own value ttl =>
    have bound : (s.set now own value ttl).2.entries.get? key = some e := bound
    by_cases same : key = own
    · rw [same, get?_set_self] at bound
      exact .inr ⟨value, ttl, by rw [same], (Option.some.inj bound).symm⟩
    · rw [get?_set_of_ne same] at bound
      split at bound
      · cases bound
      · exact .inl ⟨e, bound, .inl rfl⟩
  | get own => exact .inl (read own bound)
  | getEntry own => exact .inl (read own bound)
  | peek own => exact .inl ⟨e, bound, .inl rfl⟩
  | delete own =>
    have bound : (s.delete own).2.entries.get? key = some e := bound
    rw [get?_delete] at bound
    split at bound
    · cases bound
    · exact .inl ⟨e, bound, .inl rfl⟩
  | sweep =>
    have bound : (s.sweep now).2.entries.get? key = some e := bound
    rw [get?_sweep] at bound
    exact .inl ⟨e, (peek_eq_some_iff.mp bound).1, .inl rfl⟩
  | clear => cases bound

/-- Whether the times of all entries are in order, and none is later than the clock. -/
def Timely (now : Nat) (s : Store) : Prop :=
  ∀ key e, s.entries.get? key = some e → e.createdAt ≤ e.lastAccessed ∧ e.lastAccessed ≤ now

theorem Timely.perform (h : s.Timely now) (notBefore : now ≤ later) (operation : StoreOperation) :
    (s.perform later operation).2.Timely later := by
  intro key e bound
  rcases get?_perform_cases bound with ⟨old, was, rfl | rfl⟩ | ⟨value, ttl, -, rfl⟩
  · obtain ⟨created, accessed⟩ := h key e was
    exact ⟨created, Nat.le_trans accessed notBefore⟩
  · obtain ⟨created, accessed⟩ := h key old was
    exact ⟨Nat.le_trans created (Nat.le_max_left _ _),
      Nat.max_le.mpr ⟨Nat.le_trans accessed notBefore, Nat.le_refl _⟩⟩
  · exact ⟨Nat.le_refl _, Nat.le_refl _⟩

theorem Timely.run (h : s.Timely now) {operations : List (Nat × StoreOperation)}
    (late : ∀ o ∈ operations, now ≤ o.1)
    (monotone : operations.Pairwise fun o o' => o.1 ≤ o'.1) (notBefore : now ≤ later)
    (upTo : ∀ o ∈ operations, o.1 ≤ later) : (s.run operations).2.Timely later := by
  induction operations generalizing now s with
  | nil =>
    intro key e bound
    obtain ⟨created, accessed⟩ := h key e bound
    exact ⟨created, Nat.le_trans accessed notBefore⟩
  | cons o rest ih =>
    obtain ⟨first, ordered⟩ := List.pairwise_cons.mp monotone
    exact ih (h.perform (late o List.mem_cons_self) o.2) first ordered
      (upTo o List.mem_cons_self) fun o member => upTo o (List.mem_cons_of_mem _ member)

/-! ## The order of uses -/

end Store

/-- The key that an operation has used: one that was written, or that a read has found. -/
def StoreOperation.used? : StoreOperation → StoreReply → Option CacheKey
  | .set key _ _, _ => some key
  | .get key, .value found => found.map fun _ => key
  | .getEntry key, .entry found => found.map fun _ => key
  | _, _ => none

/-- The keys that a run has used, each as often as it was used. -/
def Store.uses (steps : List StoreStep) : List CacheKey :=
  steps.filterMap fun step => step.operation.used? step.reply

/-- Whether the last use of the one key came before the last use of the other one. -/
def UsedBefore (uses : List CacheKey) (key other : CacheKey) : Prop :=
  ∃ earlier later, uses = earlier ++ later ∧ key ∈ earlier ∧ key ∉ later ∧ other ∈ later

theorem UsedBefore.concat {uses : List CacheKey} {key other last : CacheKey}
    (before : UsedBefore uses key other) (differs : key ≠ last) :
    UsedBefore (uses ++ [last]) key other := by
  obtain ⟨earlier, later, rfl, used, notAgain, usedLater⟩ := before
  refine ⟨earlier, later ++ [last], List.append_assoc _ _ _, used, ?_,
    List.mem_append_left _ usedLater⟩
  simp [notAgain, differs]

theorem usedBefore_concat {uses : List CacheKey} {key last : CacheKey} (used : key ∈ uses)
    (differs : key ≠ last) : UsedBefore (uses ++ [last]) key last :=
  ⟨uses, [last], rfl, used, by simp [differs], List.mem_singleton_self last⟩

namespace UseList

variable {l : UseList} {key : CacheKey} {now later : Nat} {uses : List CacheKey}
  {entries part : List (CacheKey × Entry)}

/-- Entries in the order of the last uses of their keys, and of the times of these. -/
structure Chronological (now : Nat) (uses : List CacheKey) (entries : List (CacheKey × Entry)) :
    Prop where
  accessed : ∀ b ∈ entries, b.2.lastAccessed ≤ now
  sorted : entries.Pairwise fun b c => b.2.lastAccessed ≤ c.2.lastAccessed
  used : ∀ b ∈ entries, b.1 ∈ uses
  inOrder : entries.Pairwise fun b c => UsedBefore uses b.1 c.1

theorem chronological_nil : Chronological now [] [] := ⟨nofun, .nil, nofun, .nil⟩

namespace Chronological

theorem mono (h : Chronological now uses entries) (notBefore : now ≤ later) :
    Chronological later uses entries :=
  ⟨fun b member => Nat.le_trans (h.accessed b member) notBefore, h.sorted, h.used, h.inOrder⟩

theorem sublist (h : Chronological now uses entries) (kept : part.Sublist entries) :
    Chronological now uses part where
  accessed b member := h.accessed b (kept.subset member)
  sorted := h.sorted.sublist kept
  used b member := h.used b (kept.subset member)
  inOrder := h.inOrder.sublist kept

/-- A key that is used now comes after all others. -/
theorem push (h : Chronological now uses entries) (others : ∀ b ∈ entries, b.1 ≠ key) {e : Entry}
    (accessed : e.lastAccessed = now) :
    Chronological now (uses ++ [key]) (entries ++ [(key, e)]) where
  accessed := by
    intro b member
    rcases List.mem_append.mp member with old | new
    · exact h.accessed b old
    · obtain rfl := List.mem_singleton.mp new
      exact Nat.le_of_eq accessed
  sorted := by
    refine List.pairwise_append.mpr ⟨h.sorted, List.pairwise_singleton _ _, ?_⟩
    intro b old c new
    obtain rfl := List.mem_singleton.mp new
    exact accessed ▸ h.accessed b old
  used := by
    intro b member
    rcases List.mem_append.mp member with old | new
    · exact List.mem_append_left _ (h.used b old)
    · obtain rfl := List.mem_singleton.mp new
      exact List.mem_append_right _ List.mem_cons_self
  inOrder := by
    refine List.pairwise_append.mpr ⟨?_, List.pairwise_singleton _ _, ?_⟩
    · apply h.inOrder.imp_of_mem
      intro b c member _ before
      exact before.concat (others b member)
    · intro b old c new
      obtain rfl := List.mem_singleton.mp new
      exact usedBefore_concat (h.used b old) (others b old)

theorem getEntry (h : Chronological now uses l.entries) (key : CacheKey) :
    Chronological now (uses ++ ((l.getEntry now key).1.map fun _ => key).toList)
      (l.getEntry now key).2.entries := by
  have others : ∀ b ∈ l.without key, b.1 ≠ key := fun b member => by
    simpa using (List.mem_filter.mp member).2
  have kept : Chronological now uses (l.without key) := h.sublist List.filter_sublist
  rw [UseList.getEntry]
  cases found : l.lookup key with
  | none =>
    dsimp only [Option.map_none, Option.toList_none]
    rwa [List.append_nil]
  | some e =>
    dsimp only
    split
    · dsimp only [Option.map_none, Option.toList_none]
      rwa [List.append_nil]
    · obtain ⟨before, after, split, -⟩ := List.lookup_eq_some_iff.mp found
      have earlier : e.lastAccessed ≤ now := h.accessed (key, e) (by simp [split])
      exact kept.push others (Nat.max_eq_right earlier)

theorem perform (h : Chronological now uses l.entries) (notBefore : now ≤ later)
    (operation : StoreOperation) :
    Chronological later (uses ++ (operation.used? (l.perform later operation).1).toList)
      (l.perform later operation).2.entries := by
  have h := h.mono notBefore
  have unused {part : List (CacheKey × Entry)} (kept : part.Sublist l.entries) :
      Chronological later (uses ++ []) part := by
    rw [List.append_nil]
    exact h.sublist kept
  cases operation with
  | set key value ttl =>
    have entries := l.entries_set later key value ttl
    rw [UseList.perform, Prod.map_snd, id, entries]
    exact (h.sublist (l.makeRoom_sublist key)).push (fun b => ne_of_mem_makeRoom) rfl
  | get key =>
    have same : ((l.get later key).1.map fun _ => key) =
        (l.getEntry later key).1.map fun _ => key := Option.map_map _ _ _
    have read := h.getEntry key
    rw [← same] at read
    exact read
  | getEntry key => exact h.getEntry key
  | peek key => exact unused (List.Sublist.refl _)
  | delete key =>
    rw [UseList.perform, UseList.delete]
    split
    · exact unused List.filter_sublist
    · exact unused (List.Sublist.refl _)
  | sweep => exact unused List.filter_sublist
  | clear => exact unused (List.nil_sublist _)

end Chronological
end UseList

namespace Represents

variable {s : Store} {l : UseList} {n now later : Nat} {uses : List CacheKey}

/-- At the end of a run the entries stand in the order of the uses that the run has made. -/
theorem run_chronological (h : Represents s l) (bounded : l.Bounded n)
    (ticks : s.recency.nextTick.toNat ≤ n) {operations : List (Nat × StoreOperation)}
    (short : n + operations.length < UInt64.size)
    (ordered : UseList.Chronological now uses l.entries) (late : ∀ o ∈ operations, now ≤ o.1)
    (monotone : operations.Pairwise fun o o' => o.1 ≤ o'.1) (notBefore : now ≤ later)
    (upTo : ∀ o ∈ operations, o.1 ≤ later) :
    UseList.Chronological later (uses ++ Store.uses (s.steps operations))
      (l.run operations).2.entries := by
  induction operations generalizing s l n now uses with
  | nil =>
    rw [Store.steps, Store.uses, List.filterMap_nil, List.append_nil]
    exact ordered.mono notBefore
  | cons o rest ih =>
    obtain ⟨time, operation⟩ := o
    obtain ⟨first, monotone⟩ := List.pairwise_cons.mp monotone
    rw [List.length_cons] at short
    have room : s.recency.HasRoom := Nat.lt_of_le_of_lt (Nat.succ_le_succ ticks) (by omega)
    obtain ⟨reply, h', used⟩ := h.perform time room bounded (by omega) operation
    have ordered := ordered.perform (late _ List.mem_cons_self) operation
    rw [← reply] at ordered
    have ends := ih h' (bounded.perform time operation)
      (Nat.le_trans used (Nat.succ_le_succ ticks)) (by omega) ordered first monotone
      (upTo _ List.mem_cons_self) fun o member => upTo o (List.mem_cons_of_mem _ member)
    have split : Store.uses (s.steps ((time, operation) :: rest)) =
        (operation.used? (s.perform time operation).1).toList ++
          Store.uses ((s.perform time operation).2.steps rest) := by
      rw [Store.uses, Store.uses, Store.steps, List.filterMap_cons, StoreStep.reply]
      cases operation.used? (s.perform time operation).1 <;> rfl
    rw [split, ← List.append_assoc]
    exact ends

/-- What stands first was used before all others. -/
theorem head?_used_before (h : Represents s l) (ordered : UseList.Chronological now uses l.entries)
    {victim other : CacheKey} (first : s.recency.toList.head? = some victim) {oldest e : Entry}
    (was : s.entries.get? victim = some oldest) (differs : other ≠ victim)
    (bound : s.entries.get? other = some e) :
    oldest.lastAccessed ≤ e.lastAccessed ∧ UsedBefore uses victim other := by
  rw [h.order, List.head?_map] at first
  obtain ⟨b, front, rfl⟩ := Option.map_eq_some_iff.mp first
  obtain ⟨rest, split⟩ := List.head?_eq_some_iff.mp front
  have found : l.lookup b.1 = some b.2 :=
    UseList.lookup_eq_some_of_mem h.nodup (split ▸ List.mem_cons_self)
  rw [h.get?, found, Option.some.injEq] at was
  rw [h.get?] at bound
  obtain ⟨before, after, split', -⟩ := List.lookup_eq_some_iff.mp bound
  have member : (other, e) ∈ b :: rest := by simp [← split, split']
  have later := (List.mem_cons.mp member).resolve_left fun same => differs (congrArg Prod.fst same)
  have sorted := ordered.sorted
  have inOrder := ordered.inOrder
  rw [split] at sorted inOrder
  exact ⟨was ▸ (List.pairwise_cons.mp sorted).1 _ later, (List.pairwise_cons.mp inOrder).1 _ later⟩

end Represents

namespace Store

theorem limits_run (s : Store) (operations : List (Nat × StoreOperation)) :
    (s.run operations).2.capacity = s.capacity ∧
      (s.run operations).2.defaultTtl = s.defaultTtl := by
  induction operations generalizing s with
  | nil => exact ⟨rfl, rfl⟩
  | cons o rest ih =>
    obtain ⟨capacity, defaultTtl⟩ := s.limits_perform o.1 o.2
    obtain ⟨capacity', defaultTtl'⟩ := ih (s.perform o.1 o.2).2
    exact ⟨capacity'.trans capacity, defaultTtl'.trans defaultTtl⟩

/-- What a write drops was there. -/
theorem WithinCapacity.contains_evicted {s : Store} (h : s.WithinCapacity) {now : Nat}
    {key victim : CacheKey} {value : Json} {ttl : Option Duration}
    (evicted : (s.set now key value ttl).1.evicted = some victim) :
    s.entries.contains victim = true := by
  rw [evicted_set] at evicted
  split at evicted
  · rw [Recency.toList, List.head?_map] at evicted
    obtain ⟨b, first, rfl⟩ := Option.map_eq_some_iff.mp evicted
    have tracked := h.ranked.current b (List.mem_of_mem_head? first)
    exact h.tracked b.2 (by rw [Assoc.contains, tracked, Option.isSome_some])
  · cases evicted

/-- Who has to go. After any run whose clock does not go back, a store is not overfull and the
times of its entries are in order. A write drops an entry exactly if its key is not there and the
store is full; it drops one that is there, and all others keep their entries. As long as the ticks
do not wrap, the others keep their order as well, and the one that goes is the one whose last use
came first: no other entry was last used at an earlier time, and the last use of every other key
that is there came later in the run. -/
theorem run_set_drops_oldest (capacity : Nat) (defaultTtl : Option Duration)
    {operations : List (Nat × StoreOperation)}
    (monotone : operations.Pairwise fun o o' => o.1 ≤ o'.1) {now : Nat}
    (notBefore : ∀ o ∈ operations, o.1 ≤ now) :
    let s := ((new capacity defaultTtl).run operations).2
    s.size ≤ max capacity 1 ∧ s.Timely now ∧ ∀ key value ttl,
      let evicted := (s.set now key value ttl).1.evicted
      let s' := (s.set now key value ttl).2
      (evicted.isSome = true ↔ s.entries.contains key = false ∧ s.size = max capacity 1) ∧
      (∀ victim, evicted = some victim → s.entries.contains victim = true) ∧
      (∀ other, other ≠ key → s'.entries.get? other =
        if evicted = some other then none else s.entries.get? other) ∧
      (operations.length < UInt64.size →
        s'.recency.toList =
          (s.recency.toList.filter fun other => other ≠ key ∧ evicted ≠ some other) ++ [key] ∧
        ∀ victim oldest, evicted = some victim → s.entries.get? victim = some oldest →
          ∀ other e, other ≠ victim → s.entries.get? other = some e →
            oldest.lastAccessed ≤ e.lastAccessed ∧
              UsedBefore (uses ((new capacity defaultTtl).steps operations)) victim other) := by
  intro s
  have within : s.WithinCapacity := (withinCapacity_new capacity defaultTtl).run operations
  have limit : s.capacity = max capacity 1 := ((new capacity defaultTtl).limits_run operations).1
  have start : (new capacity defaultTtl).Timely 0 := nofun
  refine ⟨limit ▸ within.bounded, start.run (fun _ _ => Nat.zero_le _) monotone
    (Nat.zero_le now) notBefore, ?_⟩
  intro key value ttl evicted s'
  refine ⟨?_, fun victim => within.contains_evicted, fun other differs =>
    get?_set_of_ne differs s now value ttl, ?_⟩
  · have full : max capacity 1 ≤ s.size ↔ s.size = max capacity 1 :=
      ⟨fun atLeast => Nat.le_antisymm (limit ▸ within.bounded) atLeast,
        fun same => Nat.le_of_eq same.symm⟩
    have evicts : evicted.isSome = true ↔ ¬ s.HasRoomFor (.set key value ttl) :=
      within.evicts_iff now (.set key value ttl)
    rw [evicts, HasRoomFor, limit, not_or, Nat.not_lt, Bool.not_eq_true]
    exact and_congr_right fun _ => full
  · intro short
    have initial := represents_new capacity defaultTtl
    have bounded := UseList.bounded_new capacity defaultTtl
    obtain ⟨-, represents⟩ := initial.run bounded (Nat.le_refl 0) operations (by omega)
    have ordered := initial.run_chronological bounded (Nat.le_refl 0) (by omega)
      UseList.chronological_nil (fun _ _ => Nat.zero_le _) monotone (Nat.zero_le now) notBefore
    refine ⟨toList_set represents.coherent now key value ttl, ?_⟩
    intro victim oldest drops was other e differs bound
    have first : s.recency.toList.head? = some victim := by
      rw [show evicted = _ from evicted_set s now key value ttl] at drops
      split at drops
      · exact drops
      · cases drops
    exact represents.head?_used_before ordered first was differs bound

/-- Two entries that were written and used in the same millisecond. -/
def tiedRun : List (Nat × StoreOperation) :=
  [(1, .set ⟨"a"⟩ .null none), (1, .set ⟨"b"⟩ (.bool true) none), (1, .getEntry ⟨"a"⟩),
    (1, .get ⟨"c"⟩)]

/-- Their times do not tell them apart, and the one that was read stays. -/
theorem tiedRun_set_drops_oldest :
    let s := ((new 2 none).run tiedRun).2
    (tiedRun.Pairwise (fun o o' => o.1 ≤ o'.1) ∧ ∀ o ∈ tiedRun, o.1 ≤ 1) ∧
      tiedRun.length < UInt64.size ∧
      (s.set 1 ⟨"c"⟩ .null none).1.evicted = some ⟨"b"⟩ ∧
      ((s.entries.get? ⟨"b"⟩).map Entry.lastAccessed = some 1 ∧
        (s.entries.get? ⟨"a"⟩).map Entry.lastAccessed = some 1) ∧
      UsedBefore (uses ((new 2 none).steps tiedRun)) ⟨"b"⟩ ⟨"a"⟩ := by
  intro s
  have monotone : tiedRun.Pairwise fun o o' => o.1 ≤ o'.1 := by decide
  have notBefore : ∀ o ∈ tiedRun, o.1 ≤ 1 := by decide
  obtain ⟨-, -, writes⟩ := run_set_drops_oldest 2 none monotone notBefore
  obtain ⟨-, -, -, order⟩ := writes ⟨"c"⟩ .null none
  exact ⟨⟨monotone, notBefore⟩, by decide, rfl, ⟨rfl, rfl⟩,
    ((order (by decide)).2 ⟨"b"⟩ (.new 1 (.bool true) none) rfl rfl ⟨"a"⟩
      ((Entry.new 1 .null none).touch 1) (by decide) rfl).2⟩

end Store

end CacheDepot
