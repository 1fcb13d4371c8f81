import CacheDepot.Proofs.Recency
import CacheDepot.Proofs.Store.UseList

/-!
# Stores behave like one list

A store finds its entries through a map, the next key to drop through an order of ticks, and the
tick of a key through a second map. `Represents` says that these agree with each other and with a
`UseList`. Every operation keeps it and replies what the list replies, so a whole run of a store
shows what the run of the list shows.
-/

namespace CacheDepot

/-! ## Counters that do not wrap -/

namespace Counters

variable {c : Counters}

theorem toNat_add_of_room {x y : UInt64} (room : x.toNat + y.toNat < UInt64.size) :
    (x + y).toNat = x.toNat + y.toNat := by
  rw [UInt64.toNat_add]
  exact Nat.mod_eq_of_lt room

theorem tally_hit (room : c.tally.hits + 1 < UInt64.size) :
    c.hit.tally = { c.tally with hits := c.tally.hits + 1 } :=
  congrArg (fun hits => { c.tally with hits }) (toNat_add_of_room (y := 1) room)

theorem tally_miss (room : c.tally.misses + 1 < UInt64.size) :
    c.miss.tally = { c.tally with misses := c.tally.misses + 1 } :=
  congrArg (fun misses => { c.tally with misses }) (toNat_add_of_room (y := 1) room)

theorem tally_set (room : c.tally.sets + 1 < UInt64.size) :
    c.set.tally = { c.tally with sets := c.tally.sets + 1 } :=
  congrArg (fun sets => { c.tally with sets }) (toNat_add_of_room (y := 1) room)

theorem tally_delete (room : c.tally.deletes + 1 < UInt64.size) :
    c.delete.tally = { c.tally with deletes := c.tally.deletes + 1 } :=
  congrArg (fun deletes => { c.tally with deletes }) (toNat_add_of_room (y := 1) room)

theorem tally_evict (room : c.tally.evictions + 1 < UInt64.size) :
    c.evict.tally = { c.tally with evictions := c.tally.evictions + 1 } :=
  congrArg (fun evictions => { c.tally with evictions }) (toNat_add_of_room (y := 1) room)

theorem tally_expire {n : Nat} (room : c.tally.expirations + n < UInt64.size) :
    (c.expire n).tally = { c.tally with expirations := c.tally.expirations + n } := by
  have small : (UInt64.ofNat n).toNat = n := by
    rw [UInt64.toNat_ofNat']
    exact Nat.mod_eq_of_lt (Nat.lt_of_le_of_lt (Nat.le_add_left n _) room)
  have sum : (c.expirations + UInt64.ofNat n).toNat = c.expirations.toNat + n := by
    rw [toNat_add_of_room (by rwa [small]), small]
  exact congrArg (fun expirations => { c.tally with expirations }) sum

end Counters

/-! ## The relation and what keeps it -/

/-- The indexes of the store agree, and together they are the list. -/
structure Represents (s : Store) (l : UseList) : Prop where
  coherent : s.recency.Coherent
  order : s.recency.toList = l.entries.map Prod.fst
  bindings : s.entries.bindings.Perm l.entries
  tally : s.counters.tally = l.tally
  capacity : s.capacity = l.capacity
  defaultTtl : s.defaultTtl = l.defaultTtl

namespace Represents

variable {s : Store} {l : UseList} {key : CacheKey}

theorem nodup (h : Represents s l) : (l.entries.map Prod.fst).Nodup :=
  h.order ▸ h.coherent.nodup_toList

theorem size (h : Represents s l) : s.entries.size = l.entries.length := h.bindings.length_eq

theorem get? (h : Represents s l) (key : CacheKey) : s.entries.get? key = l.lookup key := by
  cases found : l.lookup key with
  | some e =>
    obtain ⟨before, after, split, -⟩ := List.lookup_eq_some_iff.mp found
    have member : (key, e) ∈ l.entries := by simp [split]
    exact Assoc.get?_eq_some_iff.mpr (h.bindings.mem_iff.mpr member)
  | none =>
    rw [Assoc.get?_eq_none_iff, Assoc.keys, (h.bindings.map Prod.fst).mem_iff]
    rw [UseList.lookup, List.lookup_eq_none_iff] at found
    intro member
    obtain ⟨b, held, same⟩ := List.mem_map.mp member
    simpa [same] using found b held

/-- An entry written under a key, which becomes the most recently used one. -/
theorem insert (h : Represents s l) (room : s.recency.HasRoom) (key : CacheKey) (e : Entry)
    {c : Counters} {t : Tally} (counted : c.tally = t) :
    Represents
      { s with entries := s.entries.insert key e, recency := s.recency.touch key, counters := c }
      { l with entries := l.without key ++ [(key, e)], tally := t } where
  coherent := h.coherent.touch room key
  order := by
    rw [h.coherent.toList_touch, h.order, UseList.without, List.filter_map, List.map_append]
    rfl
  bindings := (s.entries.bindings_insert_perm key e).trans ((h.bindings.filter _).append_right _)
  tally := counted
  capacity := h.capacity
  defaultTtl := h.defaultTtl

/-- A key taken out of all indexes. -/
theorem erase (h : Represents s l) (key : CacheKey) {c : Counters} {t : Tally}
    (counted : c.tally = t) :
    Represents
      { s with entries := s.entries.erase key, recency := s.recency.remove key, counters := c }
      { l with entries := l.without key, tally := t } where
  coherent := h.coherent.remove key
  order := by
    rw [h.coherent.toList_remove, h.order, UseList.without, List.filter_map]
    rfl
  bindings := h.bindings.filter _
  tally := counted
  capacity := h.capacity
  defaultTtl := h.defaultTtl

/-- A full store drops the front of the list. -/
theorem evict (h : Represents s l) {b : CacheKey × Entry} {rest : List (CacheKey × Entry)}
    (front : l.entries = b :: rest) :
    ∃ s' : Store, s.evict = (some b.1, s') ∧
      Represents s' { l with entries := rest, tally := s.counters.evict.tally } ∧
      s'.counters = s.counters.evict ∧ s'.recency.nextTick = s.recency.nextTick := by
  have oldest : s.recency.toList = b.1 :: rest.map Prod.fst := by rw [h.order, front]; rfl
  obtain ⟨recency, evicted, coherent, order, ticks⟩ := h.coherent.evictOldest_eq_some oldest
  refine ⟨{ s with entries := s.entries.erase b.1, recency, counters := s.counters.evict },
    by simp [Store.evict, evicted], ⟨coherent, order, ?_, rfl, h.capacity, h.defaultTtl⟩, rfl,
    ticks⟩
  have others : (b :: rest).filter (fun c => c.1 ≠ b.1) = rest := by
    have distinct := List.nodup_cons.mp (front ▸ h.nodup)
    rw [List.filter_cons_of_neg (by simp)]
    apply List.filter_eq_self.mpr
    intro c member
    have differs : c.1 ≠ b.1 := fun same => distinct.1 (same ▸ List.mem_map_of_mem member)
    simpa using differs
  have kept := h.bindings.filter (fun c => decide (c.1 ≠ b.1))
  rw [front, others] at kept
  exact kept

theorem clear (h : Represents s l) : Represents s.clear l.clear where
  coherent := s.recency.coherent_clear
  order := rfl
  bindings := .nil
  tally := h.tally
  capacity := h.capacity
  defaultTtl := h.defaultTtl

/-- Keys taken out one after the other. -/
theorem eraseAll (h : Represents s l) (keys : List CacheKey) {c : Counters} {t : Tally}
    (counted : c.tally = t) :
    Represents
      { s with
        entries := keys.foldl Assoc.erase s.entries
        recency := keys.foldl Recency.remove s.recency
        counters := c }
      { l with entries := l.entries.filter fun b => b.1 ∉ keys, tally := t } := by
  induction keys generalizing s l with
  | nil =>
    have all : l.entries.filter (fun b => b.1 ∉ ([] : List CacheKey)) = l.entries :=
      List.filter_eq_self.mpr fun b _ => by simp
    rw [all]
    exact ⟨h.coherent, h.order, h.bindings, counted, h.capacity, h.defaultTtl⟩
  | cons key rest ih =>
    have split : l.entries.filter (fun b => b.1 ∉ key :: rest) =
        (l.without key).filter fun b => b.1 ∉ rest := by
      rw [UseList.without, List.filter_filter]
      exact List.filter_congr fun b _ => by simp [Bool.and_comm]
    rw [split]
    exact ih (h.erase key counted)

/-- The keys that a sweep takes out are those of the expired entries of the list. -/
theorem mem_expiredKeys (h : Represents s l) {now : Nat} {b : CacheKey × Entry}
    (member : b ∈ l.entries) : b.1 ∈ s.expiredKeys now ↔ b.2.isExpired now = true := by
  simp only [Store.expiredKeys, List.mem_map, List.mem_filter, h.bindings.mem_iff]
  constructor
  · rintro ⟨c, ⟨held, expired⟩, same⟩
    obtain rfl := List.inj_on_of_nodup_map h.nodup held member same
    exact expired
  · intro expired
    exact ⟨b, ⟨member, expired⟩, rfl⟩

end Represents

/-! ## What each write comes to -/

section Set

variable {key : CacheKey} (now : Nat) (value : Json) (ttl : Option Duration)

theorem Store.set_of_resident {s : Store} (resident : s.entries.contains key = true) :
    s.set now key value ttl = (⟨none, true⟩, { s with
      entries := s.entries.insert key (.new now value (ttl.or s.defaultTtl))
      recency := s.recency.touch key
      counters := s.counters.set }) := by
  simp [Store.set, resident]

theorem Store.set_of_room {s : Store} (absent : s.entries.contains key = false)
    (room : s.entries.size < s.capacity) :
    s.set now key value ttl = (⟨none, false⟩, { s with
      entries := s.entries.insert key (.new now value (ttl.or s.defaultTtl))
      recency := s.recency.touch key
      counters := s.counters.set }) := by
  simp [Store.set, absent, Nat.not_le.mpr room]

theorem Store.set_of_full {s s' : Store} {victim : CacheKey}
    (absent : s.entries.contains key = false) (full : s.capacity ≤ s.entries.size)
    (evicted : s.evict = (some victim, s')) :
    s.set now key value ttl = (⟨some victim, false⟩, { s' with
      entries := s'.entries.insert key (.new now value (ttl.or s'.defaultTtl))
      recency := s'.recency.touch key
      counters := s'.counters.set }) := by
  simp [Store.set, absent, full, evicted]

variable {l : UseList}

theorem UseList.set_of_resident {e : Entry} (found : l.lookup key = some e) :
    l.set now key value ttl = (⟨none, true⟩, { l with
      entries := l.without key ++ [(key, .new now value (ttl.or l.defaultTtl))]
      tally := { l.tally with sets := l.tally.sets + 1 } }) := by
  simp [UseList.set, found]

theorem UseList.set_of_room (absent : l.lookup key = none)
    (room : l.entries.length < l.capacity) :
    l.set now key value ttl = (⟨none, false⟩, { l with
      entries := l.without key ++ [(key, .new now value (ttl.or l.defaultTtl))]
      tally := { l.tally with sets := l.tally.sets + 1 } }) := by
  simp [UseList.set, absent, room, UseList.without_of_lookup_eq_none absent]

theorem UseList.set_of_full (absent : l.lookup key = none) (full : l.capacity ≤ l.entries.length)
    {b : CacheKey × Entry} {rest : List (CacheKey × Entry)} (front : l.entries = b :: rest) :
    l.set now key value ttl = (⟨some b.1, false⟩, { l with
      entries := rest ++ [(key, .new now value (ttl.or l.defaultTtl))]
      tally :=
        { l.tally with sets := l.tally.sets + 1, evictions := l.tally.evictions + 1 } }) := by
  simpa [UseList.set, absent, front] using full

end Set

/-! ## The operations -/

namespace Represents

variable {s : Store} {l : UseList} {n : Nat} (now : Nat) (key : CacheKey)

/-- A write replies what the list replies, and uses up one tick. -/
theorem set (h : Represents s l) (room : s.recency.HasRoom) (bounded : l.Bounded n)
    (short : n + 1 < UInt64.size) (value : Json) (ttl : Option Duration) :
    (s.set now key value ttl).1 = (l.set now key value ttl).1 ∧
      Represents (s.set now key value ttl).2 (l.set now key value ttl).2 ∧
      (s.set now key value ttl).2.recency.nextTick = s.recency.nextTick + 1 := by
  obtain ⟨reads, sets, left⟩ := bounded
  have resident : s.entries.contains key = (l.lookup key).isSome := by
    rw [Assoc.contains, h.get?]
  have counted : s.counters.set.tally = { l.tally with sets := l.tally.sets + 1 } := by
    rw [← h.tally] at sets ⊢
    exact Counters.tally_set (by omega)
  have written := h.insert room key (.new now value (ttl.or s.defaultTtl)) counted
  rw [h.defaultTtl] at written
  cases found : l.lookup key with
  | some e =>
    rw [found] at resident
    rw [Store.set_of_resident now value ttl resident, UseList.set_of_resident now value ttl found,
      h.defaultTtl]
    exact ⟨rfl, written, rfl⟩
  | none =>
    rw [found] at resident
    by_cases full : l.capacity ≤ l.entries.length
    · have positive := l.positive
      obtain ⟨b, rest, front⟩ := List.exists_cons_of_length_pos (by omega : 0 < l.entries.length)
      obtain ⟨s', evicted, h', counters, ticks⟩ := h.evict front
      have evictions : s.counters.evict.tally =
          { l.tally with evictions := l.tally.evictions + 1 } := by
        rw [← h.tally] at sets left ⊢
        exact Counters.tally_evict (by omega)
      have counted' : s'.counters.set.tally = { l.tally with
          sets := l.tally.sets + 1, evictions := l.tally.evictions + 1 } := by
        rw [counters, Counters.tally_set (by rw [evictions]; simp only; omega), evictions]
      have written' := h'.insert (by rwa [Recency.HasRoom, ticks])
        key (.new now value (ttl.or s'.defaultTtl)) counted'
      have absent : ({ l with entries := rest, tally := s.counters.evict.tally } : UseList).lookup
          key = none := by
        rw [UseList.lookup, front, List.lookup_eq_none_iff] at found
        exact List.lookup_eq_none_iff.mpr fun c member => found c (List.mem_cons_of_mem b member)
      rw [UseList.without_of_lookup_eq_none absent, h'.defaultTtl] at written'
      rw [Store.set_of_full now value ttl resident (by rw [h.size, h.capacity]; exact full) evicted,
        UseList.set_of_full now value ttl found full front, h'.defaultTtl]
      exact ⟨rfl, written', by rw [← ticks]; rfl⟩
    · rw [Store.set_of_room now value ttl resident (by rw [h.size, h.capacity]; omega),
        UseList.set_of_room now value ttl found (by omega), h.defaultTtl]
      exact ⟨rfl, written, rfl⟩

/-- A read replies what the list replies, and uses up a tick if it finds a live entry. -/
theorem getEntry (h : Represents s l) (room : s.recency.HasRoom) (bounded : l.Bounded n)
    (short : n + 1 < UInt64.size) :
    (s.getEntry now key).1 = (l.getEntry now key).1 ∧
      Represents (s.getEntry now key).2 (l.getEntry now key).2 ∧
      (s.getEntry now key).2.recency.nextTick.toNat ≤ s.recency.nextTick.toNat + 1 := by
  obtain ⟨reads, sets, left⟩ := bounded
  have missed : s.counters.miss.tally = { l.tally with misses := l.tally.misses + 1 } := by
    rw [← h.tally] at reads ⊢
    exact Counters.tally_miss (by omega)
  unfold Store.getEntry UseList.getEntry
  rw [h.get?]
  cases found : l.lookup key with
  | none =>
    exact ⟨rfl, ⟨h.coherent, h.order, h.bindings, missed, h.capacity, h.defaultTtl⟩,
      Nat.le_succ _⟩
  | some e =>
    by_cases expired : e.isExpired now
    · have shorter := UseList.length_without_lt found
      have counted : (s.counters.expire 1).miss.tally = { l.tally with
          misses := l.tally.misses + 1, expirations := l.tally.expirations + 1 } := by
        rw [← h.tally] at reads sets left ⊢
        rw [Counters.tally_miss, Counters.tally_expire (by omega)]
        rw [Counters.tally_expire (by omega)]
        simp only
        omega
      simp only [expired, if_true]
      refine ⟨trivial, h.erase key counted, ?_⟩
      rw [Recency.remove_nextTick]
      exact Nat.le_succ _
    · have counted : s.counters.hit.tally = { l.tally with hits := l.tally.hits + 1 } := by
        rw [← h.tally] at reads ⊢
        exact Counters.tally_hit (by omega)
      simp only [expired, Bool.false_eq_true, if_false]
      have ticks := Recency.toNat_touch_nextTick room key
      exact ⟨trivial, h.insert room key _ counted, Nat.le_of_eq ticks⟩

theorem peek (h : Represents s l) : s.peek now key = l.peek now key := by
  rw [Store.peek, UseList.peek, h.get?]

/-- A removal replies what the list replies. -/
theorem delete (h : Represents s l) (bounded : l.Bounded n) (short : n + 1 < UInt64.size) :
    (s.delete key).1 = (l.delete key).1 ∧ Represents (s.delete key).2 (l.delete key).2 ∧
      (s.delete key).2.recency.nextTick = s.recency.nextTick := by
  obtain ⟨reads, sets, left⟩ := bounded
  unfold Store.delete UseList.delete
  rw [Assoc.contains, h.get?]
  cases found : l.lookup key with
  | none => exact ⟨rfl, h, rfl⟩
  | some e =>
    have shorter := UseList.length_without_lt found
    have counted : s.counters.delete.tally = { l.tally with deletes := l.tally.deletes + 1 } := by
      rw [← h.tally] at sets left ⊢
      exact Counters.tally_delete (by omega)
    exact ⟨rfl, h.erase key counted, s.recency.remove_nextTick key⟩

/-- A sweep counts and keeps what the list counts and keeps. -/
theorem sweep (h : Represents s l) (bounded : l.Bounded n) (short : n + 1 < UInt64.size) :
    (s.sweep now).1 = (l.sweep now).1 ∧ Represents (s.sweep now).2 (l.sweep now).2 ∧
      (s.sweep now).2.recency.nextTick = s.recency.nextTick := by
  obtain ⟨reads, sets, left⟩ := bounded
  have counts : (s.expiredKeys now).length = l.entries.countP fun b => b.2.isExpired now := by
    rw [Store.expiredKeys, List.length_map, ← List.countP_eq_length_filter]
    exact h.bindings.countP_eq _
  have few : l.entries.countP (fun b => b.2.isExpired now) ≤ l.entries.length :=
    List.countP_le_length
  have counted : (s.counters.expire (s.expiredKeys now).length).tally = { l.tally with
      expirations := l.tally.expirations + l.entries.countP fun b => b.2.isExpired now } := by
    rw [← h.tally] at left sets ⊢
    rw [counts, Counters.tally_expire (by omega)]
  have kept : l.entries.filter (fun b => b.1 ∉ s.expiredKeys now) =
      l.entries.filter fun b => !b.2.isExpired now := by
    apply List.filter_congr
    intro b member
    cases expired : b.2.isExpired now <;> simp [h.mem_expiredKeys member, expired]
  have swept := h.eraseAll (s.expiredKeys now) counted
  rw [kept] at swept
  exact ⟨counts, swept, s.recency.foldl_remove_nextTick _⟩

theorem perform (h : Represents s l) (room : s.recency.HasRoom) (bounded : l.Bounded n)
    (short : n + 1 < UInt64.size) (operation : StoreOperation) :
    (s.perform now operation).1 = (l.perform now operation).1 ∧
      Represents (s.perform now operation).2 (l.perform now operation).2 ∧
      (s.perform now operation).2.recency.nextTick.toNat ≤ s.recency.nextTick.toNat + 1 := by
  cases operation with
  | set key value ttl =>
    obtain ⟨reply, kept, ticks⟩ := h.set now key room bounded short value ttl
    refine ⟨congrArg StoreReply.outcome reply, kept, ?_⟩
    exact Nat.le_of_eq ((congrArg UInt64.toNat ticks).trans (Nat.mod_eq_of_lt room))
  | get key =>
    obtain ⟨reply, kept, ticks⟩ := h.getEntry now key room bounded short
    refine ⟨?_, kept, ticks⟩
    exact congrArg (fun e : Option Entry => StoreReply.value (e.map Entry.value)) reply
  | getEntry key =>
    obtain ⟨reply, kept, ticks⟩ := h.getEntry now key room bounded short
    exact ⟨congrArg StoreReply.entry reply, kept, ticks⟩
  | peek key => exact ⟨congrArg StoreReply.entry (h.peek now key), h, Nat.le_succ _⟩
  | delete key =>
    obtain ⟨reply, kept, ticks⟩ := h.delete key bounded short
    refine ⟨congrArg StoreReply.flag reply, kept, ?_⟩
    exact Nat.le_succ_of_le (Nat.le_of_eq (congrArg UInt64.toNat ticks))
  | sweep =>
    obtain ⟨reply, kept, ticks⟩ := h.sweep now bounded short
    refine ⟨congrArg StoreReply.count reply, kept, ?_⟩
    exact Nat.le_succ_of_le (Nat.le_of_eq (congrArg UInt64.toNat ticks))
  | clear => exact ⟨rfl, h.clear, Nat.le_succ _⟩

/-- From related states a run of the store shows what the run of the list shows, and ends in
related states. -/
theorem run (h : Represents s l) (bounded : l.Bounded n) (ticks : s.recency.nextTick.toNat ≤ n)
    (operations : List (Nat × StoreOperation)) (short : n + operations.length < UInt64.size) :
    (s.run operations).1 = (l.run operations).1 ∧
      Represents (s.run operations).2 (l.run operations).2 := by
  induction operations generalizing s l n with
  | nil => exact ⟨rfl, h⟩
  | cons step rest ih =>
    obtain ⟨now, operation⟩ := step
    rw [List.length_cons] at short
    have room : s.recency.HasRoom := Nat.lt_of_le_of_lt (Nat.succ_le_succ ticks) (by omega)
    obtain ⟨reply, kept, used⟩ := h.perform now room bounded (by omega) operation
    obtain ⟨views, last⟩ := ih kept (bounded.perform now operation)
      (Nat.le_trans used (Nat.succ_le_succ ticks)) (by omega)
    refine ⟨?_, last⟩
    simp only [Store.run, UseList.run, List.cons.injEq, StoreView.mk.injEq]
    exact ⟨⟨reply, kept.size, kept.tally⟩, views⟩

end Represents

theorem represents_new (capacity : Nat) (defaultTtl : Option Duration) :
    Represents (.new capacity defaultTtl) (.new capacity defaultTtl) where
  coherent := Recency.coherent_empty
  order := rfl
  bindings := .nil
  tally := rfl
  capacity := rfl
  defaultTtl := rfl

theorem UseList.bounded_new (capacity : Nat) (defaultTtl : Option Duration) :
    (new capacity defaultTtl).Bounded 0 :=
  ⟨Nat.le_refl _, Nat.le_refl _, Nat.le_refl _⟩

/-- A fresh store shows in every run what one list shows: the same replies, sizes and counts. At
the end of each run its indexes are the list, in which no key stands twice. -/
theorem Store.run_new_eq_useList (capacity : Nat) (defaultTtl : Option Duration)
    (operations : List (Nat × StoreOperation)) (short : operations.length < UInt64.size) :
    ((Store.new capacity defaultTtl).run operations).1 =
        ((UseList.new capacity defaultTtl).run operations).1 ∧
      Represents ((Store.new capacity defaultTtl).run operations).2
        ((UseList.new capacity defaultTtl).run operations).2 ∧
      (((UseList.new capacity defaultTtl).run operations).2.entries.map Prod.fst).Nodup := by
  obtain ⟨views, last⟩ := (represents_new capacity defaultTtl).run
    (UseList.bounded_new capacity defaultTtl) (Nat.le_refl 0) operations (by omega)
  exact ⟨views, last, last.nodup⟩

/-- Two keys in a store for one entry, a read of what was dropped, and a read of what expired. -/
def crowdedRun : List (Nat × StoreOperation) :=
  [(5, .set ⟨"a"⟩ .null none), (6, .set ⟨"b"⟩ .null (some (.ofMillis 3))), (7, .get ⟨"a"⟩),
    (9, .getEntry ⟨"b"⟩), (4, .sweep)]

theorem crowdedRun_eq_useList :
    crowdedRun.length < UInt64.size ∧
      ((Store.new 0 none).run crowdedRun).1 = ((UseList.new 0 none).run crowdedRun).1 ∧
      Represents ((Store.new 0 none).run crowdedRun).2 ((UseList.new 0 none).run crowdedRun).2 ∧
      (((UseList.new 0 none).run crowdedRun).2.entries.map Prod.fst).Nodup :=
  ⟨by decide, Store.run_new_eq_useList 0 none crowdedRun (by decide)⟩

end CacheDepot
