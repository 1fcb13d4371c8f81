import CacheDepot.Store

/-!
# What becomes of an entry in a store

Only a write of its own key puts an entry in place. Whatever else is done to a store, with other
keys or with this one, an entry that is there stays or goes: at most its last use changes, and no
other entry comes in its place.
-/

namespace CacheDepot

/-- What is bound after keys were erased was bound before. -/
theorem Assoc.get?_of_foldl_erase {κ ν : Type} [DecidableEq κ] {map : Assoc κ ν} {keys : List κ}
    {key : κ} {value : ν} (bound : (keys.foldl erase map).get? key = some value) :
    map.get? key = some value := by
  induction keys generalizing map with
  | nil => exact bound
  | cons first rest ih =>
    have kept := ih bound
    rw [get?_erase] at kept
    split at kept
    · simp at kept
    · exact kept

/-- Whether an entry is an old one of which at most the last use has changed. -/
structure Entry.Continues (e old : Entry) : Prop where
  value : e.value = old.value
  createdAt : e.createdAt = old.createdAt
  expiresAt : e.expiresAt = old.expiresAt

namespace Entry.Continues

theorem refl (e : Entry) : e.Continues e := ⟨rfl, rfl, rfl⟩

theorem trans {e e' e'' : Entry} (h : e''.Continues e') (h' : e'.Continues e) : e''.Continues e :=
  ⟨h.value.trans h'.value, h.createdAt.trans h'.createdAt, h.expiresAt.trans h'.expiresAt⟩

theorem touch (e : Entry) (now : Nat) : (e.touch now).Continues e := ⟨rfl, rfl, rfl⟩

end Entry.Continues

namespace Store

variable {s s' s'' : Store} {key : CacheKey}

/-- The value under a key, whether or not its time is over. -/
def resident? (s : Store) (key : CacheKey) : Option Json := (s.entries.get? key).map Entry.value

/-- The second store has under this key what the first has, or nothing. -/
def Fades (key : CacheKey) (s s' : Store) : Prop :=
  ∀ value, s'.resident? key = some value → s.resident? key = some value

/-- The second store has under this key the entry of the first, or nothing. -/
def Retains (key : CacheKey) (s s' : Store) : Prop :=
  ∀ e, s'.entries.get? key = some e → ∃ old, s.entries.get? key = some old ∧ e.Continues old

theorem Retains.refl (key : CacheKey) (s : Store) : s.Retains key s :=
  fun e bound => ⟨e, bound, .refl e⟩

theorem Retains.trans (h : s.Retains key s') (h' : s'.Retains key s'') : s.Retains key s'' := by
  intro e bound
  obtain ⟨middle, bound', same⟩ := h' e bound
  obtain ⟨old, bound'', same'⟩ := h middle bound'
  exact ⟨old, bound'', same.trans same'⟩

/-- A store with fewer entries retains. -/
theorem retains_of_subset
    (kept : ∀ e, s'.entries.get? key = some e → s.entries.get? key = some e) :
    s.Retains key s' :=
  fun e bound => ⟨e, kept e bound, .refl e⟩

/-- An empty store has nothing under any key. -/
theorem get?_of_isEmpty (empty : s.isEmpty = true) (key : CacheKey) :
    s.entries.get? key = none := by
  refine Option.eq_none_iff_forall_ne_some.mpr ?_
  intro e bound
  have member := Assoc.get?_eq_some_iff.mp bound
  rw [List.isEmpty_iff.mp empty] at member
  cases member

theorem resident?_of_isEmpty (empty : s.isEmpty = true) (key : CacheKey) :
    s.resident? key = none := by
  rw [resident?, get?_of_isEmpty empty, Option.map_none]

theorem isEmpty_of_resident? (nothing : ∀ key, s.resident? key = none) : s.isEmpty = true := by
  refine List.isEmpty_iff.mpr (List.eq_nil_iff_forall_not_mem.mpr ?_)
  intro b member
  have bound := Assoc.get?_eq_some_iff.mpr member
  have absent := nothing b.1
  rw [resident?, bound] at absent
  cases absent

/-! ## Reads -/

/-- A read finds what is there and live. -/
theorem fst_getEntry (s : Store) (now : Nat) (key : CacheKey) :
    (s.getEntry now key).1 = (s.peek now key).map (·.touch now) := by
  rw [getEntry, peek]
  cases s.entries.get? key with
  | none => rfl
  | some e =>
    dsimp only
    split
    · rename_i expired
      rw [Option.filter_some_neg (by simp [expired])]
      rfl
    · rename_i live
      rw [Option.filter_some_pos (by simp [live])]
      rfl

theorem fst_get (s : Store) (now : Nat) (key : CacheKey) :
    (s.get now key).1 = (s.peek now key).map Entry.value := by
  have same : (s.get now key).1 = (s.getEntry now key).1.map Entry.value := rfl
  rw [same, fst_getEntry, Option.map_map]
  rfl

theorem peek_eq_some_iff {now : Nat} {e : Entry} :
    s.peek now key = some e ↔ s.entries.get? key = some e ∧ e.isExpired now = false := by
  rw [peek, Option.filter_eq_some_iff]
  simp

theorem resident?_of_peek {now : Nat} {e : Entry} (found : s.peek now key = some e) :
    s.resident? key = some e.value := by
  rw [resident?, (peek_eq_some_iff.mp found).1, Option.map_some]

theorem resident?_of_get {now : Nat} {value : Json}
    (found : (s.get now key).1 = some value) : s.resident? key = some value := by
  rw [fst_get] at found
  obtain ⟨e, live, rfl⟩ := Option.map_eq_some_iff.mp found
  exact resident?_of_peek live

/-! ## Operations -/

/-- What is bound after an entry was erased was bound before. -/
theorem get?_of_erase {map : Assoc CacheKey Entry} {other : CacheKey} {e : Entry}
    (bound : (map.erase other).get? key = some e) : map.get? key = some e := by
  rw [Assoc.get?_erase] at bound
  split at bound
  · simp at bound
  · exact bound

theorem retains_clear (s : Store) : s.Retains key s.clear := nofun

theorem retains_evict (s : Store) : s.Retains key s.evict.2 := by
  unfold evict
  split
  · exact retains_of_subset fun e bound => get?_of_erase bound
  · exact .refl key s

theorem retains_delete (s : Store) (other : CacheKey) : s.Retains key (s.delete other).2 := by
  unfold delete
  split
  · exact retains_of_subset fun e bound => get?_of_erase bound
  · exact .refl key s

theorem retains_sweep (s : Store) (now : Nat) : s.Retains key (s.sweep now).2 :=
  retains_of_subset fun _ bound => Assoc.get?_of_foldl_erase bound

/-- A read changes the time of the last use at most. -/
theorem retains_getEntry (s : Store) (now : Nat) (other : CacheKey) :
    s.Retains key (s.getEntry now other).2 := by
  unfold getEntry
  split
  · rename_i e found
    split
    · exact retains_of_subset fun e bound => get?_of_erase bound
    · intro e' bound
      rw [Assoc.get?_insert] at bound
      split at bound
      · rename_i same
        cases bound
        exact ⟨e, same ▸ found, .touch e now⟩
      · exact ⟨e', bound, .refl e'⟩
  · exact .refl key s

/-- A write is followed by the entry written. -/
theorem get?_set_self (s : Store) (now : Nat) (key : CacheKey) (value : Json)
    (ttl : Option Duration) :
    (s.set now key value ttl).2.entries.get? key = some (.new now value (ttl.or s.defaultTtl)) := by
  have kept : s.evict.2.defaultTtl = s.defaultTtl := by
    unfold evict
    split <;> rfl
  rw [set]
  dsimp only
  split
  · rw [Assoc.get?_insert_self, kept]
  · rw [Assoc.get?_insert_self]

/-- A write of another key may drop the entry to make room, and does nothing else to it. -/
theorem retains_set (s : Store) (now : Nat) {other : CacheKey} (differs : other ≠ key)
    (value : Json) (ttl : Option Duration) : s.Retains key (s.set now other value ttl).2 := by
  have evicted : s.Retains key (if !s.entries.contains other && s.capacity ≤ s.entries.size then
      s.evict else (none, s)).2 := by
    split
    · exact s.retains_evict
    · exact .refl key s
  apply evicted.trans
  apply retains_of_subset
  intro e bound
  rw [set] at bound
  dsimp only at bound
  rwa [Assoc.get?_insert_of_ne _ _ differs] at bound

end Store
end CacheDepot
