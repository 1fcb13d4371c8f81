import CacheDepot.Proofs.Api.Service
import CacheDepot.Proofs.Store.Isolation
import CacheDepot.Proofs.Store.Sweeping

/-!
# Whether a key is there

Reads go by the clock: an expired entry is absent for them from the moment of its expiry, swept or
not. What removes or overwrites an entry goes by what is in the store, and finds an expired entry
until somebody has cleared it away. So both say the same of a key but while its entry is stale.
-/

namespace CacheDepot

namespace Store

/-- What the operations of a store say, each on its own, of whether a key is there. -/
structure Presence where
  get : Bool
  peek : Bool
  delete : Bool
  /-- Whether a write reports that it has replaced an entry. -/
  replaced : Bool
  deriving DecidableEq, Repr

/-- What the operations would say at `now`. -/
def presence (s : Store) (now : Nat) (key : CacheKey) (value : Json) (ttl : Option Duration) :
    Presence where
  get := (s.get now key).1.isSome
  peek := (s.peek now key).isSome
  delete := (s.delete key).1
  replaced := (s.set now key value ttl).1.replaced

/-- Whether all of them say the same. -/
def Presence.Agrees (p : Presence) : Prop :=
  p.get = p.peek ∧ p.peek = p.delete ∧ p.delete = p.replaced

/-- Whether the entry of a key is still in the store although its time is over. -/
def isStale (s : Store) (now : Nat) (key : CacheKey) : Bool :=
  (s.entries.get? key).any fun e => e.isExpired now

variable {s : Store} {now : Nat} {key : CacheKey}

theorem fst_delete (s : Store) (key : CacheKey) : (s.delete key).1 = s.entries.contains key := by
  rw [delete]
  split
  · rename_i bound
    exact bound.symm
  · rename_i absent
    exact (Bool.eq_false_iff.mpr absent).symm

theorem replaced_set (s : Store) (now : Nat) (key : CacheKey) (value : Json)
    (ttl : Option Duration) :
    (s.set now key value ttl).1.replaced = s.entries.contains key := by
  rw [set]

/-- Reads go by the clock, the other operations by what is in the store. -/
theorem presence_eq (s : Store) (now : Nat) (key : CacheKey) (value : Json)
    (ttl : Option Duration) :
    s.presence now key value ttl =
      ⟨(s.peek now key).isSome, (s.peek now key).isSome, s.entries.contains key,
        s.entries.contains key⟩ := by
  rw [presence, fst_get, Option.isSome_map, fst_delete, replaced_set]

/-- Only a stale entry is in the store and absent for reads. -/
theorem contains_eq (s : Store) (now : Nat) (key : CacheKey) :
    s.entries.contains key = ((s.peek now key).isSome || s.isStale now key) := by
  rw [Assoc.contains, peek, isStale]
  cases s.entries.get? key with
  | none => rfl
  | some e => cases expired : e.isExpired now <;> simp [Option.filter, expired]

theorem peek_of_isStale (stale : s.isStale now key = true) : s.peek now key = none := by
  rw [isStale, Option.any_eq_true] at stale
  obtain ⟨e, bound, expired⟩ := stale
  rw [peek, bound, Option.filter_some_neg (by simp [expired])]

theorem agrees_presence_iff (s : Store) (now : Nat) (key : CacheKey) (value : Json)
    (ttl : Option Duration) :
    (s.presence now key value ttl).Agrees ↔ s.isStale now key = false := by
  rw [presence_eq, Presence.Agrees, contains_eq s now]
  cases stale : s.isStale now key with
  | true => simp [peek_of_isStale stale]
  | false => simp

/-- Nothing is stale after a sweep. -/
theorem isStale_sweep (s : Store) (now : Nat) (key : CacheKey) :
    (s.sweep now).2.isStale now key = false := by
  rw [isStale, get?_sweep, Option.any_eq_false]
  intro e live
  simp [(peek_eq_some_iff.mp live).2]

/-- What a read has looked for is not stale after it. -/
theorem isStale_get (s : Store) (now : Nat) (key : CacheKey) :
    (s.get now key).2.isStale now key = false := by
  have left : (s.get now key).2.entries.get? key = (s.peek now key).map (·.touch now) := by
    rw [← fst_getEntry]
    exact (s.get?_getEntry now key key).trans (if_pos rfl)
  rw [isStale, left, Option.any_map, Option.any_eq_false]
  intro e live
  have unexpired : (e.touch now).isExpired now = false := (peek_eq_some_iff.mp live).2
  simp [unexpired]

end Store

namespace Api

/-- Whether a key is there is decided in two ways. For every store, key and time: a read says so if
there is an entry that is not expired, while a removal and a write that replaces say so if there
is an entry at all. So they differ exactly while the entry of the key is stale, which it is for
no key after a sweep, nor for a key that was just read, and reads answer the same before a sweep
and after it. A call that invalidates a key, and a request to delete it, answer as the store of that
name does when it is told to remove the key. -/
theorem tells_presence (now : Nat) :
    (∀ (s : Store) key value ttl,
      s.presence now key value ttl =
        if s.isStale now key then ⟨false, false, true, true⟩
        else ⟨(s.peek now key).isSome, (s.peek now key).isSome, (s.peek now key).isSome,
          (s.peek now key).isSome⟩) ∧
    (∀ (s : Store) key value ttl,
      (s.presence now key value ttl).Agrees ↔ s.isStale now key = false) ∧
    (∀ (s : Store) key value ttl,
      ((s.sweep now).2.presence now key value ttl).Agrees ∧
        ((s.get now key).2.presence now key value ttl).Agrees ∧
        ((s.sweep now).2.presence now key value ttl).get = (s.presence now key value ttl).get) ∧
    (∀ (d : Depot) name key,
      (d.start now (.invalidate name key)).1 =
        .answered (.flag ((d.store (d.getCache name).cell).delete key).1)) ∧
    ∀ (d : Depot) cache? r name key, Asks r (.delete name key) →
      (serve cache? now r d).1 =
        openToAll (if ((d.store (d.getCache name).cell).delete (pathKey key)).1
          then .json 200 (deleteReply key)
          else .json 404 (errorReply ("Key not found: " ++ key))) := by
  refine ⟨?_, fun s => s.agrees_presence_iff now, ?_, fun _ _ _ => rfl, ?_⟩
  · intro s key value ttl
    rw [Store.presence_eq, Store.contains_eq s now]
    cases stale : s.isStale now key with
    | true => rw [Store.peek_of_isStale stale]; rfl
    | false => rw [Bool.or_false]; rfl
  · intro s key value ttl
    refine ⟨(Store.agrees_presence_iff ..).mpr (s.isStale_sweep now key),
      (Store.agrees_presence_iff ..).mpr (s.isStale_get now key), ?_⟩
    rw [Store.presence_eq, Store.presence_eq, Store.peek_sweep (Nat.le_refl now)]
  · intro d cache? r name key asks
    have removed : (d.deleteKey (d.getCache name) (pathKey key)).1 =
        ((d.store (d.getCache name).cell).delete (pathKey key)).1 := rfl
    rw [asks.serve_eq, fulfil_delete, removed]
    cases ((d.store (d.getCache name).cell).delete (pathKey key)).1 <;> rfl

/-- A request to delete a key whose entry has expired succeeds. -/
theorem tells_presence_deleted :
    ∃ made, Depot.new 0 ⟨9, none, none⟩ ⟨10, 3, none⟩ = .ok made ∧
      let d := (made.start 0
        (.set (.named "default") (pathKey "a b") .null (some (.ofMillis 10)))).2
      ((d.store (d.getCache "default").cell).peek 10 (pathKey "a b")).isSome = false ∧
      Asks deleteNumber (.delete "default" "a b") ∧
      (serve none 10 deleteNumber d).1 = openToAll (.json 200 (deleteReply "a b")) := by
  have asks : Asks deleteNumber (.delete "default" "a b") :=
    .delete (s := "default") (k := "a%20b") rfl spells_default spells_key (by decide) rfl
  refine ⟨_, rfl, by decide, asks, ?_⟩
  obtain ⟨-, -, -, -, deletes⟩ := tells_presence 10
  rw [deletes _ none deleteNumber "default" "a b" asks]
  exact congrArg openToAll (if_pos (by decide))

/-- An entry that has just expired: reads do not find it, and yet it is removed or replaced. -/
theorem not_agrees_of_expired :
    let s := ((Store.new 9 none).run [(0, .set ⟨"k"⟩ (.string "v") (some (.ofMillis 10)))]).2
    s.presence 10 ⟨"k"⟩ (.string "w") none = ⟨false, false, true, true⟩ ∧
      ¬ (s.presence 10 ⟨"k"⟩ (.string "w") none).Agrees := by
  have found : (((Store.new 9 none).run
      [(0, .set ⟨"k"⟩ (.string "v") (some (.ofMillis 10)))]).2.presence 10 ⟨"k"⟩ (.string "w")
        none) = ⟨false, false, true, true⟩ := by decide
  refine ⟨found, ?_⟩
  rw [found]
  exact fun agrees => Bool.false_ne_true agrees.2.1

end Api
end CacheDepot
