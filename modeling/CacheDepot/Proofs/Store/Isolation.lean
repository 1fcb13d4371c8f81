import CacheDepot.Proofs.Key
import CacheDepot.Proofs.Store.Retention
import CacheDepot.Proofs.Store.Refinement

/-!
# Namespaces in one store

What is done to a store under one key does not show under another as long as nothing has to make
room. So what is done under one namespace does not show under another either, unless a text spells
out a key of the other.
-/

namespace CacheDepot

/-- What is not among the keys that are erased stays bound. -/
theorem Assoc.get?_foldl_erase_of_not_mem {κ ν : Type} [DecidableEq κ] {keys : List κ} {key : κ}
    (others : key ∉ keys) (map : Assoc κ ν) : (keys.foldl erase map).get? key = map.get? key := by
  induction keys generalizing map with
  | nil => rfl
  | cons first rest ih =>
    rw [List.mem_cons, not_or] at others
    rw [List.foldl_cons, ih others.2, get?_erase_of_ne _ (Ne.symm others.1)]

theorem Entry.isExpired_mono {e : Entry} {now later : Nat} (notBefore : now ≤ later)
    (expired : e.isExpired now = true) : e.isExpired later = true := by
  rw [isExpired] at expired ⊢
  cases expiry : e.expiresAt with
  | none => simp [expiry] at expired
  | some expires =>
    simp only [expiry, decide_eq_true_eq] at expired ⊢
    omega

namespace StoreOperation

/-- The key that an operation is about. -/
def key? : StoreOperation → Option CacheKey
  | .set key _ _ | .get key | .getEntry key | .peek key | .delete key => some key
  | .sweep | .clear => none

/-- Whether an operation is one on a name under a namespace, or a sweep, which is under none. -/
def IsUnder (n : Option String) (names : RawKey → Prop) : StoreOperation → Prop
  | .sweep => True
  | operation => ∃ r, names r ∧ operation.key? = some (.derive n r)

theorem exists_name_of_isUnder {operation : StoreOperation} {n : Option String}
    {names : RawKey → Prop} {key : CacheKey} (under : operation.IsUnder n names)
    (about : operation.key? = some key) : ∃ r, names r ∧ key = .derive n r := by
  cases operation with
  | sweep => cases about
  | _ =>
    obtain ⟨r, named, about'⟩ := under
    exact ⟨r, named, Option.some.inj (about.symm.trans about')⟩

end StoreOperation

namespace Store

/-- Whether an operation need not drop an entry. -/
def HasRoomFor (s : Store) : StoreOperation → Prop
  | .set key _ _ => s.entries.contains key = true ∨ s.entries.size < s.capacity
  | _ => True

/-- Whether no operation of a run need drop an entry. -/
def HasRoomThroughout (s : Store) : List (Nat × StoreOperation) → Prop
  | [] => True
  | (now, operation) :: rest =>
    s.HasRoomFor operation ∧ (s.perform now operation).2.HasRoomThroughout rest

section Step

variable {s : Store} {key other : CacheKey} {now later : Nat}

theorem mem_expiredKeys_iff :
    key ∈ s.expiredKeys now ↔ ∃ e, s.entries.get? key = some e ∧ e.isExpired now = true := by
  simp only [expiredKeys, List.mem_map, List.mem_filter, Assoc.get?_eq_some_iff]
  constructor
  · rintro ⟨b, held, rfl⟩
    exact ⟨b.2, held⟩
  · rintro ⟨e, held⟩
    exact ⟨(key, e), held, rfl⟩

theorem peek_of_get? {s' : Store} (same : s'.entries.get? key = s.entries.get? key) (later : Nat) :
    s'.peek later key = s.peek later key := by
  rw [peek, peek, same]

theorem get?_set_of_room (differs : other ≠ key) {value : Json} {ttl : Option Duration}
    (room : s.HasRoomFor (.set other value ttl)) (now : Nat) :
    (s.set now other value ttl).2.entries.get? key = s.entries.get? key := by
  cases resident : s.entries.contains other with
  | true =>
    rw [set_of_resident now value ttl resident]
    exact Assoc.get?_insert_of_ne _ _ differs
  | false =>
    have below : s.entries.size < s.capacity := room.resolve_left (by simp [resident])
    rw [set_of_room now value ttl resident below]
    exact Assoc.get?_insert_of_ne _ _ differs

theorem get?_getEntry_of_ne (differs : other ≠ key) (now : Nat) :
    (s.getEntry now other).2.entries.get? key = s.entries.get? key := by
  rw [getEntry]
  split
  · split
    · exact Assoc.get?_erase_of_ne _ differs
    · exact Assoc.get?_insert_of_ne _ _ differs
  · rfl

theorem get?_delete_of_ne (differs : other ≠ key) :
    (s.delete other).2.entries.get? key = s.entries.get? key := by
  rw [delete]
  split
  · exact Assoc.get?_erase_of_ne _ differs
  · rfl

/-- A sweep takes nothing that a later look would find. -/
theorem peek_sweep (notBefore : now ≤ later) :
    (s.sweep now).2.peek later key = s.peek later key := by
  apply Option.ext
  intro e
  rw [peek_eq_some_iff, peek_eq_some_iff]
  constructor
  · rintro ⟨bound, live⟩
    exact ⟨Assoc.get?_of_foldl_erase bound, live⟩
  · rintro ⟨bound, live⟩
    have kept : key ∉ s.expiredKeys now := by
      intro swept
      obtain ⟨old, bound', expired⟩ := mem_expiredKeys_iff.mp swept
      obtain rfl : e = old := Option.some.inj (bound.symm.trans bound')
      have outlived := Entry.isExpired_mono notBefore expired
      simp [live] at outlived
    exact ⟨(Assoc.get?_foldl_erase_of_not_mem kept _).trans bound, live⟩

/-- An operation that need not drop an entry and is under no name of this key does not change what
is found there. -/
theorem peek_perform {operation : StoreOperation} {n : Option String} {names : RawKey → Prop}
    (apart : ∀ r, names r → CacheKey.derive n r ≠ key) (under : operation.IsUnder n names)
    (room : s.HasRoomFor operation) (notBefore : operation = .sweep → now ≤ later) :
    (s.perform now operation).2.peek later key = s.peek later key := by
  have differs : ∀ other, operation.key? = some other → other ≠ key := by
    intro other about
    obtain ⟨r, named, rfl⟩ := StoreOperation.exists_name_of_isUnder under about
    exact apart r named
  cases operation with
  | set other value ttl =>
    exact peek_of_get? (get?_set_of_room (differs other rfl) room now) later
  | get other => exact peek_of_get? (get?_getEntry_of_ne (differs other rfl) now) later
  | getEntry other => exact peek_of_get? (get?_getEntry_of_ne (differs other rfl) now) later
  | peek other => rfl
  | delete other => exact peek_of_get? (get?_delete_of_ne (differs other rfl)) later
  | sweep => exact peek_sweep (notBefore rfl)
  | clear =>
    obtain ⟨r, -, about⟩ := under
    cases about

end Step

theorem peek_run {key : CacheKey} {later : Nat} {n : Option String} {names : RawKey → Prop}
    (apart : ∀ r, names r → CacheKey.derive n r ≠ key) {s : Store}
    {operations : List (Nat × StoreOperation)}
    (under : ∀ o ∈ operations, o.2.IsUnder n names ∧ (o.2 = .sweep → o.1 ≤ later))
    (room : s.HasRoomThroughout operations) :
    (s.run operations).2.peek later key = s.peek later key := by
  induction operations generalizing s with
  | nil => rfl
  | cons o rest ih =>
    obtain ⟨now, operation⟩ := o
    obtain ⟨first, notBefore⟩ := under (now, operation) List.mem_cons_self
    have more := ih (fun o member => under o (List.mem_cons_of_mem _ member)) room.2
    exact more.trans (peek_perform apart first room.1 notBefore)

/-- Keys under different namespaces are the same only where one spells out the other. Where neither
does, nothing that is done under the one namespace, and no sweep, changes what is read under the
other, as long as no entry has to be dropped to make room. -/
theorem namespaces_isolated {n n' : Option String} (differ : n ≠ n') (r' : RawKey) :
    (∀ r, CacheKey.derive n r = CacheKey.derive n' r' ↔
      CacheKey.SpellsOut n r n' r' ∨ CacheKey.SpellsOut n' r' n r) ∧
    ∀ (s : Store) (operations : List (Nat × StoreOperation)) (later : Nat),
      s.HasRoomThroughout operations →
      (∀ o ∈ operations, (o.2 = .sweep → o.1 ≤ later) ∧ o.2.IsUnder n fun r =>
        ¬ CacheKey.SpellsOut n r n' r' ∧ ¬ CacheKey.SpellsOut n' r' n r) →
      ((s.run operations).2.get later (.derive n' r')).1 = (s.get later (.derive n' r')).1 := by
  refine ⟨fun r => CacheKey.derive_eq_derive_iff differ, ?_⟩
  intro s operations later room under
  have apart : ∀ r, (¬ CacheKey.SpellsOut n r n' r' ∧ ¬ CacheKey.SpellsOut n' r' n r) →
      CacheKey.derive n r ≠ CacheKey.derive n' r' := by
    rintro r ⟨ahead, behind⟩ same
    exact ((CacheKey.derive_eq_derive_iff differ).mp same).elim ahead behind
  have found := peek_run apart (fun o member => (under o member).symm) room
  rw [fst_get, fst_get, found]

/-- A store in which a role is written. -/
def roleStore : Store :=
  ((new 10 none).set 0 (.derive (some "role") (.text "1")) (.string "admin") none).2

/-- What is done with the profile of the same name. -/
def profileOperations : List (Nat × StoreOperation) :=
  [(5, .set (.derive (some "profile") (.text "1")) (.string "alice") (some (.ofMillis 2))),
    (6, .get (.derive (some "profile") (.text "1"))), (9, .sweep),
    (9, .delete (.derive (some "profile") (.text "1")))]

theorem namespaces_isolated_profile :
    ((roleStore.run profileOperations).2.get 20 (.derive (some "role") (.text "1"))).1 =
      (roleStore.get 20 (.derive (some "role") (.text "1"))).1 := by
  have apart : ¬ CacheKey.SpellsOut (some "profile") (.text "1") (some "role") (.text "1") ∧
      ¬ CacheKey.SpellsOut (some "role") (.text "1") (some "profile") (.text "1") := by
    rw [← not_or, ← CacheKey.derive_eq_derive_iff (by decide)]
    decide
  apply (namespaces_isolated (n := some "profile") (by decide) (.text "1")).2
  · exact ⟨.inr (by decide), trivial, trivial, trivial, trivial⟩
  · simp only [profileOperations, List.mem_cons, List.not_mem_nil, or_false]
    rintro o (rfl | rfl | rfl | rfl)
    · exact ⟨nofun, _, apart, rfl⟩
    · exact ⟨nofun, _, apart, rfl⟩
    · exact ⟨fun _ => by decide, trivial⟩
    · exact ⟨nofun, _, apart, rfl⟩

/-- A text with a colon may spell out a namespace, and a namespace may have a colon itself: what is
written under one namespace is then read under another. -/
theorem derive_eq_of_colon :
    CacheKey.derive none (.text "a:b") = .derive (some "a") (.text "b") ∧
      CacheKey.derive (some "a") (.text "b:c") = .derive (some "a:b") (.text "c") ∧
      ((new 9 none).get 0 (.derive none (.text "a:b"))).1.isNone ∧
      (((new 9 none).run [(0, .set (.derive (some "a") (.text "b")) .null none)]).2.get 0
        (.derive none (.text "a:b"))).1.isSome := by
  decide

end Store
end CacheDepot
