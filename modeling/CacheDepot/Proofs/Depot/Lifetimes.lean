import CacheDepot.Proofs.Depot.EveryStore
import CacheDepot.Proofs.Depot.Tiers
import CacheDepot.Proofs.Store.Eviction
import Mathlib.Order.MinMax

/-!
# How long values live in two tiers

A write to a pair of tiers gives the second tier twice the time, as far as a number of 64 bits
goes: beyond that the time of the second tier starts again from zero. A read of the pair leaves a
copy in the first tier for the shortest of the times that are given, so a copy is never found when
the entry it was made of is not.
-/

namespace CacheDepot

namespace Duration

/-- Whole milliseconds. -/
def millis (t : Duration) : Nat := t.nanos / nanosPerMilli

theorem wholeMillis_of_lt {t : Duration} (short : t.millis < UInt64.size) :
    t.wholeMillis = t.millis := Nat.mod_eq_of_lt short

theorem millis_ofMillis (n : Nat) : (ofMillis n).millis = n :=
  Nat.mul_div_cancel n (by decide)

theorem wholeMillis_ofMillis (n : Nat) : (ofMillis n).wholeMillis = n % UInt64.size :=
  congrArg (· % UInt64.size) (millis_ofMillis n)

theorem doubled_ofMillis {n : Nat} (short : n < UInt64.size) :
    (ofMillis n).doubled = ofMillis (2 * n) := by
  have fits : 2 * (n * nanosPerMilli) ≤ longest.nanos := by
    simp only [nanosPerMilli, longest]
    omega
  rw [doubled, ofMillis, ofMillis, Nat.min_eq_left fits, Nat.mul_assoc]

theorem millis_shorter (t u : Duration) : (t.shorter u).millis = min t.millis u.millis :=
  Monotone.map_min fun _ _ le => Nat.div_le_div_right le

end Duration

/-! ## Writes of a pair -/

/-- When twice a time counts as what it is, and when it counts for less than the time itself. -/
theorem min_doubled_iff {millis : Nat} (short : millis < UInt64.size) (now : Nat) :
    (min (now + millis) maxMillis ≤ min (now + 2 * millis % UInt64.size) maxMillis ↔
      2 * millis < UInt64.size ∨ UInt64.size + maxMillis ≤ now + 2 * millis) ∧
    (min (now + 2 * millis % UInt64.size) maxMillis = min (now + 2 * millis) maxMillis ↔
      2 * millis < UInt64.size ∨ UInt64.size + maxMillis ≤ now + 2 * millis) := by
  by_cases fits : 2 * millis < UInt64.size
  · rw [Nat.mod_eq_of_lt fits]
    omega
  · have cut : 2 * millis % UInt64.size = 2 * millis - UInt64.size := by
      rw [Nat.mod_eq_sub_mod (Nat.le_of_not_lt fits), Nat.mod_eq_of_lt (by omega)]
    have last : maxMillis + 1 = UInt64.size := rfl
    rw [cut]
    omega

namespace Depot

variable {d : Depot} {p : TierPair} {key : CacheKey} {first second : String}

/-- Whether both tiers of a pair are there. -/
def HasTiers (d : Depot) (p : TierPair) : Prop :=
  p.upper < d.stores.length ∧ p.lower < d.stores.length

theorem Reached.hasTiers (h : d.Reached) (named : p.isNamed d first second = true) :
    d.HasTiers p := by
  obtain ⟨upper, lower⟩ := isNamed_iff.mp named
  exact ⟨upper ▸ h.orderly.inside_getCache first, lower ▸ h.orderly.inside_getCache second⟩

/-- What is done to a store that is there is done. -/
theorem store_onStore_self {α : Type} {h : Handle} {cell : Nat} (here : h.cell = cell)
    (inside : cell < d.stores.length) (f : Store → α × Store) :
    (d.onStore h f).2.store cell = (f (d.store cell)).2 :=
  (d.store_onStore_eq h f cell).trans (if_pos ⟨here, inside⟩)

theorem length_onStore {α : Type} (d : Depot) (h : Handle) (f : Store → α × Store) :
    (d.onStore h f).2.stores.length = d.stores.length := List.length_set

theorem store_tierSet (named : p.isNamed d first second = true) (inside : d.HasTiers p) (now : Nat)
    (key : CacheKey) (value : Json) (ttl : Option Duration) :
    (d.tierSet now first (some second) key value ttl).store p.upper =
        ((d.store p.upper).set now key value ttl).2 ∧
      (d.tierSet now first (some second) key value ttl).store p.lower =
        ((d.store p.lower).set now key value (ttl.map Duration.doubled)).2 := by
  obtain ⟨upper, lower⟩ := isNamed_iff.mp named
  have first' : ((d.setKey now (d.getCache second) key value (ttl.map Duration.doubled)).2.getCache
      first).cell = p.upper := upper
  rw [tierSet]
  constructor
  · refine (store_onStore_self first' (by rw [setKey, length_onStore]; exact inside.1) _).trans ?_
    rw [setKey, store_onStore_of_ne _ _ (lower ▸ p.distinct.symm)]
  · refine (store_onStore_of_ne _ _ (first' ▸ p.distinct)).trans ?_
    exact store_onStore_self lower inside.2 _

/-- What a write to a pair leaves in both tiers. The second tier gets twice the time in
milliseconds, or what 64 bits hold of it. If that is not all of it, the entry of the second tier
has the shorter life, unless both times are beyond the last timestamp. -/
theorem tierSet_lifetimes (reached : d.Reached) (named : p.isNamed d first second = true)
    (now : Nat) (key : CacheKey) (value : Json) {millis : Nat} (short : millis < UInt64.size) :
    let d' := d.tierSet now first (some second) key value (some (.ofMillis millis))
    ∃ upper lower,
      (d'.store p.upper).entries.get? key = some ⟨value, now, some upper, now⟩ ∧
      (d'.store p.lower).entries.get? key = some ⟨value, now, some lower, now⟩ ∧
      upper = min (now + millis) maxMillis ∧
      lower = min (now + 2 * millis % UInt64.size) maxMillis ∧
      (upper ≤ lower ↔ 2 * millis < UInt64.size ∨ UInt64.size + maxMillis ≤ now + 2 * millis) ∧
      (lower = min (now + 2 * millis) maxMillis ↔
        2 * millis < UInt64.size ∨ UInt64.size + maxMillis ≤ now + 2 * millis) := by
  intro d'
  obtain ⟨upper, lower⟩ := store_tierSet named (reached.hasTiers named) now key value
    (some (.ofMillis millis))
  obtain ⟨longer, whole⟩ := min_doubled_iff short now
  refine ⟨_, _, ?_, ?_, rfl, rfl, longer, whole⟩
  · rw [upper, Store.get?_set_self, Option.some_or, Entry.new, Option.map_some, timestampAfter,
      Duration.wholeMillis_ofMillis, Nat.mod_eq_of_lt short]
  · rw [lower, Store.get?_set_self, Option.map_some, Option.some_or, Entry.new, Option.map_some,
      timestampAfter, Duration.doubled_ofMillis short, Duration.wholeMillis_ofMillis]

/-- Half of what 64 bits hold is given as a time. The second tier gets none, and its entry is
expired when it is written, while the first tier keeps the value. -/
theorem tierSet_lower_expires_first :
    ∃ made, Depot.new 0 ⟨9, none, none⟩ ⟨10, 3, none⟩ = .ok made ∧
      let d := made.run pairCreation
      smallPair.isNamed d "l1" "l2" = true ∧ 9223372036854775808 < UInt64.size ∧
      let d' := d.tierSet 5 "l1" (some "l2") ⟨"a"⟩ .null (some (.ofMillis 9223372036854775808))
      ((d'.store 1).entries.get? ⟨"a"⟩).bind Entry.expiresAt = some 9223372036854775813 ∧
      ((d'.store 2).entries.get? ⟨"a"⟩).bind Entry.expiresAt = some 5 ∧
      (d'.store 2).peek 5 ⟨"a"⟩ = none := by
  have new : Depot.new 0 ⟨9, none, none⟩ ⟨10, 3, none⟩ = .ok _ := rfl
  exact ⟨_, new, rfl, by decide, rfl, rfl, rfl⟩

/-- A time that can be doubled. -/
theorem tierSet_lifetimes_minute :
    ∃ made, Depot.new 0 ⟨9, none, none⟩ ⟨10, 3, none⟩ = .ok made ∧
      let d := made.run pairCreation
      smallPair.isNamed d "l1" "l2" = true ∧ 60000 < UInt64.size ∧
      let d' := d.tierSet 5 "l1" (some "l2") ⟨"a"⟩ .null (some (.ofMillis 60000))
      ∃ upper lower,
        (d'.store 1).entries.get? ⟨"a"⟩ = some ⟨.null, 5, some upper, 5⟩ ∧
        (d'.store 2).entries.get? ⟨"a"⟩ = some ⟨.null, 5, some lower, 5⟩ ∧
        upper = 60005 ∧ lower = 120005 ∧ upper ≤ lower := by
  have new : Depot.new 0 ⟨9, none, none⟩ ⟨10, 3, none⟩ = .ok _ := rfl
  have reached := (Reached.made new).run pairCreation
  have short : 60000 < UInt64.size := by decide
  refine ⟨_, new, rfl, short, ?_⟩
  obtain ⟨upper, lower, there, there', one, two, longer, -⟩ :=
    tierSet_lifetimes reached (show smallPair.isNamed _ "l1" "l2" = true from rfl) 5 ⟨"a"⟩ .null
      short
  exact ⟨upper, lower, there, there', one, two, longer.mpr (.inl (by decide))⟩

/-! ## Copies -/

end Depot

namespace Store

variable {s : Store} {key other : CacheKey} {now later : Nat}

/-- Whether no entry expires after the last timestamp. -/
def ExpiresInTime (s : Store) : Prop :=
  ∀ key e, s.entries.get? key = some e → ∀ expires ∈ e.expiresAt, expires ≤ maxMillis

theorem lasting_expiresInTime : Lasting ExpiresInTime where
  new := nofun
  perform := by
    intro s inTime now operation key e bound expires limited
    rcases get?_perform_cases bound with ⟨old, was, rfl | rfl⟩ | ⟨value, ttl, -, rfl⟩
    · exact inTime key e was expires limited
    · exact inTime key old was expires limited
    · obtain ⟨length, -, rfl⟩ := Option.map_eq_some_iff.mp limited
      exact Nat.min_le_right _ _

/-- Without a write of its key an entry stays what it is, or goes. -/
theorem retains_run {operations : List (Nat × StoreOperation)}
    (unwritten : ∀ o ∈ operations, ∀ value ttl, o.2 ≠ .set key value ttl) (s : Store) :
    s.Retains key (s.run operations).2 := by
  induction operations generalizing s with
  | nil => exact .refl key s
  | cons o rest ih =>
    obtain ⟨now, operation⟩ := o
    obtain ⟨first, unwritten⟩ := List.forall_mem_cons.mp unwritten
    refine Retains.trans ?_ (ih unwritten (s.perform now operation).2)
    intro e bound
    rcases get?_perform_cases bound with ⟨old, was, rfl | rfl⟩ | ⟨value, ttl, sets, -⟩
    · exact ⟨e, was, .refl e⟩
    · exact ⟨old, was, .touch old now⟩
    · exact absurd sets (first value ttl)

/-- Nothing is found of what was expired, however the store has gone on without writing it. -/
theorem peek_eq_none_of_retains {s' : Store} (retains : s.Retains key s')
    {e : Entry} (bound : s.entries.get? key = some e) (expired : e.isExpired now = true) :
    s'.peek now key = none := by
  refine Option.eq_none_iff_forall_ne_some.mpr ?_
  intro e' found
  obtain ⟨there, live⟩ := peek_eq_some_iff.mp found
  obtain ⟨old, was, same⟩ := retains e' there
  obtain rfl : old = e := Option.some.inj (was.symm.trans bound)
  rw [Entry.isExpired, same.expiresAt] at live
  exact Bool.false_ne_true (live.symm.trans expired)

/-- Where a look finds nothing, reads find nothing. -/
theorem reads_eq_none (nothing : s.peek now key = none) :
    (s.get now key).1 = none ∧ (s.getEntry now key).1 = none := by
  rw [fst_get, fst_getEntry, nothing]
  exact ⟨rfl, rfl⟩

/-- After a read that has found nothing, a write drops at most the entry that was used least
recently, and this only if the key was not there and the store is full. -/
theorem get?_set_getEntry_of_ne (within : s.WithinCapacity) (absent : s.peek now key = none)
    (differs : other ≠ key) (value : Json) (ttl : Option Duration) :
    let s' := ((s.getEntry now key).2.set now key value ttl).2
    s'.entries.get? other = s.entries.get? other ∨
      s'.entries.get? other = none ∧ s.recency.toList.head? = some other ∧
        s.entries.contains key = false ∧ s.size = s.capacity := by
  intro s'
  have kept : (s.getEntry now key).2.entries.get? other = s.entries.get? other :=
    (s.get?_getEntry now key other).trans (if_neg differs)
  have bound := get?_set_of_ne differs (s.getEntry now key).2 now value ttl
  split at bound
  · rename_i drops
    rw [evicted_set] at drops
    split at drops
    · rename_i full
      refine .inr ⟨bound, ?_⟩
      rw [getEntry] at drops full
      cases was : s.entries.get? key with
      | none =>
        rw [was] at drops full
        exact ⟨drops, full.1, Nat.le_antisymm within.bounded full.2⟩
      | some e =>
        -- The entry of the key is expired, and its place is free once the read has found this out.
        have expired : e.isExpired now = true := by
          rw [peek, was, Option.filter_eq_none_iff] at absent
          simpa using absent e rfl
        have there : s.entries.contains key = true := by
          rw [Assoc.contains, was, Option.isSome_some]
        have fewer := Nat.lt_of_lt_of_le (Assoc.size_erase_lt there) within.bounded
        rw [was] at full
        dsimp only at full
        rw [if_pos expired] at full
        exact absurd full.2 (Nat.not_le.mpr fewer)
    · cases drops
  · exact .inl (bound.trans kept)

end Store

namespace Depot

variable {d : Depot} {p : TierPair} {key : CacheKey} {first second : String} {now : Nat} {e : Entry}

/-- A first tier whose entries live for a time of their own does not make a copy live longer. -/
theorem promotionTtl_or (ttl own remaining : Option Duration) :
    (promotionTtl (ttl.or own) remaining).or own = promotionTtl (ttl.or own) remaining := by
  cases ttl <;> cases own <;> cases remaining <;> rfl

/-- A copy expires after the shortest of the times that are given. -/
theorem map_timestampAfter_promotionTtl {requested : Option Duration} {remaining : Option Nat}
    (short : ∀ t ∈ requested, t.millis < UInt64.size) (few : ∀ ms ∈ remaining, ms < UInt64.size)
    (now : Nat) :
    (promotionTtl requested (remaining.map .ofMillis)).map (timestampAfter now) =
      (Option.merge min (requested.map Duration.millis) remaining).map fun ms =>
        min (now + ms) maxMillis := by
  cases requested with
  | none =>
    cases remaining with
    | none => rfl
    | some ms =>
      have whole : (Duration.ofMillis ms).wholeMillis = ms :=
        (Duration.wholeMillis_ofMillis ms).trans (Nat.mod_eq_of_lt (few ms rfl))
      exact congrArg (fun ms => some (min (now + ms) maxMillis)) whole
  | some t =>
    cases remaining with
    | none =>
      have whole := Duration.wholeMillis_of_lt (short t rfl)
      exact congrArg (fun ms => some (min (now + ms) maxMillis)) whole
    | some ms =>
      have shorter := t.millis_shorter (.ofMillis ms)
      rw [Duration.millis_ofMillis] at shorter
      have few' : (t.shorter (.ofMillis ms)).millis < UInt64.size :=
        shorter ▸ Nat.lt_of_le_of_lt (Nat.min_le_left _ _) (short t rfl)
      have whole := (Duration.wholeMillis_of_lt few').trans shorter
      exact congrArg (fun ms => some (min (now + ms) maxMillis)) whole

/-- What a read of a pair does to the tiers if it has to make a copy. -/
theorem store_tierGet (named : p.isNamed d first second = true) (inside : d.HasTiers p)
    (absent : (d.store p.upper).peek now key = none)
    (live : (d.store p.lower).peek now key = some e) (ttl : Option Duration) :
    let upper := ((d.store p.upper).getEntry now key).2
    (d.tierGet now first (some second) key ttl).2.store p.upper =
        (upper.set now key e.value (promotionTtl (ttl.or upper.defaultTtl)
          ((e.remaining now).map .ofMillis))).2 ∧
      (d.tierGet now first (some second) key ttl).2.store p.lower =
        ((d.store p.lower).getEntry now key).2 := by
  intro upper
  obtain ⟨here, there⟩ := isNamed_iff.mp named
  -- The look into the first tier, and the one into the second.
  let looked := (d.getKey now (d.getCache first) key).2
  let read := (looked.getEntry now (d.getCache second) key).2
  have missed : d.getKey now (d.getCache first) key = (none, looked) := by
    refine Prod.ext ((Store.fst_get (d.store (d.getCache first).cell) now key).trans ?_) rfl
    rw [here, absent, Option.map_none]
  have found : looked.getEntry now (looked.getCache second) key = (some (e.touch now), read) := by
    refine Prod.ext ?_ rfl
    have found := fst_getEntry_second named now key
    rw [live] at found
    exact found
  have upper' : read.store p.upper = upper := by
    refine (store_onStore_of_ne _ _ (there ▸ p.distinct.symm)).trans ?_
    exact store_onStore_self here inside.1 _
  have lower' : read.store p.lower = ((d.store p.lower).getEntry now key).2 := by
    have inside' : p.lower < looked.stores.length := by
      rw [show looked.stores.length = d.stores.length from length_onStore ..]
      exact inside.2
    refine (store_onStore_self there inside' _).trans ?_
    rw [show looked.store p.lower = d.store p.lower from
      store_onStore_of_ne _ _ (here ▸ p.distinct)]
  have inside' : p.upper < read.stores.length := by
    have same : read.stores.length = d.stores.length :=
      (length_onStore ..).trans (length_onStore ..)
    exact same ▸ inside.1
  rw [tierGet, missed]
  dsimp only
  rw [found]
  dsimp only
  rw [here, upper']
  constructor
  · refine (store_onStore_self here inside' _).trans ?_
    rw [upper']
    rfl
  · exact (store_onStore_of_ne _ _ (here ▸ p.distinct)).trans lower'

/-- The copy that a read of a pair leaves in the first tier. -/
theorem get?_tierGet (reached : d.Reached) (named : p.isNamed d first second = true)
    (absent : (d.store p.upper).peek now key = none)
    (live : (d.store p.lower).peek now key = some e) (ttl : Option Duration)
    (short : ∀ t ∈ ttl.or (d.store p.upper).defaultTtl, t.millis < UInt64.size) :
    ((d.tierGet now first (some second) key ttl).2.store p.upper).entries.get? key =
      some ⟨e.value, now,
        (Option.merge min ((ttl.or (d.store p.upper).defaultTtl).map Duration.millis)
          (e.remaining now)).map fun ms => min (now + ms) maxMillis, now⟩ := by
  have inTime : ∀ expires ∈ e.expiresAt, expires ≤ maxMillis :=
    reached.everyStore Store.lasting_expiresInTime p.lower key e (Store.peek_eq_some_iff.mp live).1
  have few : ∀ ms ∈ e.remaining now, ms < UInt64.size := by
    intro ms left
    obtain ⟨expires, limited, rfl⟩ := Option.map_eq_some_iff.mp left
    have last : maxMillis < UInt64.size := by decide
    exact Nat.lt_of_le_of_lt (Nat.sub_le _ _) (Nat.lt_of_le_of_lt (inTime expires limited) last)
  have usual : ((d.store p.upper).getEntry now key).2.defaultTtl = (d.store p.upper).defaultTtl :=
    ((d.store p.upper).limits_perform now (.getEntry key)).2
  rw [(store_tierGet named (reached.hasTiers named) absent live ttl).1, Store.get?_set_self, usual,
    promotionTtl_or, Entry.new, map_timestampAfter_promotionTtl short few]

/-- What lives no longer than is left of a live entry expires no later than the entry. -/
theorem exists_expires_le (requested : Option Nat) {expires : Nat}
    (limited : e.expiresAt = some expires) (alive : e.isExpired now = false) :
    ∃ early, (Option.merge min requested (e.remaining now)).map
        (fun ms => min (now + ms) maxMillis) = some early ∧ early ≤ expires := by
  have ahead : now < expires := by
    rw [Entry.isExpired, limited] at alive
    exact Nat.lt_of_not_le (of_decide_eq_false alive)
  have within : ∀ ms, ms ≤ expires - now → min (now + ms) maxMillis ≤ expires := by
    intro ms le
    omega
  rw [Entry.remaining, limited, Option.map_some]
  cases requested with
  | none => exact ⟨_, rfl, within _ (Nat.le_refl _)⟩
  | some ms => exact ⟨_, rfl, within _ (Nat.min_le_right _ _)⟩

/-- A copy never outlives what it was made of. A read of a pair that finds nothing in the first tier
and an entry in the second answers its value and leaves a copy in the first tier. The copy expires
after the shortest of the times that are given, of the time that is asked for, or else is usual in
the first tier, and of the time that is left in the second; without any it does not expire, and no
timestamp is beyond the last. It expires no later than the entry it was made of, and as long as the
key is not written again nothing is found under it in the first tier from then on. The entry stays
what it is, but for the time of its last use. Every other key of the first tier keeps its entry, but
for the one that was used least recently, which goes if the first tier was full without the key. -/
theorem tierGet_copies (reached : d.Reached) (named : p.isNamed d first second = true)
    (absent : (d.store p.upper).peek now key = none)
    (live : (d.store p.lower).peek now key = some e) (ttl : Option Duration)
    (short : ∀ t ∈ ttl.or (d.store p.upper).defaultTtl, t.millis < UInt64.size) :
    let result := d.tierGet now first (some second) key ttl
    let s := d.store p.upper
    let s' := result.2.store p.upper
    let lifetime := Option.merge min ((ttl.or s.defaultTtl).map Duration.millis) (e.remaining now)
    result.1 = some e.value ∧
    (∃ copy, s'.entries.get? key = some copy ∧ copy.value = e.value ∧ copy.createdAt = now ∧
      copy.expiresAt = lifetime.map (fun ms => min (now + ms) maxMillis) ∧
      ∀ expires, e.expiresAt = some expires →
        (∃ early, copy.expiresAt = some early ∧ early ≤ expires) ∧
        ∀ operations : List (Nat × StoreOperation),
          (∀ o ∈ operations, ∀ value ttl, o.2 ≠ .set key value ttl) → ∀ later, expires ≤ later →
            let last := (s'.run operations).2
            last.peek later key = none ∧ (last.get later key).1 = none ∧
              (last.getEntry later key).1 = none) ∧
    (∃ kept, (result.2.store p.lower).entries.get? key = some kept ∧ kept.Continues e) ∧
    ∀ other, other ≠ key →
      s'.entries.get? other = s.entries.get? other ∨
        s'.entries.get? other = none ∧ s.recency.toList.head? = some other ∧
          s.entries.contains key = false ∧ s.size = s.capacity := by
  intro result s s' lifetime
  obtain ⟨upper, lower⟩ := store_tierGet named (reached.hasTiers named) absent live ttl
  have copied := get?_tierGet reached named absent live ttl short
  refine ⟨?_, ⟨_, copied, rfl, rfl, rfl, ?_⟩, ?_, ?_⟩
  · rw [fst_tierGet named, absent, live, Option.none_or, Option.map_some]
  · intro expires limited
    obtain ⟨early, expiresAt, le⟩ := exists_expires_le
      ((ttl.or s.defaultTtl).map Duration.millis) limited (Store.peek_eq_some_iff.mp live).2
    refine ⟨⟨early, expiresAt, le⟩, ?_⟩
    intro operations unwritten later passed last
    have nothing : last.peek later key = none := by
      refine Store.peek_eq_none_of_retains (Store.retains_run unwritten s') copied ?_
      rw [Entry.isExpired, expiresAt]
      exact decide_eq_true (Nat.le_trans le passed)
    exact ⟨nothing, Store.reads_eq_none nothing⟩
  · refine ⟨e.touch now, ?_, .touch e now⟩
    rw [lower, Store.get?_getEntry, if_pos rfl, Store.fst_getEntry, live, Option.map_some]
  · intro other differs
    have within : s.WithinCapacity := reached.everyStore Store.lasting_withinCapacity p.upper
    rw [show s' = _ from upper]
    exact Store.get?_set_getEntry_of_ne within absent differs _ _

/-- The small pair, with a value that only the second tier has. -/
def lowerOnly (ttl : Option Duration) : List (Nat × Action) :=
  pairCreation ++ [(1, .start (.set (.named "l2") ⟨"a"⟩ (.string "kept") ttl))]

/-- A copy is asked for that would live longer than what it is made of. -/
theorem tierGet_copies_lowerOnly :
    ∃ made, Depot.new 0 ⟨9, none, none⟩ ⟨10, 3, none⟩ = .ok made ∧
      let d := made.run (lowerOnly (some (.ofMillis 50)))
      smallPair.isNamed d "l1" "l2" = true ∧ (d.store 1).peek 6 ⟨"a"⟩ = none ∧
      (d.store 2).peek 6 ⟨"a"⟩ = some ⟨.string "kept", 1, some 51, 1⟩ ∧
      (Duration.ofMillis 100).millis < UInt64.size ∧
      let s := (d.tierGet 6 "l1" (some "l2") ⟨"a"⟩ (some (.ofMillis 100))).2.store 1
      (∃ copy, s.entries.get? ⟨"a"⟩ = some copy ∧ copy.expiresAt = some 51) ∧
        (s.get 51 ⟨"a"⟩).1 = none := by
  have new : Depot.new 0 ⟨9, none, none⟩ ⟨10, 3, none⟩ = .ok _ := rfl
  have reached := (Reached.made new).run (lowerOnly (some (.ofMillis 50)))
  refine ⟨_, new, rfl, rfl, rfl, by decide, ?_⟩
  obtain ⟨-, ⟨copy, there, -, -, expires, bounded⟩, -⟩ :=
    tierGet_copies reached (show smallPair.isNamed _ "l1" "l2" = true from rfl)
      (show (Depot.store _ 1).peek 6 ⟨"a"⟩ = none from rfl)
      (show (Depot.store _ 2).peek 6 ⟨"a"⟩ = some ⟨.string "kept", 1, some 51, 1⟩ from rfl)
      (some (.ofMillis 100)) (by rintro t ⟨⟩; decide)
  exact ⟨⟨copy, there, expires⟩, ((bounded 51 rfl).2 [] nofun 51 (Nat.le_refl 51)).2.1⟩

/-- The largest time is asked for, and the copy expires at the last timestamp instead of after
that time. -/
theorem tierGet_copy_expires_before_requested :
    ∃ made, Depot.new 0 ⟨9, none, none⟩ ⟨10, 3, none⟩ = .ok made ∧
      let d := made.run (lowerOnly none)
      smallPair.isNamed d "l1" "l2" = true ∧ (d.store 1).peek 6 ⟨"a"⟩ = none ∧
      (d.store 2).peek 6 ⟨"a"⟩ = some ⟨.string "kept", 1, none, 1⟩ ∧
      (Duration.ofMillis 18446744073709551615).millis < UInt64.size ∧
      let s :=
        (d.tierGet 6 "l1" (some "l2") ⟨"a"⟩ (some (.ofMillis 18446744073709551615))).2.store 1
      (s.entries.get? ⟨"a"⟩).bind Entry.expiresAt = some 18446744073709551615 ∧
        (s.entries.get? ⟨"a"⟩).bind Entry.expiresAt ≠ some (6 + 18446744073709551615) := by
  have new : Depot.new 0 ⟨9, none, none⟩ ⟨10, 3, none⟩ = .ok _ := rfl
  refine ⟨_, new, rfl, rfl, rfl, by decide, rfl, ?_⟩
  exact fun same => absurd (Option.some.inj same) (by decide)

end Depot
end CacheDepot
