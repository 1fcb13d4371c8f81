import CacheDepot.Depot.Registry
import CacheDepot.Proofs.Depot.WriteThrough

/-!
# Tiers that agree with what was written

A value gets into a pair of tiers by a write to both or as a copy of what the second tier holds.
Entries leave either tier on their own, and copies may outlive what they were made of, yet whatever
is found in either tier is what was written last. A read of the pair finds a value exactly when one
of the tiers holds it.
-/

namespace CacheDepot

/-- Two stores that are used as tiers, by their cells. -/
structure TierPair where
  upper : Nat
  lower : Nat
  distinct : upper ≠ lower

namespace TierPair

/-- Whether two names lead to the tiers of a pair. -/
def isNamed (p : TierPair) (d : Depot) (first second : String) : Bool :=
  (d.getCache first).cell = p.upper && (d.getCache second).cell = p.lower

/-- Whether an action reads or writes a pair as tiers. -/
def isUsedBy (p : TierPair) (d : Depot) : Action → Bool
  | .start (.tierGet first (some second) _ _) | .start (.tierSet first (some second) _ _ _) =>
    p.isNamed d first second
  | _ => false

/-- Whether a write goes to neither tier. -/
def spares (p : TierPair) (w : Write) : Bool :=
  w.handle.cell ≠ p.upper && w.handle.cell ≠ p.lower

/-- What an action writes to both tiers under a key. -/
def writtenNow (p : TierPair) (d : Depot) (key : CacheKey) : Action → List Json
  | .start (.tierSet first (some second) key' value _) =>
    if p.isNamed d first second && key' = key then [value] else []
  | _ => []

/-- Whether all that a run writes to either tier it writes by using the pair. -/
def usedOnly (p : TierPair) (d : Depot) : List (Nat × Action) → Bool
  | [] => true
  | (now, a) :: rest =>
    (p.isUsedBy d a || (d.writes now a).all p.spares) && p.usedOnly (d.act now a) rest

/-- The values that a run writes to both tiers under a key, in order. -/
def written (p : TierPair) (d : Depot) (key : CacheKey) : List (Nat × Action) → List Json
  | [] => []
  | (now, a) :: rest => p.writtenNow d key a ++ p.written (d.act now a) key rest

end TierPair

namespace Depot

variable {d : Depot} {p : TierPair} {key : CacheKey} {first second : String}

theorem isNamed_iff :
    p.isNamed d first second = true ↔
      (d.getCache first).cell = p.upper ∧ (d.getCache second).cell = p.lower := by
  rw [TierPair.isNamed, Bool.and_eq_true, decide_eq_true_eq, decide_eq_true_eq]

/-- Whether both tiers have under a key the last of these values, or nothing. -/
structure TiersHold (p : TierPair) (key : CacheKey) (values : List Json) (d : Depot) : Prop where
  upper : d.HoldsLast p.upper key values
  lower : d.HoldsLast p.lower key values

/-! ## Reads of a pair -/

/-- What the second tier answers is not touched by the look into the first. -/
theorem fst_getEntry_second (named : p.isNamed d first second = true) (now : Nat) (key : CacheKey) :
    ((d.getKey now (d.getCache first) key).2.getEntry now
        ((d.getKey now (d.getCache first) key).2.getCache second) key).1 =
      ((d.store p.lower).peek now key).map (·.touch now) := by
  obtain ⟨upper, lower⟩ := isNamed_iff.mp named
  have apart : (d.getKey now (d.getCache first) key).2.store p.lower = d.store p.lower :=
    d.store_onStore_of_ne _ (upper ▸ p.distinct)
  rw [← apart, ← lower]
  exact Store.fst_getEntry _ now key

/-- What a read of a pair finds is in the first tier or in the second. -/
theorem fst_tierGet (named : p.isNamed d first second = true) (now : Nat) (key : CacheKey)
    (ttl : Option Duration) :
    (d.tierGet now first (some second) key ttl).1 =
      (((d.store p.upper).peek now key).or ((d.store p.lower).peek now key)).map Entry.value := by
  have found : (d.getKey now (d.getCache first) key).1 =
      ((d.store p.upper).peek now key).map Entry.value :=
    (isNamed_iff.mp named).1 ▸ Store.fst_get (d.store (d.getCache first).cell) now key
  have copied := fst_getEntry_second named now key
  rw [tierGet]
  generalize d.getKey now (d.getCache first) key = result at found copied ⊢
  obtain ⟨value, d'⟩ := result
  dsimp only at found copied ⊢
  cases live : (d.store p.upper).peek now key with
  | some e =>
    rw [found, live]
    rfl
  | none =>
    rw [found, live, Option.none_or, Option.map_none]
    dsimp only
    generalize d'.getEntry now (d'.getCache second) key = result at copied ⊢
    obtain ⟨entry, d''⟩ := result
    dsimp only at copied ⊢
    rw [copied]
    cases (d.store p.lower).peek now key <;> rfl

/-- What a read of a pair writes is a copy of what the second tier holds. -/
theorem resident?_of_writes_tierGet (named : p.isNamed d first second = true) {now : Nat}
    {ttl : Option Duration} {w : Write}
    (member : w ∈ (Operation.tierGet first (some second) key ttl).writes d now) :
    w.key = key ∧ (d.store p.lower).resident? key = some w.value := by
  have copied := fst_getEntry_second named now key
  rw [Operation.writes] at member
  generalize d.getKey now (d.getCache first) key = result at copied member
  obtain ⟨value, d'⟩ := result
  cases value with
  | some value => cases member
  | none =>
    dsimp only at copied member
    obtain ⟨e, found, rfl⟩ := Option.map_eq_some_iff.mp (Option.mem_toList.mp member)
    rw [copied] at found
    obtain ⟨e, live, rfl⟩ := Option.map_eq_some_iff.mp found
    have there := Store.resident?_of_peek live
    exact ⟨rfl, there⟩

/-! ## Runs -/

namespace TiersHold

variable {values : List Json}

/-- A write to both tiers brings its value into both. -/
theorem tierSet (h : d.TiersHold p key values) (named : p.isNamed d first second = true)
    (now : Nat) (key' : CacheKey) (value : Json) (ttl : Option Duration) :
    (d.tierSet now first (some second) key' value ttl).TiersHold p key
      (values ++ if key' = key then [value] else []) := by
  obtain ⟨upper, lower⟩ := isNamed_iff.mp named
  have both : ∀ {cell}, d.HoldsLast cell key values →
      (d.tierSet now first (some second) key' value ttl).HoldsLast cell key
        (values ++ (if Write.isAt cell key ⟨d.getCache second, key', value⟩ then [value] else []) ++
          if Write.isAt cell key ⟨d.getCache first, key', value⟩ then [value] else []) :=
    fun h => (h.setKey now ⟨_, key', value⟩ (ttl.map Duration.doubled)).setKey now ⟨_, _, _⟩ ttl
  constructor
  · simpa [Write.isAt, upper, lower, p.distinct.symm] using both h.upper
  · simpa [Write.isAt, upper, lower, p.distinct] using both h.lower

/-- A read of the pair copies at most what is the last value already. -/
theorem tierGet {d' : Depot} (h : d.TiersHold p key values)
    (named : p.isNamed d first second = true) {now : Nat} {key' : CacheKey} (ttl : Option Duration)
    (stems : ∀ cell,
      d.Stems ((Operation.tierGet first (some second) key' ttl).writes d now) cell key d') :
    d'.TiersHold p key values := by
  have copies : ∀ {cell}, d.HoldsLast cell key values → d'.HoldsLast cell key values := by
    intro cell old value there
    rcases (stems cell).resident_cases there with stays | ⟨w, member, here, rfl⟩
    · exact old value stays
    · obtain ⟨same, copied⟩ := resident?_of_writes_tierGet named member
      exact h.lower w.value (((Write.isAt_iff.mp here).2.symm.trans same) ▸ copied)
  exact ⟨copies h.upper, copies h.lower⟩

theorem act {now : Nat} {a : Action} (h : d.TiersHold p key values)
    (used : (p.isUsedBy d a || (d.writes now a).all p.spares) = true) :
    (d.act now a).TiersHold p key (values ++ p.writtenNow d key a) := by
  have stems := fun cell => (d.turn_act now a).stems cell key
  -- An operation is carried out once its task has been given a number.
  have numbered : { d with nextTask := d.nextTask + 1 }.TiersHold p key values := ⟨h.upper, h.lower⟩
  by_cases uses : p.isUsedBy d a = true
  · unfold TierPair.isUsedBy at uses
    split at uses
    · rename_i first second key' ttl
      have nothing : p.writtenNow d key (.start (.tierGet first (some second) key' ttl)) = [] := rfl
      rw [nothing, List.append_nil]
      exact numbered.tierGet uses ttl stems
    · rename_i first second key' value ttl
      have written := numbered.tierSet uses now key' value ttl
      rw [TierPair.writtenNow, uses, Bool.true_and]
      simp only [decide_eq_true_eq]
      exact ⟨written.upper, written.lower⟩
    · cases uses
  · have spared : ∀ w ∈ d.writes now a, w.handle.cell ≠ p.upper ∧ w.handle.cell ≠ p.lower := by
      simpa [uses, TierPair.spares] using used
    have nothing : p.writtenNow d key a = [] := by
      unfold TierPair.writtenNow
      split
      · rw [TierPair.isUsedBy] at uses
        rw [Bool.eq_false_iff.mpr uses, Bool.false_and]
        rfl
      · rfl
    rw [nothing, List.append_nil]
    constructor
    · refine h.upper.fades ((stems p.upper).fades fun w member => ?_)
      simp [Write.isAt, (spared w member).1]
    · refine h.lower.fades ((stems p.lower).fades fun w member => ?_)
      simp [Write.isAt, (spared w member).2]

theorem run (h : d.TiersHold p key values) {actions : List (Nat × Action)}
    (used : p.usedOnly d actions = true) :
    (d.run actions).TiersHold p key (values ++ p.written d key actions) := by
  induction actions generalizing d values with
  | nil =>
    rw [TierPair.written, List.append_nil]
    exact h
  | cons first rest ih =>
    obtain ⟨now, a⟩ := first
    rw [TierPair.usedOnly, Bool.and_eq_true] at used
    rw [TierPair.written, ← List.append_assoc]
    exact ih (h.act used.1) used.2

end TiersHold

theorem holdsLast_of_isEmpty {cell : Nat} (empty : (d.store cell).isEmpty = true) (key : CacheKey) :
    d.HoldsLast cell key [] := by
  intro value there
  cases (Store.resident?_of_isEmpty empty key).symm.trans there

/-- Two stores that start empty and into which values are brought only by writes to both of them
as tiers and by reads of the pair, whatever else is done: reads, removals, sweeps, clearing, and
anything that goes to other stores. Whatever is found in either tier, live or not, is the value
that was written last, and a read of the pair finds a value exactly when one of the tiers has a
live entry, and it finds that value. -/
theorem tierGet_run_eq_last (p : TierPair) (upper : (d.store p.upper).isEmpty = true)
    (lower : (d.store p.lower).isEmpty = true) {actions : List (Nat × Action)}
    (used : p.usedOnly d actions = true) :
    (∀ cell ∈ [p.upper, p.lower], ∀ key value,
      ((d.run actions).store cell).resident? key = some value →
        (p.written d key actions).getLast? = some value) ∧
    ∀ now first second key ttl, p.isNamed (d.run actions) first second = true →
      (((d.run actions).tierGet now first (some second) key ttl).1.isSome = true ↔
        (((d.run actions).store p.upper).peek now key).isSome = true ∨
          (((d.run actions).store p.lower).peek now key).isSome = true) ∧
      ∀ value, ((d.run actions).tierGet now first (some second) key ttl).1 = some value →
        (p.written d key actions).getLast? = some value := by
  have holds : ∀ key, (d.run actions).TiersHold p key (p.written d key actions) := fun key =>
    TiersHold.run ⟨holdsLast_of_isEmpty upper key, holdsLast_of_isEmpty lower key⟩ used
  refine ⟨?_, ?_⟩
  · simp only [List.forall_mem_cons]
    exact ⟨fun key => (holds key).upper, fun key => (holds key).lower, nofun⟩
  · intro now first second key ttl named
    rw [fst_tierGet named]
    refine ⟨by simp, ?_⟩
    intro value found
    obtain ⟨e, live, rfl⟩ := Option.map_eq_some_iff.mp found
    rcases Option.or_eq_some_iff.mp live with here | ⟨-, there⟩
    · exact (holds key).upper e.value (Store.resident?_of_peek here)
    · exact (holds key).lower e.value (Store.resident?_of_peek there)

/-- A small tier in front of a larger one. -/
def smallPair : TierPair := ⟨1, 2, by decide⟩

/-- The stores of the small pair are created. -/
def pairCreation : List (Nat × Action) :=
  [(0, .start (.create "l1" ⟨1, none, none⟩)), (0, .start (.create "l2" ⟨2, none, none⟩))]

/-- The first tier drops a key, gets it back from the second, sees it written anew, loses it, and
gets it back once more, for a shorter time. -/
def pairUse : List (Nat × Action) :=
  [(1, .start (.tierSet "l1" (some "l2") ⟨"a"⟩ (.string "old") (some (.ofMillis 50)))),
    (2, .start (.tierSet "l1" (some "l2") ⟨"b"⟩ (.string "other") none)),
    (3, .start (.tierGet "l1" (some "l2") ⟨"a"⟩ none)),
    (4, .start (.tierSet "l1" (some "l2") ⟨"a"⟩ (.string "new") (some (.ofMillis 50)))),
    (5, .start (.delete (.named "l1") ⟨"a"⟩)),
    (6, .start (.tierGet "l1" (some "l2") ⟨"a"⟩ (some (.ofMillis 10)))),
    (20, .start (.sweep (.named "l1")))]

/-- After all this the second tier still answers with what was written last. -/
theorem pairUse_eq_last :
    ∃ made, Depot.new 0 ⟨9, none, none⟩ ⟨10, 3, none⟩ = .ok made ∧
      let d := made.run pairCreation
      (d.store 1).isEmpty = true ∧ (d.store 2).isEmpty = true ∧
      smallPair.usedOnly d pairUse = true ∧
      ((d.run pairUse).tierGet 30 "l1" (some "l2") ⟨"a"⟩ none).1 = some (.string "new") ∧
      (smallPair.written d ⟨"a"⟩ pairUse).getLast? = some (.string "new") := by
  have new : Depot.new 0 ⟨9, none, none⟩ ⟨10, 3, none⟩ = .ok _ := rfl
  refine ⟨_, new, rfl, rfl, rfl, rfl, ?_⟩
  exact ((tierGet_run_eq_last smallPair rfl rfl rfl).2 30 "l1" "l2" ⟨"a"⟩ none rfl).2 _ rfl

end Depot
end CacheDepot
