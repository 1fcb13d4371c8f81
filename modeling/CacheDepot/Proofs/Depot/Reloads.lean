import CacheDepot.Depot.Registry
import CacheDepot.Proofs.Depot.ActionEffects
import Mathlib.Logic.ExistsUnique

/-!
# One reload at a time

A reload is claimed by the name of the store and the key before it is started, and in whatever way
it ends the claim goes with it. So the claims of a depot are those of the reloads under way, one
for each, and nothing is claimed for ever.
-/

namespace CacheDepot.Depot

/-- What a task that is under way is known by, if it is a background reload. -/
def reloadId? (d : Depot) (id : Nat) : Option ReloadId := (d.tasks.get? id).bind Task.reloadId?

/-- Whether the claims are those of the reloads under way, one for each. -/
structure SingleFlight (d : Depot) : Prop where
  numbered : d.Numbered
  distinct : d.reloading.Nodup
  claims : ∀ claim, claim ∈ d.reloading ↔ ∃ id, d.reloadId? id = some claim
  alone : ∀ claim id id', d.reloadId? id = some claim → d.reloadId? id' = some claim → id = id'

variable {d d' : Depot} {id : Nat} {t : Task}

theorem reloadId?_of_get? (bound : d.tasks.get? id = some t) : d.reloadId? id = t.reloadId? := by
  rw [reloadId?, bound, Option.bind_some]

theorem reloadId?_congr (same : d'.tasks.get? id = d.tasks.get? id) :
    d'.reloadId? id = d.reloadId? id := by
  rw [reloadId?, reloadId?, same]

theorem reloadId?_changes {W : List Write} (changes : d.Changes W d') (id : Nat) :
    d'.reloadId? id = d.reloadId? id :=
  reloadId?_congr (by rw [changes.keeps.1])

theorem reloadId?_insert (tasks : d'.tasks = d.tasks.insert id t) (other : Nat) :
    d'.reloadId? other = if other = id then t.reloadId? else d.reloadId? other := by
  rw [reloadId?, tasks, Assoc.get?_insert]
  split <;> rfl

theorem reloadId?_dropTask (d : Depot) (id other : Nat) :
    (d.dropTask id).reloadId? other = if other = id then none else d.reloadId? other := by
  rw [reloadId?, dropTask, Assoc.get?_erase]
  split <;> rfl

namespace SingleFlight

theorem reloadId?_nextTask (h : d.SingleFlight) : d.reloadId? d.nextTask = none := by
  rw [reloadId?, h.numbered.get?_nextTask, Option.bind_none]

theorem lt_nextTask (h : d.SingleFlight) {claim : ReloadId} (flies : d.reloadId? id = some claim) :
    id < d.nextTask := by
  obtain ⟨t, bound, -⟩ := Option.bind_eq_some_iff.mp flies
  exact h.numbered id t bound

/-- Only claims and reloads matter. -/
theorem of_same (h : d.SingleFlight) (numbered : d'.Numbered) (claims : d'.reloading = d.reloading)
    (reloads : ∀ id, d'.reloadId? id = d.reloadId? id) : d'.SingleFlight := by
  refine ⟨numbered, claims ▸ h.distinct, ?_, ?_⟩
  · intro claim
    simp only [claims, reloads]
    exact h.claims claim
  · intro claim id id' flies flies'
    rw [reloads] at flies flies'
    exact h.alone claim id id' flies flies'

theorem congr (h : d.SingleFlight) (tasks : d'.tasks = d.tasks)
    (claims : d'.reloading = d.reloading) (numbers : d.nextTask ≤ d'.nextTask) :
    d'.SingleFlight := by
  refine h.of_same ?_ claims fun id => reloadId?_congr (tasks ▸ rfl)
  intro id t bound
  rw [tasks] at bound
  exact Nat.lt_of_lt_of_le (h.numbered id t bound) numbers

theorem changes {W : List Write} (h : d.SingleFlight) (changes : d.Changes W d') :
    d'.SingleFlight := by
  obtain ⟨tasks, nextTask, reloading⟩ := changes.keeps
  exact h.congr tasks reloading (Nat.le_of_eq nextTask.symm)

/-- A task changes without becoming or ceasing to be a reload. -/
theorem insert (h : d.SingleFlight) (tasks : d'.tasks = d.tasks.insert id t)
    (claims : d'.reloading = d.reloading) (numbers : d.nextTask ≤ d'.nextTask)
    (known : id < d'.nextTask) (same : t.reloadId? = d.reloadId? id) : d'.SingleFlight := by
  refine h.of_same ?_ claims ?_
  · intro other t' bound
    rw [tasks, Assoc.get?_insert] at bound
    split at bound
    · rename_i same
      exact same ▸ known
    · exact Nat.lt_of_lt_of_le (h.numbered other t' bound) numbers
  · intro other
    rw [reloadId?_insert tasks]
    split
    · rename_i here
      rw [same, here]
    · rfl

theorem dropTask (h : d.SingleFlight) (plain : d.reloadId? id = none) :
    (d.dropTask id).SingleFlight := by
  refine h.of_same ?_ rfl ?_
  · intro other t bound
    rw [Depot.dropTask, Assoc.get?_erase] at bound
    split at bound
    · cases bound
    · exact h.numbered other t bound
  · intro other
    rw [reloadId?_dropTask]
    split
    · rename_i here
      rw [here, plain]
    · rfl

theorem settleTask {result : Progress × Depot} (h : result.2.SingleFlight)
    (known : id < result.2.nextTask) (plain : result.2.reloadId? id = none)
    (stays : result.1.reloadId? = none) : (settleTask id result).SingleFlight := by
  obtain ⟨progress, d⟩ := result
  cases progress with
  | answered answer => exact h.insert rfl rfl (Nat.le_refl _) known plain.symm
  | waits t => exact h.insert rfl rfl (Nat.le_refl _) known (stays.trans plain.symm)

/-- A reload is started after it has been claimed, if nobody else has claimed it. -/
theorem startReload (h : d.SingleFlight) (handle : Handle) (key : CacheKey)
    (ttl : Option Duration) (loader : Loader) :
    (d.startReload handle key ttl loader).SingleFlight := by
  unfold Depot.startReload
  dsimp only
  split
  · exact h
  rename_i unclaimed
  rw [List.contains_iff_mem] at unclaimed
  have reloads : ∀ other, ({ d with reloading := (handle.name, key) :: d.reloading }.spawn
      (.reloadReady handle key ttl loader)).2.reloadId? other =
      if other = d.nextTask then some (handle.name, key) else d.reloadId? other := by
    intro other
    rw [reloadId?, spawn, Assoc.get?_insert]
    split <;> rfl
  generalize spawned : ({ d with reloading := (handle.name, key) :: d.reloading }.spawn
    (.reloadReady handle key ttl loader)).2 = d' at reloads ⊢
  -- The new claim belongs to the new task alone, and the others belong to whom they belonged.
  have own : ∀ other, d'.reloadId? other = some (handle.name, key) → other = d.nextTask := by
    intro other flies
    by_cases new : other = d.nextTask
    · exact new
    · rw [reloads, if_neg new] at flies
      exact absurd ((h.claims _).mpr ⟨other, flies⟩) unclaimed
  have others : ∀ claim other, claim ≠ (handle.name, key) →
      (d'.reloadId? other = some claim ↔ d.reloadId? other = some claim) := by
    intro claim other differs
    rw [reloads]
    split
    · rename_i new
      rw [new, h.reloadId?_nextTask]
      constructor
      · intro same
        cases same
        exact absurd rfl differs
      · intro flies
        cases flies
    · rfl
  subst spawned
  refine ⟨?_, List.nodup_cons.mpr ⟨unclaimed, h.distinct⟩, ?_, ?_⟩
  · intro other t bound
    rw [spawn, Assoc.get?_insert] at bound
    split at bound
    · rename_i new
      exact new ▸ Nat.lt_succ_self _
    · exact Nat.lt_succ_of_lt (h.numbered other t bound)
  · intro claim
    refine List.mem_cons.trans ?_
    by_cases new : claim = (handle.name, key)
    · subst new
      exact ⟨fun _ => ⟨d.nextTask, (reloads _).trans (if_pos rfl)⟩, fun _ => .inl rfl⟩
    · simp only [others claim _ new, new, false_or]
      exact h.claims claim
  · intro claim other other' flies flies'
    by_cases new : claim = (handle.name, key)
    · subst new
      rw [own other flies, own other' flies']
    · rw [others claim _ new] at flies flies'
      exact h.alone claim other other' flies flies'

/-- With the end of a reload its claim goes. -/
theorem release (h : d.SingleFlight) {claim : ReloadId} (flies : d.reloadId? id = some claim) :
    ({ d with reloading := d.reloading.erase claim }.dropTask id).SingleFlight := by
  have reloads := reloadId?_dropTask { d with reloading := d.reloading.erase claim } id
  have same : ∀ other, { d with reloading := d.reloading.erase claim }.reloadId? other =
      d.reloadId? other := fun other => rfl
  simp only [same] at reloads
  refine ⟨?_, h.distinct.erase claim, ?_, ?_⟩
  · intro other t bound
    rw [Depot.dropTask, Assoc.get?_erase] at bound
    split at bound
    · cases bound
    · exact h.numbered other t bound
  · intro claim'
    have member : claim' ∈ d.reloading.erase claim ↔ claim' ≠ claim ∧ claim' ∈ d.reloading :=
      h.distinct.mem_erase_iff
    refine member.trans ?_
    simp only [reloads]
    constructor
    · rintro ⟨differs, old⟩
      obtain ⟨other, flies'⟩ := (h.claims claim').mp old
      have apart : other ≠ id := by
        rintro rfl
        exact differs (Option.some.inj (flies'.symm.trans flies))
      exact ⟨other, (if_neg apart).trans flies'⟩
    · rintro ⟨other, flies'⟩
      split at flies'
      · cases flies'
      · rename_i apart
        refine ⟨?_, (h.claims claim').mpr ⟨other, flies'⟩⟩
        rintro rfl
        exact apart (h.alone _ _ _ flies' flies)
  · intro claim' other other' first second
    rw [reloads] at first second
    split at first
    · cases first
    · split at second
      · cases second
      · exact h.alone claim' other other' first second

theorem turn {W : List Write} {target? : Option Nat} (h : d.SingleFlight)
    (turn : d.Turn W target? d') : d'.SingleFlight := by
  cases turn with
  | quiet changes => exact h.changes changes
  | starts started =>
    have numbered : { d with nextTask := d.nextTask + 1 }.SingleFlight :=
      h.congr rfl rfl (Nat.le_succ _)
    have known := Nat.lt_of_lt_of_le (Nat.lt_succ_self d.nextTask) started.nextTask_le
    have plain := (reloadId?_congr (started.get?_of_lt (Nat.lt_succ_self d.nextTask))).trans
      h.reloadId?_nextTask
    cases started with
    | alone changes stays => exact (numbered.changes changes).settleTask known plain stays
    | drain changes worker =>
      have before := numbered.changes changes
      have spawned : (Depot.spawn _ (.draining worker)).2.SingleFlight :=
        before.insert rfl rfl (Nat.le_succ _) (Nat.lt_succ_self _) before.reloadId?_nextTask.symm
      exact spawned.settleTask known plain rfl
    | reload changes handle key ttl loader =>
      have started := (numbered.changes changes).startReload handle key ttl loader
      exact started.settleTask known plain rfl
  | settles bound plain changes stays =>
    have same := (reloadId?_changes changes _).trans (reloadId?_of_get? bound)
    refine (h.changes changes).settleTask ?_ (same.trans plain) stays
    rw [changes.keeps.2.1]
    exact h.numbered _ _ bound
  | drops bound plain changes =>
    have same := (reloadId?_changes changes _).trans (reloadId?_of_get? bound)
    exact (h.changes changes).dropTask (same.trans plain)
  | calls bound changes due =>
    have same := (reloadId?_changes changes _).trans (reloadId?_of_get? bound)
    refine (h.changes changes).insert rfl rfl (Nat.le_refl _) ?_ same.symm
    rw [changes.keeps.2.1]
    exact h.numbered _ _ bound
  | releases bound claims changes =>
    have same := (reloadId?_changes changes _).trans (reloadId?_of_get? bound)
    exact (h.changes changes).release (same.trans claims)

theorem run (h : d.SingleFlight) (actions : List (Nat × Action)) :
    (d.run actions).SingleFlight := by
  induction actions generalizing d with
  | nil => exact h
  | cons first rest ih => exact ih (h.turn (d.turn_act first.1 first.2))

end SingleFlight

theorem singleFlight_new {now : Nat} {store : StoreConfig} {writeBehind : WriteBehindConfig}
    (made : Depot.new now store writeBehind = .ok d) : d.SingleFlight := by
  rw [Depot.new] at made
  split at made
  · cases made
  · cases made
    refine ⟨?_, List.nodup_nil, ?_, ?_⟩
    · intro id t bound
      cases bound
    · intro claim
      constructor
      · intro member
        cases member
      · rintro ⟨id, flies⟩
        cases flies
    · intro claim id id' flies
      cases flies

/-! ## How a reload ends -/

/-- A reload stays where it is, or it has called its loader and waits for it, or it is over and
its claim has gone. -/
theorem Turn.reload_cases {W : List Write} {target? : Option Nat} (h : d.Turn W target? d')
    (old : id < d.nextTask) {claim : ReloadId} (flies : d.reloadId? id = some claim) :
    d'.tasks.get? id = d.tasks.get? id ∨
    (∃ handle key ttl loader due,
      d.tasks.get? id = some (.reloadReady handle key ttl loader) ∧
      d'.tasks.get? id = some (.reloading handle key ttl loader due)) ∨
    (d'.tasks.get? id = none ∧ d'.reloading = d.reloading.erase claim) := by
  by_cases own : target? = some id
  · cases h with
    | quiet changes => exact .inl (by rw [changes.keeps.1])
    | starts started => cases own
    | settles bound plain changes stays =>
      cases own
      cases (reloadId?_of_get? bound).symm.trans flies ▸ plain
    | drops bound plain changes =>
      cases own
      cases (reloadId?_of_get? bound).symm.trans flies ▸ plain
    | calls bound changes due =>
      cases own
      exact .inr (.inl ⟨_, _, _, _, due, bound, Assoc.get?_insert_self ..⟩)
    | releases bound claims changes =>
      cases own
      right; right
      have same : d.reloadId? id = some _ := (reloadId?_of_get? bound).trans claims
      cases same.symm.trans flies
      refine ⟨Assoc.get?_erase_self .., ?_⟩
      rw [← changes.keeps.2.2]
      rfl
  · exact .inl (h.get?_of_ne old own)

/-- A reload that waits for its loader goes on waiting, or it is over. -/
theorem get?_run_of_reloading (old : id < d.nextTask) {handle : Handle} {key : CacheKey}
    {ttl : Option Duration} {loader : Loader} {due : Nat}
    (waits : d.tasks.get? id = some (.reloading handle key ttl loader due))
    (actions : List (Nat × Action)) :
    (d.run actions).tasks.get? id = some (.reloading handle key ttl loader due) ∨
      (d.run actions).tasks.get? id = none := by
  induction actions generalizing d with
  | nil => exact .inl waits
  | cons first rest ih =>
    have turn := d.turn_act first.1 first.2
    have known := Nat.lt_of_lt_of_le old turn.nextTask_le
    have flies : d.reloadId? id = some (handle.name, key) := reloadId?_of_get? waits
    rcases turn.reload_cases old flies with same | ⟨_, _, _, _, _, ready, -⟩ | ⟨gone, -⟩
    · exact ih known (same.trans waits)
    · cases waits.symm.trans ready
    · exact .inr (get?_run_eq_none known gone rest)

/-- After a reload has had a turn it is over or waits for its loader. -/
theorem resume_reload {claim : ReloadId} (flies : d.reloadId? id = some claim) (now : Nat) :
    (d.resume now id).tasks.get? id = none ∨
      ∃ handle key ttl loader due,
        (d.resume now id).tasks.get? id = some (.reloading handle key ttl loader due) := by
  obtain ⟨t, bound, claims⟩ := Option.bind_eq_some_iff.mp flies
  simp only [resume, bound]
  cases t with
  | reloadReady handle key ttl loader =>
    rw [isReady, if_pos rfl, resumeTask]
    split
    · exact .inl (get?_dropTask _ id)
    · exact .inr ⟨handle, key, ttl, loader, _, Assoc.get?_insert_self ..⟩
  | reloading handle key ttl loader due =>
    split
    · exact .inl (get?_dropTask _ id)
    · exact .inr ⟨handle, key, ttl, loader, due, bound⟩
  | _ => cases claims

theorem resume_reloading {handle : Handle} {key : CacheKey} {ttl : Option Duration}
    {loader : Loader} {due now : Nat} (ended : due ≤ now)
    (waits : d.tasks.get? id = some (.reloading handle key ttl loader due)) :
    (d.resume now id).tasks.get? id = none := by
  rw [resume, waits]
  dsimp only
  rw [isReady, if_pos (decide_eq_true ended)]
  exact get?_dropTask _ id

/-- A reload that is given up is over. -/
theorem abort_reload {claim : ReloadId} (flies : d.reloadId? id = some claim) :
    (d.abort id).tasks.get? id = none := by
  obtain ⟨t, bound, claims⟩ := Option.bind_eq_some_iff.mp flies
  simp only [abort, bound]
  cases t with
  | reloadReady handle key ttl loader => exact get?_dropTask _ id
  | reloading handle key ttl loader due => exact get?_dropTask _ id
  | _ => cases claims

/-! ## Reloading ahead -/

/-- Whether a read of this key finds an entry that is old enough to be reloaded. -/
def needsReload (d : Depot) (now : Nat) (store : String) (key : CacheKey)
    (threshold : Threshold) : Bool :=
  (d.getEntry now (d.getCache store) key).1.any fun e => e.needsRefresh now threshold

/-- What a reload of this key is known by, started by that name. -/
def claimOf (d : Depot) (store : String) (key : CacheKey) : ReloadId :=
  ((d.getCache store).name, key)

variable {now : Nat} {store : String} {key : CacheKey} {threshold : Threshold}

theorem refreshAhead_eq (needs : d.needsReload now store key threshold = true)
    (ttl : Option Duration) (loader : Loader) :
    ∃ value, d.refreshAhead now store key ttl threshold loader =
      (.answered (.found (some value)),
        (d.getEntry now (d.getCache store) key).2.startReload (d.getCache store) key ttl
          loader) := by
  rw [needsReload] at needs
  unfold refreshAhead
  dsimp only
  generalize d.getEntry now (d.getCache store) key = result at needs ⊢
  obtain ⟨entry, d'⟩ := result
  cases entry with
  | none => cases needs
  | some e =>
    have old : e.needsRefresh now threshold = true := needs
    exact ⟨e.value, by dsimp only; rw [if_pos old]⟩

theorem startReload_of_claimed {handle : Handle}
    (claimed : (handle.name, key) ∈ d.reloading) (ttl : Option Duration) (loader : Loader) :
    d.startReload handle key ttl loader = d :=
  if_pos (List.contains_iff_mem.mpr claimed)

theorem startReload_of_unclaimed {handle : Handle}
    (unclaimed : (handle.name, key) ∉ d.reloading) (ttl : Option Duration) (loader : Loader) :
    d.startReload handle key ttl loader =
      ({ d with reloading := (handle.name, key) :: d.reloading }.spawn
        (.reloadReady handle key ttl loader)).2 :=
  if_neg (mt List.contains_iff_mem.mp unclaimed)

/-- A hit that needs a reload reads the entry and comes to the claim. -/
theorem act_refreshAhead (needs : d.needsReload now store key threshold = true)
    (ttl : Option Duration) (loader : Loader) :
    ∃ (value : Json) (read : Depot), read.reloading = d.reloading ∧ read.journal = d.journal ∧
      read.tasks = d.tasks ∧ read.nextTask = d.nextTask + 1 ∧
      d.act now (.start (.refreshAhead store key ttl threshold loader)) =
        settleTask d.nextTask (.answered (.found (some value)),
          read.startReload (d.getCache store) key ttl loader) := by
  obtain ⟨value, eq⟩ :=
    refreshAhead_eq (d := { d with nextTask := d.nextTask + 1 }) needs ttl loader
  refine ⟨value, (getEntry { d with nextTask := d.nextTask + 1 } now (d.getCache store) key).2,
    rfl, rfl, rfl, rfl, ?_⟩
  exact congrArg (settleTask d.nextTask) eq

/-- A hit for which a reload is under way starts nothing. -/
theorem act_refreshAhead_of_claimed (h : d.SingleFlight)
    (needs : d.needsReload now store key threshold = true)
    (claimed : d.claimOf store key ∈ d.reloading) (ttl : Option Duration) (loader : Loader) :
    (d.act now (.start (.refreshAhead store key ttl threshold loader))).reloading = d.reloading ∧
    (d.act now (.start (.refreshAhead store key ttl threshold loader))).journal = d.journal ∧
    ∀ id, (d.act now (.start (.refreshAhead store key ttl threshold loader))).reloadId? id =
      d.reloadId? id := by
  obtain ⟨value, read, claims, calls, tasks, -, asked⟩ := act_refreshAhead needs ttl loader
  rw [asked, startReload_of_claimed (claims ▸ claimed)]
  refine ⟨claims, calls, ?_⟩
  intro id
  by_cases same : id = d.nextTask
  · rw [same, h.reloadId?_nextTask]
    exact (reloadId?_insert rfl _).trans (if_pos rfl)
  · exact reloadId?_congr ((get?_settleTask_of_ne same _).trans (by rw [tasks]))

/-- A hit for which no reload is under way claims one and starts it. -/
theorem act_refreshAhead_of_unclaimed (needs : d.needsReload now store key threshold = true)
    (unclaimed : d.claimOf store key ∉ d.reloading) (ttl : Option Duration) (loader : Loader) :
    (d.act now (.start (.refreshAhead store key ttl threshold loader))).reloading =
      d.claimOf store key :: d.reloading ∧
    (d.act now (.start (.refreshAhead store key ttl threshold loader))).nextTask =
      d.nextTask + 2 ∧
    (d.act now (.start (.refreshAhead store key ttl threshold loader))).tasks.get?
      (d.nextTask + 1) = some (.reloadReady (d.getCache store) key ttl loader) := by
  obtain ⟨value, read, claims, -, -, numbers, asked⟩ := act_refreshAhead needs ttl loader
  rw [asked, startReload_of_unclaimed (claims ▸ unclaimed), get?_settleTask_of_ne (by simp),
    ← numbers]
  refine ⟨congrArg _ claims, ?_, Assoc.get?_insert_self ..⟩
  exact congrArg (· + 1) numbers

theorem journal_finishLoad (d : Depot) (now : Nat) (h : Handle) (key : CacheKey)
    (ttl : Option Duration) (outcome : LoadOutcome) :
    (d.finishLoad now h key ttl outcome).2.journal = d.journal := by
  rw [Changes.finishLoad_eq]
  cases outcome.cached? <;> rfl

/-- The first thing a reload does is to call its loader. -/
theorem journal_resume {handle : Handle} {ttl : Option Duration} {loader : Loader}
    (ready : d.tasks.get? id = some (.reloadReady handle key ttl loader)) (now : Nat) :
    (d.resume now id).journal = .loaderCalled loader.label :: d.journal := by
  rw [resume, ready]
  dsimp only
  rw [isReady, if_pos rfl, resumeTask]
  split
  · exact journal_finishLoad ..
  · rfl

/-- What holds of the background reloads of a depot, and goes on to hold whatever happens. -/
structure ReloadsSingly (d : Depot) : Prop where
  /-- A name and a key are claimed exactly if one reload for them is under way. -/
  claimed : ∀ claim, claim ∈ d.reloading ↔ ∃! id, d.reloadId? id = some claim
  distinct : d.reloading.Nodup
  alone : ∀ claim id id', d.reloadId? id = some claim → d.reloadId? id' = some claim → id = id'
  /-- A hit that needs a reload claims one if there is no claim, and the reload that it starts
  calls the loader as soon as it has a turn, whenever that is. -/
  begins : ∀ now store key ttl threshold loader, d.needsReload now store key threshold = true →
    d.claimOf store key ∉ d.reloading →
      (d.act now (.start (.refreshAhead store key ttl threshold loader))).reloading =
        d.claimOf store key :: d.reloading ∧
      (d.act now (.start (.refreshAhead store key ttl threshold loader))).reloadId?
        (d.nextTask + 1) = some (d.claimOf store key) ∧
      ∀ later, (∀ a ∈ later, a.2.target? ≠ some (d.nextTask + 1)) → ∀ now',
        (((d.act now (.start (.refreshAhead store key ttl threshold loader))).run later).act now'
            (.resume (d.nextTask + 1))).journal =
          .loaderCalled loader.label ::
            ((d.act now (.start (.refreshAhead store key ttl threshold loader))).run later).journal
  /-- A hit that needs a reload starts none if there is a claim, and calls no loader. -/
  spares : ∀ now store key ttl threshold loader, d.needsReload now store key threshold = true →
    d.claimOf store key ∈ d.reloading →
      (d.act now (.start (.refreshAhead store key ttl threshold loader))).reloading =
        d.reloading ∧
      (d.act now (.start (.refreshAhead store key ttl threshold loader))).journal = d.journal ∧
      ∀ id, (d.act now (.start (.refreshAhead store key ttl threshold loader))).reloadId? id =
        d.reloadId? id
  /-- Whatever happens, a reload stays under way or ends, and with its end the claim goes. -/
  releases : ∀ now a claim id, d.reloadId? id = some claim →
    (d.act now a).reloadId? id = some claim ∨
      (d.act now a).tasks.get? id = none ∧ claim ∉ (d.act now a).reloading
  /-- A reload that is given up is over. -/
  aborts : ∀ now claim id, d.reloadId? id = some claim →
    (d.act now (.abort id)).tasks.get? id = none
  /-- A reload is over after two turns, the second when its loader has ended, whatever happens
  in between. -/
  ends : ∀ now claim id, d.reloadId? id = some claim → ∃ due, ∀ between now', due ≤ now' →
    (((d.act now (.resume id)).run between).act now' (.resume id)).tasks.get? id = none

theorem SingleFlight.ends (h : d.SingleFlight) {claim : ReloadId}
    (flies : d.reloadId? id = some claim) (now : Nat) :
    ∃ due, ∀ between now', due ≤ now' →
      (((d.act now (.resume id)).run between).act now' (.resume id)).tasks.get? id = none := by
  have known : id < (d.resume now id).nextTask :=
    Nat.lt_of_lt_of_le (h.lt_nextTask flies) (d.turn_act now (.resume id)).nextTask_le
  have stays : ∀ between now', ((d.resume now id).run between).tasks.get? id = none →
      (((d.resume now id).run between).act now' (.resume id)).tasks.get? id = none := by
    intro between now' gone
    have known' := Nat.lt_of_lt_of_le known (nextTask_le_run (d.resume now id) between)
    exact (turn_act _ now' (.resume id)).get?_eq_none known' gone
  rcases resume_reload flies now with gone | ⟨handle, key, ttl, loader, due, waits⟩
  · exact ⟨0, fun between now' _ => stays between now' (get?_run_eq_none known gone between)⟩
  · refine ⟨due, ?_⟩
    intro between now' ended
    rcases get?_run_of_reloading known waits between with waits' | gone
    · exact resume_reloading ended waits'
    · exact stays between now' gone

theorem SingleFlight.reloadsSingly (h : d.SingleFlight) : d.ReloadsSingly where
  claimed := by
    intro claim
    rw [h.claims]
    constructor
    · rintro ⟨id, flies⟩
      exact ⟨id, flies, fun id' flies' => h.alone claim id' id flies' flies⟩
    · rintro ⟨id, flies, -⟩
      exact ⟨id, flies⟩
  distinct := h.distinct
  alone := h.alone
  begins := by
    intro now store key ttl threshold loader needs unclaimed
    obtain ⟨claims, numbers, started⟩ := act_refreshAhead_of_unclaimed needs unclaimed ttl loader
    refine ⟨claims, reloadId?_of_get? started, ?_⟩
    intro later spared now'
    have known : d.nextTask + 1 < (d.act now (.start
        (.refreshAhead store key ttl threshold loader))).nextTask :=
      numbers ▸ Nat.lt_succ_self _
    exact journal_resume ((get?_run_of_ne known spared).trans started) now'
  spares := by
    intro now store key ttl threshold loader needs claimed
    exact act_refreshAhead_of_claimed h needs claimed ttl loader
  releases := by
    intro now a claim id flies
    rcases (d.turn_act now a).reload_cases (h.lt_nextTask flies) flies with
      same | ⟨_, _, _, _, _, ready, waits⟩ | ⟨gone, released⟩
    · exact .inl ((reloadId?_congr same).trans flies)
    · rw [reloadId?_of_get? ready] at flies
      exact .inl ((reloadId?_of_get? waits).trans flies)
    · right
      refine ⟨gone, ?_⟩
      rw [released]
      exact h.distinct.not_mem_erase
  aborts := by
    intro now claim id flies
    exact abort_reload flies
  ends := by
    intro now claim id flies
    exact h.ends flies now

/-- Whatever is asked for, with whatever loaders, and in whatever order tasks go on or are given
up: there is one reload at a time for each name and key, and nothing stays claimed without one. -/
theorem run_new_reloadsSingly {made : Depot} {start : Nat} {store : StoreConfig}
    {writeBehind : WriteBehindConfig} (new : Depot.new start store writeBehind = .ok made)
    (actions : List (Nat × Action)) : (made.run actions).ReloadsSingly :=
  ((singleFlight_new new).run actions).reloadsSingly

/-- A read that starts a reload of an old value, and another read before the loader has ended. -/
def hitsOfOldValue : List (Nat × Action) :=
  let loader : Loader := { label := "l", delay := 50, outcome := .panics }
  [(0, .start (.set (.named "default") ⟨"k"⟩ (.string "v") (some (.ofMillis 1000)))),
    (900, .start (.refreshAhead "default" ⟨"k"⟩ none (.infinite true) loader)),
    (900, .resume 2),
    (905, .start (.refreshAhead "unknown" ⟨"k"⟩ none (.infinite true) loader))]

/-- The second read, under another name of the same store, starts no reload, and when the loader
has broken down the claim is gone. -/
theorem hitsOfOldValue_reloadsSingly :
    ∃ made, Depot.new 0 ⟨9, none, none⟩ ⟨10, 3, none⟩ = .ok made ∧
      (made.run hitsOfOldValue).ReloadsSingly ∧
      (made.run hitsOfOldValue).reloading = [("default", ⟨"k"⟩)] ∧
      (made.run hitsOfOldValue).reloadId? 2 = some ("default", ⟨"k"⟩) ∧
      (made.run hitsOfOldValue).nextTask = 4 ∧
      ((made.run hitsOfOldValue).act 950 (.resume 2)).reloading = [] := by
  have new : Depot.new 0 ⟨9, none, none⟩ ⟨10, 3, none⟩ = .ok _ := rfl
  exact ⟨_, new, run_new_reloadsSingly new hitsOfOldValue, rfl, rfl, rfl, rfl⟩

end CacheDepot.Depot
