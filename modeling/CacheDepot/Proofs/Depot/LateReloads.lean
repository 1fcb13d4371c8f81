import CacheDepot.Proofs.Depot.Reloads

/-!
# Reloads that end late

A background reload knows nothing of what is done to its key while it is under way. When the loader
has answered a value, the value is written at that moment like any other, over what was written or
removed since. In all other cases, and until then, the reload leaves the stores alone.
-/

namespace CacheDepot.Depot

variable {d d' : Depot} {id now : Nat} {h : Handle} {key : CacheKey} {ttl : Option Duration}
  {loader : Loader}

/-- Whether a task is this reload, waiting for a turn or for its loader, or is over. -/
def CarriesReload (d : Depot) (id : Nat) (h : Handle) (key : CacheKey) (ttl : Option Duration)
    (loader : Loader) : Prop :=
  d.tasks.get? id = some (.reloadReady h key ttl loader) ∨
    (∃ due, d.tasks.get? id = some (.reloading h key ttl loader due)) ∨ d.tasks.get? id = none

theorem CarriesReload.turn {W : List Write} {target? : Option Nat}
    (carries : d.CarriesReload id h key ttl loader) (old : id < d.nextTask)
    (turn : d.Turn W target? d') : d'.CarriesReload id h key ttl loader := by
  rcases carries with ready | ⟨due, waits⟩ | gone
  · have flies : d.reloadId? id = some (h.name, key) := reloadId?_of_get? ready
    rcases turn.reload_cases old flies with same | ⟨_, _, _, _, due, ready', waits⟩ | ⟨gone, -⟩
    · exact .inl (same.trans ready)
    · cases ready.symm.trans ready'
      exact .inr (.inl ⟨due, waits⟩)
    · exact .inr (.inr gone)
  · have flies : d.reloadId? id = some (h.name, key) := reloadId?_of_get? waits
    rcases turn.reload_cases old flies with same | ⟨_, _, _, _, _, ready, -⟩ | ⟨gone, -⟩
    · exact .inr (.inl ⟨due, same.trans waits⟩)
    · cases waits.symm.trans ready
    · exact .inr (.inr gone)
  · exact .inr (.inr (turn.get?_eq_none old gone))

theorem CarriesReload.run (carries : d.CarriesReload id h key ttl loader) (old : id < d.nextTask)
    (actions : List (Nat × Action)) : (d.run actions).CarriesReload id h key ttl loader := by
  induction actions generalizing d with
  | nil => exact carries
  | cons first rest ih =>
    have turn := d.turn_act first.1 first.2
    exact ih (carries.turn old turn) (Nat.lt_of_lt_of_le old turn.nextTask_le)

/-! ## What the end of a reload does to the stores -/

/-- Whether all stores are the same in two depots. -/
def SameStores (d d' : Depot) : Prop := ∀ cell, d'.store cell = d.store cell

/-- Reads answer the same when the stores are the same. -/
theorem SameStores.getKey (same : d.SameStores d') (now : Nat) (h : Handle) (key : CacheKey) :
    (d'.getKey now h key).1 = (d.getKey now h key).1 := by
  rw [Depot.getKey, Depot.getKey, onStore, onStore, same h.cell]

/-- Whether the reload in a task comes to its end with an action and its loader has answered this
value, which is not null. -/
structure BringsValue (d : Depot) (now : Nat) (a : Action) (id : Nat) (loader : Loader)
    (value : Json) : Prop where
  answered : loader.outcome = .returns (some value)
  notNull : value.isNull = false
  turn : a = .resume id
  underWay : d.tasks.get? id ≠ none
  gone : (d.act now a).tasks.get? id = none

/-- The end of a load writes the value that is cached, if any is. -/
theorem store_finishReload (d : Depot) (now : Nat) (h : Handle) (key : CacheKey)
    (ttl : Option Duration) (outcome : LoadOutcome) (cell : Nat) :
    (d.finishReload now h key ttl outcome).store cell =
      match outcome.cached? with
      | some value => (d.setKey now h key value ttl).2.store cell
      | none => d.store cell := by
  show (d.finishLoad now h key ttl outcome).2.store cell = _
  rw [Changes.finishLoad_eq]
  cases outcome.cached? <;> rfl

/-- A turn of a reload that is not its end leaves the stores alone. -/
theorem CarriesReload.resume_cases (carries : d.CarriesReload id h key ttl loader) (now : Nat) :
    (d.SameStores (d.resume now id) ∧
      (d.tasks.get? id = none ∨ (d.resume now id).tasks.get? id ≠ none)) ∨
    (d.tasks.get? id ≠ none ∧ (d.resume now id).tasks.get? id = none ∧
      (d.finishReload now h key ttl loader.outcome).SameStores (d.resume now id)) := by
  rcases carries with ready | ⟨due, waits⟩ | gone
  · rw [Depot.resume, ready]
    dsimp only
    rw [isReady, if_pos rfl, resumeTask]
    split
    · refine .inr ⟨Option.some_ne_none _, get?_dropTask _ id, ?_⟩
      intro cell
      have called := store_finishReload (d.record (.loaderCalled loader.label)) now h key ttl
        loader.outcome cell
      refine called.trans (.trans ?_ (store_finishReload d now h key ttl loader.outcome cell).symm)
      cases loader.outcome.cached? <;> rfl
    · left
      refine ⟨fun cell => rfl, .inr ?_⟩
      rw [Assoc.get?_insert_self]
      exact Option.some_ne_none _
  · rw [Depot.resume, waits]
    dsimp only
    split
    · exact .inr ⟨Option.some_ne_none _, get?_dropTask _ id, fun cell => rfl⟩
    · exact .inl ⟨fun cell => rfl, .inr (by rw [waits]; exact Option.some_ne_none _)⟩
  · rw [Depot.resume, gone]
    exact .inl ⟨fun cell => rfl, .inl rfl⟩

theorem CarriesReload.abort (carries : d.CarriesReload id h key ttl loader) :
    d.SameStores (d.abort id) := by
  rcases carries with ready | ⟨due, waits⟩ | gone
  · rw [Depot.abort, ready]
    exact fun cell => rfl
  · rw [Depot.abort, waits]
    exact fun cell => rfl
  · rw [Depot.abort, gone]
    exact fun cell => rfl

/-- A reload is not a teardown. -/
theorem CarriesReload.emptyOne (carries : d.CarriesReload id h key ttl loader) (other : Handle) :
    d.emptyOne id other = d := by
  rcases carries with ready | ⟨due, waits⟩ | gone
  · rw [Depot.emptyOne, ready]
  · rw [Depot.emptyOne, waits]
  · rw [Depot.emptyOne, gone]

/-- What happens to a reload leaves the stores alone unless it brings a value. -/
theorem CarriesReload.sameStores {a : Action} (carries : d.CarriesReload id h key ttl loader)
    (own : a.target? = some id) (nothing : ∀ value, ¬ d.BringsValue now a id loader value) :
    d.SameStores (d.act now a) := by
  rcases Action.cases_of_target? own with rfl | ⟨other, rfl⟩ | rfl
  · rcases carries.resume_cases now with ⟨same, -⟩ | ⟨underWay, gone, same⟩
    · exact same
    · intro cell
      refine (same cell).trans ((store_finishReload ..).trans ?_)
      cases cached : loader.outcome.cached? with
      | none => rfl
      | some value =>
        obtain ⟨answered, notNull⟩ := LoadOutcome.cached?_eq_some_iff.mp cached
        exact absurd ⟨answered, notNull, rfl, underWay, gone⟩ (nothing value)
  · rw [Depot.act, carries.emptyOne other]
    exact fun cell => rfl
  · exact carries.abort

/-- A reload that brings a value writes it. -/
theorem CarriesReload.setKey {a : Action} {value : Json}
    (carries : d.CarriesReload id h key ttl loader)
    (brings : d.BringsValue now a id loader value) :
    (d.setKey now h key value ttl).2.SameStores (d.act now a) := by
  obtain ⟨answered, notNull, rfl, underWay, gone⟩ := brings
  rcases carries.resume_cases now with ⟨-, early | waits⟩ | ⟨-, -, same⟩
  · exact absurd early underWay
  · exact absurd gone waits
  · intro cell
    refine (same cell).trans ((store_finishReload ..).trans ?_)
    rw [LoadOutcome.cached?_eq_some_iff.mpr ⟨answered, notNull⟩]

/-- A reload that a hit has started, whatever is done after the hit was answered, by the same
caller or by others. What happens to the reload leaves all stores and so the answers of all reads
as they are, unless the reload brings a value. Then it does what a write of the value does at that
moment, and a read that finds the key finds this value. -/
theorem act_of_late_reload {asked : Nat} {store : String} {threshold : Threshold}
    (needs : d.needsReload asked store key threshold = true)
    (unclaimed : d.claimOf store key ∉ d.reloading) (ttl : Option Duration) (loader : Loader)
    (later : List (Nat × Action)) (now : Nat) {a : Action}
    (own : a.target? = some (d.nextTask + 1)) :
    let late := (d.act asked (.start (.refreshAhead store key ttl threshold loader))).run later
    ((∀ value, ¬ late.BringsValue now a (d.nextTask + 1) loader value) →
      late.SameStores (late.act now a) ∧
      ∀ t h key', ((late.act now a).getKey t h key').1 = (late.getKey t h key').1) ∧
    ∀ value, late.BringsValue now a (d.nextTask + 1) loader value →
      (late.act now (.start (.set (.held (d.getCache store)) key value ttl))).SameStores
        (late.act now a) ∧
      ∀ t found, ((late.act now a).getKey t (d.getCache store) key).1 = some found →
        found = value := by
  intro late
  obtain ⟨-, numbers, started⟩ := act_refreshAhead_of_unclaimed needs unclaimed ttl loader
  have carries : late.CarriesReload (d.nextTask + 1) (d.getCache store) key ttl loader :=
    CarriesReload.run (.inl started) (numbers ▸ Nat.lt_succ_self _) later
  constructor
  · intro nothing
    have same := carries.sameStores own nothing
    exact ⟨same, same.getKey⟩
  · intro value brings
    have same := carries.setKey brings
    refine ⟨same, ?_⟩
    intro t found read
    rw [same.getKey] at read
    exact late.resident?_setKey now _ key value ttl (Store.resident?_of_get read)

/-- A loader that answers a value after a while. -/
def slowLoader : Loader :=
  { label := "r", delay := 50, outcome := .returns (some (.string "reloaded")) }

/-- A value is read after nine tenths of its time, which starts a reload, and while the loader is
busy the reader does something else, which is soon done. -/
def overtaken (d : Depot) (operation : Operation) : Depot :=
  ((d.run [(0, .start (.set (.named "default") ⟨"k"⟩ (.string "old") (some (.ofMillis 1000))))]).act
    900 (.start (.refreshAhead "default" ⟨"k"⟩ (some (.ofMillis 1000)) .default slowLoader))).run
    [(900, .resume 2), (900, .start operation), (900, .resume 3)]

/-- A reload that ends after its key was removed does what a write does then. -/
theorem removal_act_of_late_reload :
    ∃ made, Depot.new 0 ⟨9, none, none⟩ ⟨10, 3, none⟩ = .ok made ∧
      let late := made.overtaken (.delete (.named "default") ⟨"k"⟩)
      late.BringsValue 950 (.resume 2) 2 slowLoader (.string "reloaded") ∧
      (late.act 950 (.start (.set (.held ⟨"default", 0⟩) ⟨"k"⟩ (.string "reloaded")
        (some (.ofMillis 1000))))).SameStores (late.act 950 (.resume 2)) := by
  have new : Depot.new 0 ⟨9, none, none⟩ ⟨10, 3, none⟩ = .ok _ := rfl
  refine ⟨_, new, ⟨rfl, rfl, rfl, nofun, rfl⟩, ?_⟩
  refine ((act_of_late_reload (by rfl) (by decide) _ slowLoader _ 950 rfl).2
    (.string "reloaded") ?_).1
  exact ⟨rfl, rfl, rfl, nofun, rfl⟩

/-- Whatever a caller does with a key while a reload of its own is under way, a write in any of
three ways or a removal in either way: a read finds it done until the reload ends, and finds the
value that was reloaded after that. -/
theorem reload_overtakes_later_operation :
    ∃ made, Depot.new 0 ⟨9, none, none⟩ ⟨10, 3, none⟩ = .ok made ∧
      (∀ operation ∈ [.set (.named "default") ⟨"k"⟩ (.string "new") none,
          .writeThrough "default" ⟨"k"⟩ (.string "new") none ⟨"p", []⟩,
          .writeBehind "default" ⟨"k"⟩ (.string "new") none 10 ⟨"p", []⟩],
        (made.overtaken operation).reloadId? 2 = some ("default", ⟨"k"⟩) ∧
        ((made.overtaken operation).getKey 950 ⟨"default", 0⟩ ⟨"k"⟩).1 = some (.string "new") ∧
        (((made.overtaken operation).act 950 (.resume 2)).getKey 950 ⟨"default", 0⟩ ⟨"k"⟩).1 =
          some (.string "reloaded")) ∧
      ∀ operation ∈ [.delete (.named "default") ⟨"k"⟩, .invalidate "default" ⟨"k"⟩],
        (made.overtaken operation).reloadId? 2 = some ("default", ⟨"k"⟩) ∧
        ((made.overtaken operation).getKey 950 ⟨"default", 0⟩ ⟨"k"⟩).1 = none ∧
        (((made.overtaken operation).act 950 (.resume 2)).getKey 950 ⟨"default", 0⟩ ⟨"k"⟩).1 =
          some (.string "reloaded") := by
  have new : Depot.new 0 ⟨9, none, none⟩ ⟨10, 3, none⟩ = .ok _ := rfl
  refine ⟨_, new, ?_, ?_⟩
  · simp only [List.forall_mem_cons]
    exact ⟨⟨rfl, rfl, rfl⟩, ⟨rfl, rfl, rfl⟩, ⟨rfl, rfl, rfl⟩, nofun⟩
  · simp only [List.forall_mem_cons]
    exact ⟨⟨rfl, rfl, rfl⟩, ⟨rfl, rfl, rfl⟩, nofun⟩

end CacheDepot.Depot
