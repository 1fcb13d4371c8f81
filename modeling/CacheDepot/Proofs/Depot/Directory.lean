import CacheDepot.Proofs.Depot.Registering
import CacheDepot.Proofs.Depot.Registry
import Mathlib.Data.List.Basic

/-!
# What names lead to

All that the registry holds can be told from what has happened to it: a name leads to the store that
was created under it last, an unknown one to the default store, the names are listed in order, and
the stores that were created since the last teardown are swept as often as their set-ups ask.
-/

namespace CacheDepot

/-! ## What has happened -/

/-- A store that was created under a name. -/
structure Registration where
  config : StoreConfig
  handle : Handle

namespace RegistryEvent

/-- The store that this brought under a name. -/
def registration? (name : String) : RegistryEvent → Option Registration
  | .created own config handle => if own = name then some ⟨config, handle⟩ else none
  | .tornDown => none

def isTearDown : RegistryEvent → Bool
  | .created _ _ _ => false
  | .tornDown => true

end RegistryEvent

/-- What has happened to a registry, the latest first. -/
abbrev Chronicle := List RegistryEvent

namespace Chronicle

/-- The last store that was created under a name. -/
def last? (log : Chronicle) (name : String) : Option Registration :=
  log.findSome? (·.registration? name)

/-- What came after the last teardown. -/
def recent (log : Chronicle) : Chronicle := log.takeWhile (!·.isTearDown)

/-- How often the store under a name is to be swept, if it was created after the last teardown. -/
def interval? (log : Chronicle) (name : String) : Option Duration :=
  (log.recent.last? name).bind (·.config.cleanupInterval)

variable {log : Chronicle} {own name : String} {config : StoreConfig} {handle : Handle}

theorem last?_created :
    last? (.created own config handle :: log) name =
      if own = name then some ⟨config, handle⟩ else log.last? name := by
  rw [last?, List.findSome?_cons, RegistryEvent.registration?]
  by_cases same : own = name
  · rw [if_pos same, if_pos same]
  · rw [if_neg same, if_neg same]
    rfl

theorem interval?_created :
    interval? (.created own config handle :: log) name =
      if own = name then config.cleanupInterval else log.interval? name := by
  have recent : recent (.created own config handle :: log) =
      .created own config handle :: log.recent := rfl
  rw [interval?, recent, last?_created]
  split <;> rfl

theorem isSome_last?_iff :
    (log.last? name).isSome = true ↔ ∃ config handle, .created name config handle ∈ log := by
  rw [last?, List.findSome?_isSome_iff]
  constructor
  · rintro ⟨e, member, names⟩
    cases e with
    | created own config handle =>
      rw [RegistryEvent.registration?] at names
      split at names
      · rename_i same
        exact ⟨config, handle, same ▸ member⟩
      · cases names
    | tornDown => cases names
  · rintro ⟨config, handle, member⟩
    refine ⟨_, member, ?_⟩
    rw [RegistryEvent.registration?, if_pos rfl]
    rfl

end Chronicle

namespace Depot

/-! ## What the registry holds -/

variable {d d' : Depot} {log : Chronicle} {now : Nat}

/-- Whether the registry holds what has happened to it, and each store in a cell of its own. -/
structure Follows (log : Chronicle) (d : Depot) : Prop where
  inOrder : d.registry.InOrder
  entries : ∀ name, (d.registry.get? name).map (fun r => (r.handle, r.interval?)) =
    (log.last? name).map fun r => (r.handle, log.interval? name)
  handles : ∀ {name r}, d.registry.get? name = some r →
    r.handle.name = name ∧ r.handle.cell < d.stores.length
  apart : ∀ {name name' r r'}, d.registry.get? name = some r →
    d.registry.get? name' = some r' → r.handle.cell = r'.handle.cell → name = name'
  unasked : d.registry.Every Registered.Unasked

namespace Follows

/-- Where names lead to the stores that they led to, these stay in cells of their own. -/
theorem handles_of_was (h : d.Follows log)
    (was : ∀ {name r}, d'.registry.get? name = some r →
      ∃ old, d.registry.get? name = some old ∧ old.handle = r.handle)
    (grows : d.stores.length ≤ d'.stores.length) :
    (∀ {name r}, d'.registry.get? name = some r →
      r.handle.name = name ∧ r.handle.cell < d'.stores.length) ∧
    ∀ {name name' r r'}, d'.registry.get? name = some r → d'.registry.get? name' = some r' →
      r.handle.cell = r'.handle.cell → name = name' := by
  constructor
  · intro name r there
    obtain ⟨old, found, same⟩ := was there
    obtain ⟨named, inside⟩ := h.handles found
    rw [← same]
    exact ⟨named, Nat.lt_of_lt_of_le inside grows⟩
  · intro name name' r r' there there' cells
    obtain ⟨s, old, same⟩ := was there
    obtain ⟨s', old', same'⟩ := was there'
    rw [← same, ← same'] at cells
    exact h.apart old old' cells

theorem of_kept (h : d.Follows log) (same : d'.registry = d.registry)
    (grows : d.stores.length ≤ d'.stores.length) : d'.Follows log := by
  have was : ∀ {name r}, d'.registry.get? name = some r →
      ∃ old, d.registry.get? name = some old ∧ old.handle = r.handle :=
    fun there => ⟨_, same ▸ there, rfl⟩
  obtain ⟨handles, apart⟩ := h.handles_of_was was grows
  exact ⟨same ▸ h.inOrder, same ▸ h.entries, handles, apart, same ▸ h.unasked⟩

/-- A store that is entered anew with its handle and its sweep changes nothing. -/
theorem of_ticked (h : d.Follows log) {own : String} {old new : Registered}
    (found : d.registry.get? own = some old) (handle : new.handle = old.handle)
    (sweeps : new.interval? = old.interval?) (unasked : new.Unasked)
    (entered : d'.registry = d.registry.insert own new)
    (grows : d.stores.length ≤ d'.stores.length) : d'.Follows log := by
  have was : ∀ {name r}, d'.registry.get? name = some r →
      ∃ r', d.registry.get? name = some r' ∧ r'.handle = r.handle := by
    intro name r there
    rw [entered, Registry.get?_insert] at there
    split at there
    · rename_i same
      cases there
      exact ⟨old, same ▸ found, handle.symm⟩
    · exact ⟨r, there, rfl⟩
  obtain ⟨handles, apart⟩ := h.handles_of_was was grows
  refine ⟨entered ▸ h.inOrder.insert own new, ?_, handles, apart,
    entered ▸ h.unasked.insert own unasked⟩
  intro name
  rw [← h.entries name, entered, Registry.get?_insert]
  split
  · rename_i same
    rw [same, found, Option.map_some, Option.map_some, handle, sweeps]
  · rfl

theorem of_created (h : d.Follows log) {own : String} {config : StoreConfig}
    (accepted : config.fault? = none)
    (entered : d'.registry =
      d.registry.insert own ⟨⟨own, d.stores.length⟩, sweeperFor now own config⟩)
    (grown : d.stores.length < d'.stores.length) :
    d'.Follows (.created own config ⟨own, d.stores.length⟩ :: log) := by
  have newOrOld : ∀ {name r}, d'.registry.get? name = some r →
      (name = own ∧ r.handle = ⟨own, d.stores.length⟩) ∨ d.registry.get? name = some r := by
    intro name r there
    rw [entered, Registry.get?_insert] at there
    split at there
    · rename_i same
      cases there
      exact .inl ⟨same, rfl⟩
    · exact .inr there
  have elsewhere : ∀ {name r}, d.registry.get? name = some r → r.handle.cell ≠ d.stores.length :=
    fun there => Nat.ne_of_lt (h.handles there).2
  refine ⟨entered ▸ h.inOrder.insert own _, ?_, ?_, ?_, ?_⟩
  · intro name
    rw [entered, Registry.get?_insert, Chronicle.last?_created, Chronicle.interval?_created]
    by_cases same : own = name
    · rw [if_pos same, if_pos same, if_pos same.symm, Option.map_some, Option.map_some,
        Registered.interval?_sweeperFor accepted]
    · rw [if_neg same, if_neg same, if_neg (Ne.symm same)]
      exact h.entries name
  · intro name r there
    rcases newOrOld there with ⟨rfl, handle⟩ | old
    · rw [handle]
      exact ⟨rfl, grown⟩
    · obtain ⟨named, inside⟩ := h.handles old
      exact ⟨named, Nat.lt_trans inside grown⟩
  · intro name name' r r' there there' cells
    rcases newOrOld there with ⟨rfl, handle⟩ | old <;>
      rcases newOrOld there' with ⟨rfl, handle'⟩ | old'
    · rfl
    · rw [handle] at cells
      exact absurd cells.symm (elsewhere old')
    · rw [handle'] at cells
      exact absurd cells (elsewhere old)
    · exact h.apart old old' cells
  · rw [entered]
    apply h.unasked.insert own
    intro sweeper same
    obtain ⟨interval, -, rfl⟩ := Option.map_eq_some_iff.mp same
    rfl

theorem of_tornDown (h : d.Follows log) (stopped : d'.registry = d.stopSweepers.registry)
    (grows : d.stores.length ≤ d'.stores.length) : d'.Follows (.tornDown :: log) := by
  let halt : Registered → Registered := fun r => { r with sweeper := r.sweeper.map Ticker.stop }
  have halted : d'.registry = d.registry.map halt := stopped
  have was : ∀ {name r}, d'.registry.get? name = some r →
      ∃ old, d.registry.get? name = some old ∧ old.handle = r.handle := by
    intro name r there
    rw [halted, Registry.get?_map] at there
    obtain ⟨old, found, rfl⟩ := Option.map_eq_some_iff.mp there
    exact ⟨old, found, rfl⟩
  obtain ⟨handles, apart⟩ := h.handles_of_was was grows
  refine ⟨halted ▸ h.inOrder.map halt, ?_, handles, apart, ?_⟩
  · intro name
    have view : (fun r : Registered => (r.handle, r.interval?)) ∘ halt =
        (fun e : Handle × Option Duration => (e.1, none)) ∘ fun r => (r.handle, r.interval?) := by
      funext r
      exact congrArg (Prod.mk r.handle) r.interval?_stop
    rw [halted, Registry.get?_map, Option.map_map, view, ← Option.map_map, h.entries,
      Option.map_map]
    rfl
  · rw [halted]
    apply h.unasked.map
    intro r unasked sweeper same
    obtain ⟨old, found, rfl⟩ := Option.map_eq_some_iff.mp same
    exact old.stopping_stop.trans (unasked old found)

/-- Every action leaves the registry what has happened to it. -/
theorem act (h : d.Follows log) (now : Nat) (a : Action) :
    (d.act now a).Follows ((d.event? now a).toList ++ log) := by
  have grows := (d.turn_act now a).stores_le
  generalize seen : d.event? now a = e
  have registers := d.registers_act now a
  rw [seen] at registers
  cases registers with
  | kept same => exact h.of_kept same grows
  | @ticked own registered sweeper ticker found sweeps begun entered =>
    obtain ⟨running, interval, unasked⟩ :=
      Ticker.endTick_of_beginTick? begun (h.unasked.get? found _ sweeps)
    refine h.of_ticked found ?_ ?_ ?_ entered grows
    · rfl
    · exact Registered.interval?_congr sweeps running interval
    · intro t same
      exact Option.some.inj same ▸ unasked
  | created accepted entered grown => exact h.of_created accepted entered grown
  | tornDown stopped => exact h.of_tornDown stopped grows

theorem follows_new {start : Nat} {store : StoreConfig} {writeBehind : WriteBehindConfig}
    (made : Depot.new start store writeBehind = .ok d) :
    d.Follows [.created defaultName store ⟨defaultName, 0⟩] := by
  rw [Depot.new] at made
  split at made
  · cases made
  · rename_i accepted
    cases made
    let registry : Registry := ⟨⟨⟨defaultName, 0⟩, sweeperFor start defaultName store⟩, []⟩
    have only : ∀ {name r}, registry.get? name = some r →
        name = defaultName ∧ r.handle = ⟨defaultName, 0⟩ := by
      intro name r found
      rw [Registry.get?] at found
      split at found
      · rename_i default
        cases found
        exact ⟨default, rfl⟩
      · cases found
    refine ⟨⟨.nil, List.not_mem_nil⟩, ?_, ?_, ?_, ?_, ?_⟩
    · intro name
      rw [Chronicle.last?_created, Chronicle.interval?_created, Registry.get?]
      by_cases default : name = defaultName
      · rw [if_pos default, if_pos default.symm, if_pos default.symm, Option.map_some,
          Option.map_some, Registered.interval?_sweeperFor (Option.or_eq_none_iff.mp accepted).2]
      · rw [if_neg default, if_neg (Ne.symm default), if_neg (Ne.symm default)]
        rfl
    · intro name r found
      obtain ⟨rfl, handle⟩ := only found
      rw [handle]
      exact ⟨rfl, Nat.zero_lt_one⟩
    · intro name name' r r' found found' _
      exact (only found).1.trans (only found').1.symm
    · intro sweeper same
      obtain ⟨interval, -, rfl⟩ := Option.map_eq_some_iff.mp same
      rfl
    · intro b member
      cases member

end Follows

/-! ## Runs -/

/-- What has happened to the registry after a run, if this had happened before. -/
def chronicle (d : Depot) (log : Chronicle) : List (Nat × Action) → Chronicle
  | [] => log
  | (now, a) :: rest => (d.act now a).chronicle ((d.event? now a).toList ++ log) rest

/-- The handles of the stores that are being swept, and how often each is. -/
def sweeping (d : Depot) : List (Handle × Duration) :=
  d.registry.toList.filterMap fun b => b.2.interval?.map fun interval => (b.2.handle, interval)

theorem Follows.run (h : d.Follows log) (actions : List (Nat × Action)) :
    (d.run actions).Follows (d.chronicle log actions) := by
  induction actions generalizing d log with
  | nil => exact h
  | cons first rest ih => exact ih (h.act first.1 first.2)

/-- Whether a depot is what can be told from what has happened to its registry. -/
structure Directory (log : Chronicle) (d : Depot) : Prop where
  /-- A name leads to the last store created under it, or else to the default store. -/
  resolves : ∀ name, some (d.getCache name) =
    ((log.last? name).or (log.last? defaultName)).map (·.handle)
  sorted : d.storeNames.Pairwise (· < ·)
  names : ∀ name, name ∈ d.storeNames ↔
    name = defaultName ∨ ∃ config handle, .created name config handle ∈ log
  has : ∀ name, d.hasCache name = true ↔ name ∈ d.storeNames
  /-- Each name is reported with the counters of its own store. -/
  stats : d.allStats = d.storeNames.map fun name => (name, (d.store (d.getCache name).cell).stats)
  apart : ∀ name ∈ d.storeNames, ∀ name' ∈ d.storeNames,
    (d.getCache name).cell = (d.getCache name').cell → name = name'
  inside : ∀ name, (d.getCache name).cell < d.stores.length
  /-- The sweeps going on are one for each store that asks for one and was created after the last
  teardown. -/
  sweeps : d.sweeping = d.storeNames.filterMap fun name =>
    (log.interval? name).map fun interval => (d.getCache name, interval)
  /-- No tick of a sweep touches any other store. -/
  unswept : ∀ now name cell, (∀ s ∈ d.sweeping, s.1.cell ≠ cell) →
    (d.act now (.sweep name)).store cell = d.store cell
  /-- A creation that registers nothing answers an error and does nothing else. -/
  rejected : ∀ now name config, d.event? now (.start (.create name config)) = none →
    ∃ e, d.act now (.start (.create name config)) = { d with
      tasks := d.tasks.insert d.nextTask (.ended (.failed e))
      nextTask := d.nextTask + 1 }

theorem mem_storeNames {name : String} :
    name ∈ d.storeNames ↔ ∃ r, d.registry.get? name = some r := by
  rw [storeNames, ← Ordered.isSome_get?_iff, Registry.get?_toList, Option.isSome_iff_exists]

theorem hasCache_iff {name : String} :
    d.hasCache name = true ↔ ∃ r, d.registry.get? name = some r := by
  rw [hasCache, Registry.contains, Registry.get?, ← Option.isSome_iff_exists]
  split
  · rename_i default
    simp [default]
  · rename_i named
    simp [named]

namespace Follows

theorem map_handle (h : d.Follows log) (name : String) :
    (d.registry.get? name).map (·.handle) = (log.last? name).map (·.handle) := by
  have handles := congrArg (Option.map Prod.fst) (h.entries name)
  rw [Option.map_map, Option.map_map] at handles
  exact handles

theorem getCache_of_get? (h : d.Follows log) {name : String} {r : Registered}
    (found : d.registry.get? name = some r) : d.getCache name = r.handle := by
  rw [getCache, h.inOrder.resolve_eq, found]
  rfl

theorem interval?_of_get? (h : d.Follows log) {name : String} {r : Registered}
    (found : d.registry.get? name = some r) : log.interval? name = r.interval? := by
  have entry := h.entries name
  rw [found, Option.map_some] at entry
  obtain ⟨registration, -, same⟩ := Option.map_eq_some_iff.mp entry.symm
  exact congrArg Prod.snd same

theorem some_getCache (h : d.Follows log) (name : String) :
    some (d.getCache name) = ((log.last? name).or (log.last? defaultName)).map (·.handle) := by
  have default : d.registry.get? defaultName = some d.registry.fallback := if_pos rfl
  rw [Option.map_or, ← h.map_handle, ← h.map_handle, default, getCache, h.inOrder.resolve_eq]
  cases d.registry.get? name <;> rfl

theorem mem_storeNames_iff (h : d.Follows log) (name : String) :
    name ∈ d.storeNames ↔
      name = defaultName ∨ ∃ config handle, .created name config handle ∈ log := by
  have known : (d.registry.get? name).isSome = (log.last? name).isSome := by
    rw [← Option.isSome_map (f := Registered.handle), h.map_handle, Option.isSome_map]
  rw [mem_storeNames, ← Option.isSome_iff_exists, ← Chronicle.isSome_last?_iff, ← known]
  constructor
  · exact .inr
  · rintro (rfl | there)
    · rfl
    · exact there

theorem allStats_eq (h : d.Follows log) :
    d.allStats =
      d.storeNames.map fun name => (name, (d.store (d.getCache name).cell).stats) := by
  have reports : (d.handles.map fun handle => (handle.name, (d.store handle.cell).stats)) =
      d.storeNames.map fun name => (name, (d.store (d.getCache name).cell).stats) := by
    rw [Depot.handles, storeNames, Ordered.keys, List.map_map, List.map_map]
    apply List.map_congr_left
    intro b member
    have found := h.inOrder.mem_toList.mp member
    simp only [Function.comp_apply, (h.handles found).1, h.getCache_of_get? found]
  have keys : Ordered.keys (d.storeNames.map fun name =>
      (name, (d.store (d.getCache name).cell).stats)) = d.storeNames := by
    rw [Ordered.keys, List.map_map]
    exact List.map_id _
  rw [allStats, reports]
  apply Ordered.ofList_of_sorted
  rw [Ordered.Sorted, keys]
  exact h.inOrder.sorted_toList

theorem inside (h : d.Follows log) (name : String) : (d.getCache name).cell < d.stores.length := by
  have default : d.registry.get? defaultName = some d.registry.fallback := if_pos rfl
  rw [getCache, h.inOrder.resolve_eq]
  cases found : d.registry.get? name with
  | none => exact (h.handles default).2
  | some r => exact (h.handles found).2

theorem sweeping_eq (h : d.Follows log) :
    d.sweeping = d.storeNames.filterMap fun name =>
      (log.interval? name).map fun interval => (d.getCache name, interval) := by
  rw [sweeping, storeNames, Ordered.keys, List.filterMap_map]
  apply List.filterMap_congr
  intro b member
  have found := h.inOrder.mem_toList.mp member
  simp only [Function.comp_apply, h.getCache_of_get? found, h.interval?_of_get? found]

theorem store_runSweep (h : d.Follows log) (sound : d.Sound) (now : Nat) (name : String)
    {cell : Nat} (elsewhere : ∀ s ∈ d.sweeping, s.1.cell ≠ cell) :
    (d.runSweep now name).store cell = d.store cell := by
  unfold runSweep
  split
  · rename_i registered found
    split
    · rename_i ticker begun
      obtain ⟨sweeper, sweeps, begun⟩ := Option.bind_eq_some_iff.mp begun
      have going : sweeper.phase ≠ .ended := (Ticker.isTicking_beginTick? begun).1
      have held : sweeper.held = true :=
        (sound.sweepers.get? found sweeper sweeps).resolve_right going
      have running : registered.interval? = some sweeper.interval := by
        simp [Registered.interval?, sweeps, Ticker.isRunning, held, going]
      have swept : (registered.handle, sweeper.interval) ∈ d.sweeping := by
        refine List.mem_filterMap.mpr ⟨(name, registered), h.inOrder.mem_toList.mpr found, ?_⟩
        rw [running]
        rfl
      have kept := d.store_onStore_of_ne (fun s => s.sweep now) (elsewhere _ swept)
      exact kept
    · rfl
  · rfl

theorem directory (h : d.Follows log) (sound : d.Sound) : d.Directory log where
  resolves := h.some_getCache
  sorted := h.inOrder.sorted_toList
  names := h.mem_storeNames_iff
  has := fun name => hasCache_iff.trans mem_storeNames.symm
  stats := h.allStats_eq
  apart := by
    intro name member name' member' cells
    obtain ⟨r, found⟩ := mem_storeNames.mp member
    obtain ⟨r', found'⟩ := mem_storeNames.mp member'
    rw [h.getCache_of_get? found, h.getCache_of_get? found'] at cells
    exact h.apart found found' cells
  inside := h.inside
  sweeps := h.sweeping_eq
  unswept := fun now name cell elsewhere => h.store_runSweep sound now name elsewhere
  rejected := by
    intro now name config unseen
    cases verdict : config.fault? with
    | some fault => exact ⟨_, act_create_of_fault verdict d now name⟩
    | none =>
      rw [event?, act_create_of_accepted verdict, Assoc.get?_insert_self] at unseen
      cases unseen

end Follows

/-- However a depot is built and whatever happens to it, what its names lead to, what it lists and
reports, and what it sweeps is what can be told from the creations and teardowns there were. -/
theorem directory_run {start : Nat} {store : StoreConfig} {writeBehind : WriteBehindConfig}
    (made : Depot.new start store writeBehind = .ok d) (actions : List (Nat × Action)) :
    (d.run actions).Directory
      (d.chronicle [.created defaultName store ⟨defaultName, 0⟩] actions) :=
  ((Follows.follows_new made).run actions).directory ((sound_new made).run actions)

/-- A store that is created, replaced by one that is swept, and kept through a rejected creation; a
teardown, and a new default store after it. -/
def replacements : List (Nat × Action) :=
  [(1, .start (.create "b" ⟨5, none, some (.ofMillis 7)⟩)),
    (2, .start (.create "a" ⟨5, none, none⟩)),
    (3, .start (.create "a" ⟨6, none, some (.ofMillis 4)⟩)),
    (4, .start (.create "a" ⟨0, none, none⟩)), (8, .sweep "a"), (9, .start .destroy),
    (9, .resume 4), (9, .start (.create "default" ⟨2, none, some (.ofMillis 20)⟩)),
    (40, .sweep "default")]

theorem directory_run_replacements :
    ∃ made, Depot.new 0 ⟨9, none, some (.ofMillis 10)⟩ {} = .ok made ∧
      (made.run replacements).Directory
        (made.chronicle [.created defaultName ⟨9, none, some (.ofMillis 10)⟩ ⟨defaultName, 0⟩]
          replacements) := by
  have made : Depot.new 0 ⟨9, none, some (.ofMillis 10)⟩ {} = .ok _ := rfl
  exact ⟨_, made, directory_run made replacements⟩

example :
    (Depot.new 0 ⟨9, none, some (.ofMillis 10)⟩ {}).toOption.map (fun made =>
      let d := made.run replacements
      (d.storeNames.map d.getCache, d.sweeping)) =
    some ([⟨"a", 3⟩, ⟨"b", 1⟩, ⟨"default", 4⟩], [(⟨"default", 4⟩, .ofMillis 20)]) := by
  decide

end Depot
end CacheDepot
