import CacheDepot.Proofs.Api.Requests
import CacheDepot.Proofs.Depot.Registering
import CacheDepot.Proofs.Depot.Reloads
import CacheDepot.Proofs.ResponseCache.Provenance

/-!
# What requests do to a depot

A request about a store does what its errand does. Every other request leaves the depot alone, but
for a look into the store of the response cache and an answer that is to be kept there. So
whatever is asked of a depot, reloads stay claimed and names lead to stores that are there.
-/

namespace CacheDepot

open Http (Request Response)

namespace ResponseCache

variable (d : Depot) (now : Nat) (h : Handle) (k : CacheKey)

theorem storesOnly_lookup : d.StoresOnly (lookup d now h k).2 := by
  have read : d.StoresOnly (d.getKey now h k).2 := .onStore d h _
  rw [lookup]
  generalize d.getKey now h k = result at read ⊢
  obtain ⟨stored, d'⟩ := result
  cases stored with
  | none => exact read
  | some value =>
    dsimp only
    cases CachedResponse.ofJson? value with
    | some kept => exact read
    | none => exact read.trans (.onStore d' h fun s => s.delete k)

/-- What is done to keep a response is nothing, or the start of a task. -/
theorem capture_cases (c : ResponseCache) (given : Response) :
    (c.capture d now h k given).2 = d ∨
      ∃ value ttl, (c.capture d now h k given).2 = (d.spawn (.storing h k value ttl)).2 := by
  by_cases kept : ∃ text, c.Keeps given text
  · obtain ⟨text, keeps⟩ := kept
    exact .inr ⟨_, _, congrArg Prod.snd (keeps.capture_eq d now h k)⟩
  · exact .inl (snd_capture_of_not_keeps (not_exists.mp kept) d now h k)

end ResponseCache

namespace Api

open ResponseCache (lookup)

variable {cache? : Option ResponseCache} {now : Nat} {r : Request} {d d' : Depot}

/-! ## Errands -/

theorem storesOnly_fulfil (e : Errand) (now : Nat) (d : Depot) :
    d.StoresOnly (e.fulfil now d).2 := by
  cases e with
  | get store key => exact .onStore d (d.getCache store) fun s => s.get now (pathKey key)
  | set store key payload => exact .setKey d now _ _ _ _
  | delete store key => exact .onStore d (d.getCache store) fun s => s.delete (pathKey key)
  | warm store payload =>
    cases problem : payload.problem? with
    | none =>
      rw [fulfil_warm_of_accepted now store d problem]
      exact .warm d now store payload.items
    | some reason =>
      rw [fulfil_warm_of_refused now store d problem]
      exact .refl d

theorem exists_changes_fulfil (e : Errand) (now : Nat) (d : Depot) :
    ∃ W, d.Changes W (e.fulfil now d).2 := by
  cases e with
  | get store key => exact ⟨[], .getKey d now _ _⟩
  | set store key payload => exact ⟨_, .setKey d now _ _ _ (List.mem_singleton_self _)⟩
  | delete store key => exact ⟨[], .deleteKey d _ _⟩
  | warm store payload =>
    cases problem : payload.problem? with
    | none =>
      rw [fulfil_warm_of_accepted now store d problem]
      exact ⟨_, .warm d now store payload.items⟩
    | some reason =>
      rw [fulfil_warm_of_refused now store d problem]
      exact ⟨[], .refl d⟩

/-! ## Requests that are about no store -/

/-- What a request that is about no store can do. -/
inductive Passes (cache? : Option ResponseCache) (now : Nat) (d : Depot) : Depot → Prop
  | untouched : Passes cache? now d d
  | looks {c : ResponseCache} (behind : cache? = some c) (key : CacheKey) :
      Passes cache? now d (lookup d now (d.getCache c.store) key).2
  | keeps {c : ResponseCache} (behind : cache? = some c) (key : CacheKey) (given : Response) :
      Passes cache? now d
        (c.capture (lookup d now (d.getCache c.store) key).2 now (d.getCache c.store) key given).2

theorem passes_throughCache {handler : Handler} (leaves : ∀ r d, (handler r d).2 = d)
    (cache? : Option ResponseCache) (now : Nat) (r : Request) (d : Depot) :
    Passes cache? now d (throughCache cache? now handler r d).2 := by
  cases cache? with
  | none =>
    rw [throughCache, leaves]
    exact .untouched
  | some c =>
    rw [throughCache]
    by_cases reads : ResponseCache.isRead r.method = true
    · cases found : (lookup d now (d.getCache c.store) (ResponseCache.key r)).1 with
      | some answer =>
        rw [ResponseCache.serve_of_lookup reads found]
        exact .looks rfl _
      | none =>
        rw [ResponseCache.serve_of_lookup_none reads found, leaves]
        exact .keeps rfl _ _
    · rw [ResponseCache.serve, if_neg reads, leaves]
      exact .untouched

theorem passes_health : Passes cache? now d (dispatch cache? now .health r d).2 := .untouched

theorem passes_stats : Passes cache? now d (dispatch cache? now .stats r d).2 :=
  passes_throughCache (fun _ _ => rfl) cache? now r d

/-- Whether a request is about no store. -/
def isAside (r : Request) : Bool :=
  match Resource.ofPath? r.target.path with
  | some (.store _) | some (.key _ _) => false
  | _ => true

theorem snd_serve (cache? : Option ResponseCache) (now : Nat) (r : Request) (d : Depot) :
    (serve cache? now r d).2 =
      if r.method = "OPTIONS" then d
      else match Resource.ofPath? r.target.path with
        | some resource => (answerResource cache? now resource r d).2
        | none => (throughCache cache? now answerUnknown r d).2 := by
  rw [serve]
  dsimp only
  split
  · rfl
  · cases Resource.ofPath? r.target.path <;> rfl

theorem passes_serve (aside : isAside r = true) (cache? : Option ResponseCache) (now : Nat)
    (d : Depot) : Passes cache? now d (serve cache? now r d).2 := by
  rw [isAside] at aside
  rw [snd_serve]
  split
  · exact .untouched
  cases path : Resource.ofPath? r.target.path with
  | none => exact passes_throughCache (fun _ _ => rfl) cache? now r d
  | some resource =>
    rw [path] at aside
    dsimp only
    rw [answerResource]
    cases resource with
    | health =>
      rcases ite_eq_or_eq (r.method = "GET" ∨ r.method = "HEAD") (Routing.call .health)
        .notAllowed with routed | routed
      · rw [Routing.of, routed]
        exact passes_health
      · rw [Routing.of, routed]
        exact .untouched
    | stats =>
      rcases ite_eq_or_eq (r.method = "GET" ∨ r.method = "HEAD") (Routing.call .stats)
        .notAllowed with routed | routed
      · rw [Routing.of, routed]
        exact passes_stats
      · rw [Routing.of, routed]
        exact .untouched
    | store name => cases aside
    | key store name => cases aside

/-! ## Any request -/

/-- A call is an errand, or it does what requests do that are about no store. -/
theorem dispatch_cases (cache? : Option ResponseCache) (now : Nat) (call : Call) (r : Request)
    (d : Depot) :
    Passes cache? now d (dispatch cache? now call r d).2 ∨
      ∃ e : Errand, (dispatch cache? now call r d).2 = (e.fulfil now d).2 := by
  cases call with
  | health => exact .inl passes_health
  | stats => exact .inl passes_stats
  | get store key =>
    refine .inr ⟨.get store key, ?_⟩
    rw [← answerGet_eq]
    rfl
  | delete store key =>
    refine .inr ⟨.delete store key, ?_⟩
    rw [← answerDelete_eq]
    rfl
  | set store key =>
    have answered : (dispatch cache? now (.set store key) r d).2 =
        (answerSet now store key r d).2 := rfl
    rw [answered]
    cases readable : readPayload SetRequest.read r with
    | ok payload =>
      rw [answerSet_eq now store key r d readable]
      exact .inr ⟨_, rfl⟩
    | error fault =>
      rw [answerSet, readable]
      exact .inl .untouched
  | warm store =>
    have answered : (dispatch cache? now (.warm store) r d).2 =
        (answerWarm now store r d).2 := rfl
    rw [answered]
    cases readable : readPayload WarmRequest.read r with
    | ok payload =>
      rw [answerWarm_eq now store r d readable]
      exact .inr ⟨_, rfl⟩
    | error fault =>
      rw [answerWarm, readable]
      exact .inl .untouched

theorem serve_cases (cache? : Option ResponseCache) (now : Nat) (r : Request) (d : Depot) :
    Passes cache? now d (serve cache? now r d).2 ∨
      ∃ e : Errand, (serve cache? now r d).2 = (e.fulfil now d).2 := by
  rw [snd_serve]
  split
  · exact .inl .untouched
  cases Resource.ofPath? r.target.path with
  | none => exact .inl (passes_throughCache (fun _ _ => rfl) cache? now r d)
  | some resource =>
    dsimp only
    rw [answerResource]
    cases Routing.of r.method resource with
    | call call => exact dispatch_cases cache? now call r d
    | undecodable => exact .inl .untouched
    | notAllowed => exact .inl .untouched

end Api

/-! ## Whatever is asked of a depot -/

/-- Whether reloads are claimed as they should be, and names lead to stores that are there. -/
structure Depot.Orderly (d : Depot) : Prop where
  flights : d.SingleFlight
  inside : d.registry.Every fun r => r.handle.cell < d.stores.length

namespace Depot.Orderly

variable {d d' : Depot}

theorem changes {W : List Write} (h : d.Orderly) (changes : d.Changes W d')
    (registry : d'.registry = d.registry) : d'.Orderly where
  flights := h.flights.changes changes
  inside := by
    rw [registry]
    exact h.inside.imp fun _ inside => Nat.lt_of_lt_of_le inside changes.stores_le

theorem act (h : d.Orderly) (now : Nat) (a : Action) : (d.act now a).Orderly where
  flights := h.flights.turn (d.turn_act now a)
  inside := by
    have grown := (d.turn_act now a).stores_le
    have still : d.registry.Every fun r => r.handle.cell < (d.act now a).stores.length :=
      h.inside.imp fun _ inside => Nat.lt_of_lt_of_le inside grown
    have registers := d.registers_act now a
    generalize d.event? now a = event at registers
    cases registers with
    | kept same => exact same ▸ still
    | ticked found sweeps begun entered =>
      rw [entered]
      have there := still.get? found
      exact still.insert _ there
    | created accepted entered grown =>
      rw [entered]
      exact still.insert _ grown
    | tornDown stopped =>
      rw [stopped, stopSweepers]
      dsimp only
      apply still.map
      intro store there
      exact there

theorem spawn_storing (h : d.Orderly) (handle : Handle) (key : CacheKey) (value : Json)
    (ttl : Duration) : (d.spawn (.storing handle key value ttl)).2.Orderly where
  flights := h.flights.insert rfl rfl (Nat.le_succ _) (Nat.lt_succ_self _)
    h.flights.reloadId?_nextTask.symm
  inside := h.inside

theorem serve (h : d.Orderly) (cache? : Option ResponseCache) (now : Nat) (r : Request) :
    (Api.serve cache? now r d).2.Orderly := by
  have looked (handle : Handle) (key : CacheKey) :
      (ResponseCache.lookup d now handle key).2.Orderly :=
    h.changes (ResponseCache.changes_lookup d now handle key)
      (ResponseCache.storesOnly_lookup d now handle key).registry
  rcases Api.serve_cases cache? now r d with passes | ⟨e, same⟩
  · generalize (Api.serve cache? now r d).2 = d' at passes
    cases passes with
    | untouched => exact h
    | looks behind key => exact looked _ key
    | @keeps c behind key given =>
      rcases ResponseCache.capture_cases (ResponseCache.lookup d now (d.getCache c.store) key).2 now
        (d.getCache c.store) key c given with same | ⟨value, ttl, same⟩
      · rw [same]
        exact looked _ key
      · rw [same]
        exact (looked _ key).spawn_storing _ key value ttl
  · obtain ⟨W, changes⟩ := Api.exists_changes_fulfil e now d
    rw [same]
    exact h.changes changes (Api.storesOnly_fulfil e now d).registry

theorem inside_getCache (h : d.Orderly) (name : String) :
    (d.getCache name).cell < d.stores.length := h.inside.resolve name

end Depot.Orderly

/-- The depots that come of a new one by whatever is asked of it and whatever goes on in it. -/
inductive Depot.Reached : Depot → Prop
  | made {d : Depot} {now : Nat} {store : StoreConfig} {writeBehind : WriteBehindConfig}
      (made : Depot.new now store writeBehind = .ok d) : Reached d
  | acts {d : Depot} (reached : Reached d) (now : Nat) (a : Action) : Reached (d.act now a)
  | serves {d : Depot} (reached : Reached d) (cache? : Option ResponseCache) (now : Nat)
      (r : Request) : Reached (Api.serve cache? now r d).2

theorem Depot.Reached.orderly {d : Depot} (h : d.Reached) : d.Orderly := by
  induction h with
  | made made =>
    refine ⟨singleFlight_new made, ?_⟩
    rw [Depot.new] at made
    split at made
    · cases made
    · cases made
      refine ⟨Nat.one_pos, ?_⟩
      rintro _ ⟨⟩
  | acts reached now a ih => exact ih.act now a
  | serves reached cache? now r ih => exact ih.serve cache? now r

end CacheDepot
