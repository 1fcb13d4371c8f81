import CacheDepot.Proofs.Api.RequestEffects
import CacheDepot.Proofs.Depot.SharedQueue

/-!
# The service and the operations on stores

Requests about stores are answered as if their operations were carried out on the depot itself.
Requests about no store may come between them, answered from a response cache or not, as long as
the store of the cache is not the one that is asked for; so a value that is stored is found by the
next request.
-/

namespace CacheDepot

open Http (Request Response)

variable {S : Nat → Prop} {n now : Nat} {d d' : Depot}

namespace Depot

/-! ## What only one of two depots is asked -/

section OneSided

variable {handle : Handle}

theorem AgreeUpTo.lookup (h : AgreeUpTo S n d d') (hidden : ¬ S handle.cell) (now : Nat)
    (key : CacheKey) : AgreeUpTo S n (ResponseCache.lookup d now handle key).2 d' := by
  have read : AgreeUpTo S n (d.getKey now handle key).2 d' := h.onStore_left hidden _
  rw [ResponseCache.lookup]
  generalize d.getKey now handle key = result at read ⊢
  obtain ⟨stored, e⟩ := result
  cases stored with
  | none => exact read
  | some value =>
    dsimp only
    cases CachedResponse.ofJson? value with
    | some kept => exact read
    | none => exact read.onStore_left hidden fun s => s.delete key

theorem AgreeUpTo.capture (h : AgreeUpTo S n d d') (hidden : ¬ S handle.cell) (c : ResponseCache)
    (now : Nat) (key : CacheKey) (given : Response) :
    AgreeUpTo S n (c.capture d now handle key given).2 d' := by
  rcases ResponseCache.capture_cases d now handle key c given with same | ⟨value, ttl, same⟩
  · rw [same]
    exact h
  · rw [same]
    exact h.spawn_left hidden key value ttl

/-- A request that is about no store does not show in the cells on which the depots agree. -/
theorem AgreeUpTo.passes (h : AgreeUpTo S n d d') {cache? : Option ResponseCache} {after : Depot}
    (passes : Api.Passes cache? now d after)
    (hidden : ∀ c, cache? = some c → ¬ S (d.getCache c.store).cell) : AgreeUpTo S n after d' := by
  cases passes with
  | untouched => exact h
  | looks behind key => exact h.lookup (hidden _ behind) now key
  | keeps behind key given =>
    exact (h.lookup (hidden _ behind) now key).capture (hidden _ behind) _ now key given

end OneSided

/-- An errand to a store in a cell on which the depots agree has the same answer in both. -/
theorem Agree.fulfil (h : Agree S d d') (now : Nat) {e : Api.Errand}
    (shared : S (d.getCache e.store).cell) :
    (e.fulfil now d').1 = (e.fulfil now d).1 ∧ Agree S (e.fulfil now d).2 (e.fulfil now d').2 := by
  cases e with
  | get store key =>
    have same : (d'.getKey now (d.getCache store) (Api.pathKey key)).1 =
        (d.getKey now (d.getCache store) (Api.pathKey key)).1 := h.fst_onStore shared _
    rw [Api.fulfil_get, Api.fulfil_get, h.getCache, same]
    exact ⟨rfl, h.onStore (d.getCache store) fun s => s.get now (Api.pathKey key)⟩
  | set store key payload =>
    have same : (d'.setKey now (d.getCache store) (Api.pathKey key) payload.value payload.ttl).1 =
        (d.setKey now (d.getCache store) (Api.pathKey key) payload.value payload.ttl).1 :=
      h.fst_onStore shared _
    rw [Api.fulfil_set, Api.fulfil_set, h.getCache, same]
    exact ⟨rfl, h.setKey now _ _ _ _⟩
  | delete store key =>
    have same : (d'.deleteKey (d.getCache store) (Api.pathKey key)).1 =
        (d.deleteKey (d.getCache store) (Api.pathKey key)).1 := h.fst_onStore shared _
    rw [Api.fulfil_delete, Api.fulfil_delete, h.getCache, same]
    exact ⟨rfl, h.onStore (d.getCache store) fun s => s.delete (Api.pathKey key)⟩
  | warm store payload =>
    cases problem : payload.problem? with
    | none =>
      rw [Api.fulfil_warm_of_accepted _ _ _ problem, Api.fulfil_warm_of_accepted _ _ _ problem,
        h.getCache]
      exact ⟨rfl, h.warm now store payload.items⟩
    | some reason =>
      rw [Api.fulfil_warm_of_refused _ _ _ problem, Api.fulfil_warm_of_refused _ _ _ problem,
        h.getCache]
      exact ⟨rfl, h⟩

theorem AgreeUpTo.fulfil (h : AgreeUpTo S n d d') (now : Nat) {e : Api.Errand}
    (shared : S (d.getCache e.store).cell) :
    (e.fulfil now d').1 = (e.fulfil now d).1 ∧
      AgreeUpTo S n (e.fulfil now d).2 (e.fulfil now d').2 := by
  obtain ⟨same, after⟩ := h.toAgree.fulfil now shared
  exact ⟨same, h.of_storesOnly (Api.storesOnly_fulfil e now d) (Api.storesOnly_fulfil e now d')
    after⟩

end Depot

namespace Api

/-! ## Sequences of requests -/

/-- What comes to the service, or happens in the depot behind it. -/
inductive Visit where
  /-- A request that asks for an errand. -/
  | asks (request : Request) (errand : Errand)
  /-- A request that is about no store. -/
  | aside (request : Request)
  | acts (action : Action)

/-- What the service answers to requests about stores, as all visits come. -/
def serveAll (cache? : Option ResponseCache) (d : Depot) : List (Nat × Visit) → List Response
  | [] => []
  | (now, .asks r _) :: rest =>
    let (answer, d) := serve cache? now r d
    answer :: serveAll cache? d rest
  | (now, .aside r) :: rest => serveAll cache? (serve cache? now r d).2 rest
  | (now, .acts a) :: rest => serveAll cache? (d.act now a) rest

/-- A request to store a number under the key `a b` of the default store. -/
def putNumber : Request where
  method := "PUT"
  target := ⟨"/caches/default/a%20b", some "/caches/default/a%20b"⟩
  headers := [("content-type", "application/json")]
  body := "\x7b\"value\":1\x7d"

/-- A request to remove it. -/
def deleteNumber : Request := { method := "DELETE", target := putNumber.target }

theorem spells_default : Spells "default" "default" where
  whole := by decide
  decoded := by decide +kernel

theorem spells_key : Spells "a%20b" "a b" where
  whole := by decide
  decoded := by decide +kernel

end Api
end CacheDepot
