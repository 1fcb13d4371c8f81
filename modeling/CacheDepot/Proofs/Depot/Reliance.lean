import CacheDepot.Proofs.Depot.Directory
import CacheDepot.Proofs.Depot.LateReloads
import CacheDepot.Proofs.Depot.TaskOrigins

/-!
# Reloads that other hits rely on

A hit that needs a reload and finds its key claimed starts none and relies on the one that is under
way. The claim is made in the name of the store, and the reload writes into the store that the name
led to when it was started. That is the store of the hit as long as no store has been created under
the name in between; where one has been, the reload that the hit relies on writes elsewhere.
-/

namespace CacheDepot

/-- What a background reload writes to, and what with. -/
structure Reload where
  handle : Handle
  key : CacheKey
  ttl : Option Duration
  loader : Loader

/-- What the reload is known by. -/
def Reload.claim (r : Reload) : ReloadId := (r.handle.name, r.key)

namespace Task

variable {t t' : Task}

end Task

namespace Depot

variable {d : Depot} {id now : Nat} {r : Reload} {a : Action}

namespace Follows

variable {log : Chronicle}

end Follows

/-! ## What a hit relies on -/

section Runs

variable {made : Depot} {start : Nat} {store : StoreConfig} {writeBehind : WriteBehindConfig}
  {actions : List (Nat × Action)}

end Runs

end Depot
end CacheDepot
