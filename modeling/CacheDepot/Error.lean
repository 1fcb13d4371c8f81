import CacheDepot.Config

/-!
# Errors

Everything an operation can be refused for, with its text and the status of the answer to a
request that met it. Eviction and expiry are no errors.
-/

namespace CacheDepot

/-- Why a loader or a persist operation of the caller failed. -/
structure Cause where
  message : String
  /-- What the failing code was about to do, if it said so. -/
  context : Option String := none
  deriving DecidableEq, Repr

namespace Cause

/-- The outermost description. -/
def text (c : Cause) : String := c.context.getD c.message

/-- All descriptions from the outermost to the innermost. -/
def chain (c : Cause) : List String := c.context.toList ++ [c.message]

end Cause

/-- Why an operation was refused or failed. -/
inductive CacheError where
  | notFound (key : String)
  | invalidConfig (reason : String)
  | invalidRequest (reason : String)
  /-- The loader failed and nothing was cached. -/
  | loader (cause : Cause)
  /-- The persist operation failed and the cache was left as it was. -/
  | persist (cause : Cause)
  | serialization (reason : String)
  | internal (reason : String)
  deriving DecidableEq, Repr

namespace CacheError

/-- The error of an invalid set-up. -/
def ofFault (fault : ConfigFault) : CacheError := .invalidConfig fault.reason

/-- The text of an error. -/
def text : CacheError → String
  | .notFound key => "Key not found: " ++ key
  | .invalidConfig reason => "Invalid configuration: " ++ reason
  | .invalidRequest reason => "Invalid request: " ++ reason
  | .loader cause => "Loader failed: " ++ cause.text
  | .persist cause => "Persist failed: " ++ cause.text
  | .serialization reason => "Serialization error: " ++ reason
  | .internal reason => "Internal error: " ++ reason

/-- The descriptions of what lies behind an error, outermost first. -/
def causes : CacheError → List String
  | .loader cause | .persist cause => cause.chain
  | .serialization reason => [reason]
  | .notFound _ | .invalidConfig _ | .invalidRequest _ | .internal _ => []

/-- The status of the answer to a request that met the error. -/
def status : CacheError → Nat
  | .notFound _ => 404
  | .invalidConfig _ | .invalidRequest _ | .serialization _ => 400
  | .loader _ | .persist _ => 502
  | .internal _ => 500

end CacheError
end CacheDepot
