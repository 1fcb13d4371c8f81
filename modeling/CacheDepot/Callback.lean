import CacheDepot.Error
import CacheDepot.Json.Basic

/-!
# Operations of the callers

Loading a value and persisting one are up to the callers. What the cache sees of such an
operation is how long each call takes and how it ends, and that is how operations are described
here. A label names the operation in the journal.
-/

namespace CacheDepot

/-- How a call of a loader ends. -/
inductive LoadOutcome where
  /-- The loader breaks down instead of answering. -/
  | panics
  | fails (cause : Cause)
  /-- The loader answers, perhaps that there is nothing. -/
  | returns (value : Option Json)

/-- An operation that loads a value. It is called at most once. -/
structure Loader where
  label : String
  /-- Milliseconds until the call ends. -/
  delay : Nat := 0
  outcome : LoadOutcome

/-- One call of an operation that persists a value. -/
structure Attempt where
  /-- Milliseconds until the call ends. -/
  delay : Nat := 0
  failure : Option Cause := none
  deriving DecidableEq, Repr

/-- An operation that persists a value, described call by call. Calls beyond the last described
one go like it; without any description every call succeeds at once. -/
structure Persist where
  label : String
  attempts : List Attempt
  deriving DecidableEq, Repr

/-- The call with this number, counted from zero. -/
def Persist.attempt (p : Persist) (call : Nat) : Attempt :=
  (p.attempts[call]?.or p.attempts.getLast?).getD {}

/-- A call of an operation of the callers, as the journal records it. -/
inductive Event where
  | loaderCalled (label : String)
  | persistCalled (label : String) (call : Nat) (value : Json)
  | handlerCalled (method : String) (target : Option String)

end CacheDepot
