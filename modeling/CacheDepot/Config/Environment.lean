import CacheDepot.Config
import CacheDepot.Text.Blank

/-!
# Configuration from environment variables

Each setting has a variable. A variable that is unset or cannot be read leaves the default; the
word `none` turns an optional length of time off.
-/

namespace CacheDepot.Config

/-- Environment variables and their values. -/
abbrev Environment := List (String × String)

/-- Reads a natural number up to `limit`: decimal digits, after a plus sign if there is one. -/
def natural? (limit : Nat) (cs : List Char) : Option Nat :=
  let digits := if cs.head? = some '+' then cs.drop 1 else cs
  if digits.isEmpty ∨ ¬ digits.all (fun c => '0' ≤ c ∧ c ≤ '9') then none
  else
    let n := digits.foldl (fun n c => min (n * 10 + (c.toNat - 48)) (limit + 1)) 0
    if n ≤ limit then some n else none

/-- A setting that is a number. -/
def number? (env : Environment) (name : String) (limit : Nat) : Option Nat := do
  natural? limit (← env.lookup name).toList

/-- A setting that is a number of milliseconds or the word `none`, in any case and with blanks
around it. -/
def optionalMillis? (env : Environment) (name : String) : Option (Option Duration) := do
  let trimmed := Text.trimBlanks (← env.lookup name).toList
  if trimmed.map Text.lowerAscii = ['n', 'o', 'n', 'e'] then some none
  else do some (some (.ofMillis (← natural? maxMillis trimmed)))

/-- The set-up that the environment asks for. -/
def fromEnvironment (env : Environment) : Config :=
  let fallback : Config := {}
  { port := (number? env "SERVER_PORT" 65535).getD fallback.port
    store := {
      capacity := (number? env "CACHE_CAPACITY" (UInt64.size - 1)).getD fallback.store.capacity
      defaultTtl := (optionalMillis? env "CACHE_DEFAULT_TTL_MS").getD fallback.store.defaultTtl
      cleanupInterval :=
        (optionalMillis? env "CACHE_CLEANUP_INTERVAL_MS").getD fallback.store.cleanupInterval }
    writeBehind := {
      batchSize := (number? env "WRITE_BEHIND_BATCH_SIZE" (UInt64.size - 1)).getD
        fallback.writeBehind.batchSize
      maxRetries := (number? env "WRITE_BEHIND_MAX_RETRIES" (UInt32.size - 1)).getD
        fallback.writeBehind.maxRetries
      drainInterval :=
        (optionalMillis? env "WRITE_BEHIND_INTERVAL_MS").getD fallback.writeBehind.drainInterval }
    responseCacheTtl :=
      (optionalMillis? env "RESPONSE_CACHE_TTL_MS").getD fallback.responseCacheTtl }

end CacheDepot.Config
