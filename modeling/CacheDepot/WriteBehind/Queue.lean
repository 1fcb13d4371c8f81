import CacheDepot.Callback
import CacheDepot.Duration
import CacheDepot.Key
import CacheDepot.Text.Quoted

/-!
# The write-behind queue

Writes that are to be persisted later wait in one queue. A drain takes a batch from the front,
tries all of it at once, and puts what failed back at the end until it has failed once more
often than it may be retried. A flag keeps a second drain from running beside the first.
-/

namespace CacheDepot.WriteBehind

/-- A write waiting to be persisted. -/
structure Item where
  /-- The place of the item in the order of all items ever pushed. -/
  ticket : Nat
  key : CacheKey
  value : Json
  persist : Persist
  /-- Milliseconds since the Unix epoch when the item was made. -/
  enqueuedAt : Nat
  /-- Failed attempts so far. -/
  retries : Nat

namespace Item

/-- The item with one failed attempt more. -/
def retried (item : Item) : Item := { item with retries := item.retries + 1 }

/-- How the next attempt to persist the item goes. -/
def nextAttempt (item : Item) : Attempt := item.persist.attempt item.retries

/-- Milliseconds that the next attempt takes. -/
def attemptTime (item : Item) : Nat := waitEnd 0 item.nextAttempt.delay

/-- Puts an item behind those whose attempts take no longer than its own. -/
def placeByEnd (item : Item) : List Item → List Item
  | [] => [item]
  | other :: rest =>
    if other.attemptTime ≤ item.attemptTime then other :: item.placeByEnd rest
    else item :: other :: rest

/-- A description for the log of the service. -/
def describe (item : Item) : String :=
  "WriteBehindItem \x7b key: CacheKey(" ++ Text.quoteName item.key.text ++ "), enqueued_at: " ++
    toString item.enqueuedAt ++ ", retry_count: " ++ toString item.retries ++ ", .. \x7d"

end Item

/-- What one drain, or all drains of one flush, did. -/
structure Report where
  persisted : Nat := 0
  requeued : Nat := 0
  abandoned : Nat := 0
  /-- Whether another drain was running and nothing was done. -/
  skipped : Bool := false
  deriving DecidableEq, Repr

namespace Report

/-- The number of items that were tried. -/
def processed (r : Report) : Nat := r.persisted + r.requeued + r.abandoned

/-- The sums of two reports of drains that ran. -/
def add (r s : Report) : Report where
  persisted := r.persisted + s.persisted
  requeued := r.requeued + s.requeued
  abandoned := r.abandoned + s.abandoned

end Report

/-- The queue. -/
structure Queue where
  /-- The waiting items, the front first. -/
  items : List Item := []
  /-- Whether a drain is running. -/
  draining : Bool := false
  batchSize : Nat
  maxRetries : Nat
  /-- The number of items ever pushed. -/
  pushed : Nat := 0

/-- What became of an item. -/
inductive Fate where
  | attempted (item : Item)
  | persisted (item : Item)
  | requeued (item : Item)
  | abandoned (item : Item)
  /-- The drain that had taken the item was given up. -/
  | lost (item : Item)

namespace Queue

/-- An empty queue; a batch size of zero is taken as one. -/
def new (batchSize maxRetries : Nat) : Queue where
  batchSize := max batchSize 1
  maxRetries

/-- The item that a push of this value adds. -/
def newItem (q : Queue) (now : Nat) (key : CacheKey) (value : Json) (persist : Persist) : Item :=
  ⟨q.pushed, key, value, persist, now, 0⟩

/-- Adds a new item at the end. -/
def push (q : Queue) (now : Nat) (key : CacheKey) (value : Json) (persist : Persist) : Queue :=
  { q with
    items := q.items ++ [q.newItem now key value persist]
    pushed := q.pushed + 1 }

/-- The number of waiting items. -/
def size (q : Queue) : Nat := q.items.length

/-- The items that the next drain takes. -/
def batch (q : Queue) : List Item := q.items.take q.batchSize

/-- The queue without the items that the next drain takes. -/
def dropBatch (q : Queue) : Queue := { q with items := q.items.drop q.batchSize }

/-- The fate of an item whose attempt is over. -/
def judge (q : Queue) (item : Item) : Fate :=
  if item.nextAttempt.failure.isNone then .persisted item
  else if item.retries < q.maxRetries then .requeued item.retried
  else .abandoned item

/-- The items of a batch in the order in which their attempts end. -/
def byEnd (batch : List Item) : List Item :=
  batch.foldl (fun ended item => item.placeByEnd ended) []

/-- The items among these fates that go back into the queue. -/
def retries (fates : List Fate) : List Item :=
  fates.filterMap fun
    | .requeued item => some item
    | _ => none

/-- The counts of fates. -/
def tally (fates : List Fate) : Report where
  persisted := fates.countP fun | .persisted _ => true | _ => false
  requeued := fates.countP fun | .requeued _ => true | _ => false
  abandoned := fates.countP fun | .abandoned _ => true | _ => false

/-- Puts items back at the end. -/
def requeue (q : Queue) (items : List Item) : Queue := { q with items := q.items ++ items }

/-- How many attempts an item has left. -/
def attemptsLeft (q : Queue) (item : Item) : Nat := q.maxRetries + 1 - item.retries

/-- How many attempts these items have left together. -/
def totalAttemptsLeft (q : Queue) : List Item → Nat
  | [] => 0
  | item :: rest => q.attemptsLeft item + totalAttemptsLeft q rest

end Queue
end CacheDepot.WriteBehind
