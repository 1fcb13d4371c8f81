import CacheDepot.Entry

/-!
# When an entry is reloaded ahead of its expiry

An entry with a lifetime is reloaded once its age is more than a given share of that lifetime.
Age and lifetime are rounded to doubles and the share of the lifetime is rounded once more.
-/

namespace CacheDepot

/-- The share of its lifetime after which an entry is reloaded. -/
inductive Threshold where
  | share (x : Binary64)
  | infinite (negative : Bool)
  | undefined
  deriving DecidableEq, Repr

namespace Threshold

/-- Whether `age` is more than this share of `window`. -/
def isExceeded (t : Threshold) (age window : Nat) : Bool :=
  match t with
  | .undefined => false
  | .infinite negative => negative
  | .share x =>
    match Binary64.ofNat? window, Binary64.ofNat? age with
    | some w, some a =>
      match x.mul? w with
      | some product => product.less a
      | none => x.negative
    | _, _ => false

/-- The share that applies unless a caller asks for another: four fifths. -/
def defaultShare : Binary64 := (Binary64.ofRatio? false 8 10).getD .zero

/-- The threshold that applies unless a caller asks for another. -/
def default : Threshold := .share defaultShare

end Threshold

/-- Whether an entry read at `now` is to be reloaded. An entry without a lifetime, or with none
left from the start, never is. -/
def Entry.needsRefresh (e : Entry) (now : Nat) (threshold : Threshold) : Bool :=
  match e.window with
  | some window => window ≠ 0 && threshold.isExceeded (e.age now) window
  | none => false

end CacheDepot
