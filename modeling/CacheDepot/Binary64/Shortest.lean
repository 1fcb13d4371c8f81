import CacheDepot.Binary64

/-!
# The fewest digits that read back

`digits` writes a positive double with the fewest decimal digits that round to it again, and
among those with the digits nearest to it. For each number of digits the two decimals around
the value are compared with the interval of numbers that round to it.
-/

namespace CacheDepot.Binary64

/-- The decimal `digits * 10 ^ power`. -/
structure Decimal where
  digits : Nat
  power : Int
  deriving DecidableEq, Repr

/-- `num / den` as a ratio in units of `10 ^ power`. -/
def inTens (num den : Nat) (power : Int) : Nat × Nat :=
  if 0 ≤ power then (num, den * Nat.pow 10 power.toNat) else (num * Nat.pow 10 (-power).toNat, den)

/-- The number of decimal digits of `n`, searching up to `limit` digits. -/
def digitCount (n : Nat) : Nat → Nat
  | 0 => 0
  | limit + 1 => if n = 0 then 0 else 1 + digitCount (n / 10) limit

/-- The power of ten of the leading digit of a positive ratio in the range of doubles. -/
def leadingPower (num den : Nat) : Int :=
  (digitCount (num * Nat.pow 10 330 / den) 700 : Int) - 331

/-- The numbers that round to a positive double: the ends of the interval in units of
`2 ^ (exponent - 2)`, and whether they belong to it. -/
structure Basin where
  low : Nat
  value : Nat
  high : Nat
  closed : Bool

/-- Below a power of two the next double is only half as far away as above it. -/
def basin (x : Binary64) : Basin where
  low := 4 * x.significand -
    (if x.significand = leastNormal ∧ leastExponent < x.exponent then 1 else 2)
  value := 4 * x.significand
  high := 4 * x.significand + 2
  closed := x.significand % 2 == 0

/-- Whether the decimal lies in the interval around `x`. -/
def readsBack (x : Binary64) (d : Decimal) : Bool :=
  let b := basin x
  -- both sides of each comparison in units of 2 ^ (exponent - 2)
  let unit := inUnits d.digits 1 (x.exponent - 2)
  let tens := inTens unit.1 unit.2 (-d.power)
  if b.closed then b.low * tens.2 ≤ tens.1 && tens.1 ≤ b.high * tens.2
  else b.low * tens.2 < tens.1 && tens.1 < b.high * tens.2

/-- The better of the two decimals with the given last place around `x`, if one reads back. -/
def onGrid (x : Binary64) (power : Int) : Option Decimal :=
  let scaled := inTens x.ratio.1 x.ratio.2 power
  let below : Decimal := ⟨scaled.1 / scaled.2, power⟩
  let above : Decimal := ⟨scaled.1 / scaled.2 + 1, power⟩
  match readsBack x below, readsBack x above with
  | true, true => some ⟨roundEven scaled.1 scaled.2, power⟩
  | true, false => some below
  | false, true => some above
  | false, false => none

/-- Tries the grids from the coarsest to the finest. -/
def firstGrid (x : Binary64) : List Int → Option Decimal
  | [] => none
  | power :: finer => (onGrid x power).orElse fun _ => firstGrid x finer

/-- Moves zeros at the end of the digits into the power. -/
def trimZeros (d : Decimal) : Nat → Decimal
  | 0 => d
  | fuel + 1 =>
    if d.digits ≠ 0 ∧ d.digits % 10 = 0 then trimZeros ⟨d.digits / 10, d.power + 1⟩ fuel else d

/-- The shortest decimal that reads back as the magnitude of `x`; zero is `0 * 10 ^ 0`. -/
def shortest (x : Binary64) : Decimal :=
  if x.significand = 0 then ⟨0, 0⟩
  else
    let top := leadingPower x.ratio.1 x.ratio.2
    let grids := (List.range 17).map fun (n : Nat) => top - (n : Int)
    trimZeros ((firstGrid x grids).getD ⟨0, 0⟩) 20

end CacheDepot.Binary64
