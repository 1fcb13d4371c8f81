import CacheDepot.Binary64.Shortest

/-!
# Numbers of a JSON value

A number without point and exponent that fits 64 bits, signed or unsigned, is an integer; every
other number is a double. The two kinds stay apart: `1` and `1.0` are different values with
different texts. A double is read from the digits that fit a 64-bit significand and one scaling
by a power of ten, which is not always the nearest double; it is written with the fewest digits
that read back.
-/

namespace CacheDepot.Json

/-- A JSON number. -/
inductive Number where
  /-- An integer from `-2 ^ 63` up to `2 ^ 64 - 1`. -/
  | int (value : Int)
  | real (value : Binary64)
  deriving DecidableEq, Repr

/-- The number as a double, an integer rounded to nearest. -/
def Number.double? : Number → Option Binary64
  | .int i => Binary64.ofRatio? (i < 0) i.natAbs 1
  | .real x => some x

/-- The largest unsigned 64-bit integer. -/
def maxNatural : Nat := UInt64.size - 1

/-! ## Reading -/

/-- What the digits of a numeral amount to: `significand * 10 ^ power`. -/
structure Scaled where
  significand : Nat
  power : Int
  deriving DecidableEq, Repr

namespace Scaled

/-- Whether one more digit fits the significand. -/
def fits (s : Scaled) (digit : Nat) : Bool :=
  s.significand * 10 + digit ≤ maxNatural

/-- Takes the digits before the point. From the first that does not fit, each only raises the
power. -/
def takeWhole (s : Scaled) : List Nat → Scaled
  | [] => s
  | d :: rest =>
    if s.fits d then takeWhole { s with significand := s.significand * 10 + d } rest
    else { s with power := s.power + (d :: rest).length }

/-- Takes the digits after the point, up to the first that does not fit. -/
def takeFraction (s : Scaled) : List Nat → Scaled
  | [] => s
  | d :: rest =>
    if s.fits d then takeFraction ⟨s.significand * 10 + d, s.power - 1⟩ rest else s

/-- The largest power of ten that is scaled by in one rounding. -/
def maxStep : Nat := 308

/-- Divides by `10 ^ 308` until the rest of the power is small or nothing is left. -/
def shrink (x : Binary64) (power : Int) : Nat → Option Binary64
  | 0 => some x
  | fuel + 1 =>
    if x.isZero then some x
    else if -power ≤ maxStep then do x.div? (← Binary64.ofNat? (Nat.pow 10 (-power).toNat))
    else do shrink (← x.div? (← Binary64.ofNat? (Nat.pow 10 maxStep))) (power + maxStep) fuel

/-- The magnitude as a double; `none` if it is too large. Three steps down from `2 ^ 64` leave
zero, so the fuel is never used up. -/
def magnitude? (s : Scaled) : Option Binary64 := do
  let x ← Binary64.ofNat? s.significand
  if x.isZero then some x
  else if s.power < 0 then shrink x s.power 4
  else if s.power ≤ maxStep then x.mul? (← Binary64.ofNat? (Nat.pow 10 s.power.toNat))
  else none

end Scaled

/-- The parts of a numeral as written. -/
structure NumeralParts where
  negative : Bool
  whole : List Nat
  /-- Whether a point or an exponent was written. -/
  isReal : Bool
  fraction : List Nat
  power : Int
  deriving DecidableEq, Repr

/-- The number a numeral stands for; `none` if it is beyond the largest double. A minus sign
before a zero makes the double `-0.0`. -/
def NumeralParts.number? (parts : NumeralParts) : Option Number :=
  let start : Scaled := Scaled.takeWhole ⟨0, 0⟩ parts.whole
  let isInteger := !parts.isReal && start.power == 0
  if isInteger && !parts.negative then some (.int start.significand)
  else if isInteger && start.significand != 0 && start.significand ≤ UInt64.size / 2 then
    some (.int (-(start.significand : Int)))
  else
    let scaled := start.takeFraction parts.fraction
    ({ scaled with power := scaled.power + parts.power } : Scaled).magnitude?.map
      fun x => .real { x with negative := parts.negative }

/-! ## Writing -/

/-- The decimal digits of a natural number. -/
def naturalText (n : Nat) : List Char := Nat.toDigits 10 n

/-- An integer with a minus sign if it is negative. -/
def integerText (i : Int) : List Char :=
  if i < 0 then '-' :: naturalText i.natAbs else naturalText i.natAbs

/-- Decimals whose leading digit stands for a power of ten in this range are written without
an exponent. -/
def isPositional (leading : Int) : Bool := -5 ≤ leading && leading < 16

/-- The digits of a decimal, positional or with an exponent. A positional text always has a
point; the exponent has a sign and no padding. -/
def decimalText (d : Binary64.Decimal) : List Char :=
  let digits := naturalText d.digits
  let leading : Int := d.power + digits.length - 1
  if isPositional leading then
    if 0 ≤ d.power then digits ++ List.replicate d.power.toNat '0' ++ ['.', '0']
    else if 0 ≤ leading then
      digits.take (leading.toNat + 1) ++ '.' :: digits.drop (leading.toNat + 1)
    else '0' :: '.' :: List.replicate (-leading - 1).toNat '0' ++ digits
  else
    let point := if digits.length = 1 then [] else ['.']
    let sign := if leading < 0 then '-' else '+'
    digits.take 1 ++ point ++ digits.drop 1 ++ 'e' :: sign :: naturalText leading.natAbs

/-- The text of a double; the sign of a zero is kept. -/
def realText (x : Binary64) : List Char :=
  let text := decimalText x.shortest
  if x.negative then '-' :: text else text

/-- The text of a number. -/
def Number.text : Number → List Char
  | .int i => integerText i
  | .real x => realText x

end CacheDepot.Json
