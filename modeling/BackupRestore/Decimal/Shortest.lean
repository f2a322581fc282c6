/-
Module: BackupRestore.Decimal.Shortest
Purpose: The shortest decimal number that leads back to a number of 53 bits.
Main exports: Binary64.Interval, Binary64.interval, Binary64.shortest, Decimal.positional
-/
import BackupRestore.Decimal.Binary64

namespace BackupRestore

namespace Binary64

/-- The real numbers that round to a number, all over one denominator. -/
structure Interval where
  low : Nat
  value : Nat
  high : Nat
  den : Nat
  /-- The ends belong to the interval. -/
  isClosed : Bool
deriving Repr, Inhabited, DecidableEq

/-- The interval of a number above zero.  It reaches half way to its neighbours; the
one below a power of two is only half as far away. -/
def interval (b : Binary64) : Interval :=
  let below := if b.significand = leastFull ∧ -1074 < b.exponent then 1 else 2
  let (value, den) := scaleRatio (4 * b.significand) 1 2 (b.exponent - 2)
  let unit := (scaleRatio 1 1 2 (b.exponent - 2)).1
  { low := value - below * unit
    value
    high := value + 2 * unit
    den
    isClosed := b.significand % 2 = 0 }

namespace Interval

/-- A quotient lies in the interval. -/
def contains (i : Interval) (num den : Nat) : Bool :=
  if i.isClosed then i.low * den ≤ num * i.den && num * i.den ≤ i.high * den
  else i.low * den < num * i.den && num * i.den < i.high * den

/-- The multiple of a power of ten in the interval that is nearest to the value, if
there is one; of two that are equally near, the greater one. -/
def onGrid? (i : Interval) (exponent : Int) : Option Decimal :=
  let (n, d) := scaleRatio i.value i.den 10 (-exponent)
  let lower := n / d
  let isIn (digits : Nat) : Bool :=
    let (num, den) := scaleRatio digits 1 10 exponent
    i.contains num den
  let isUpperNearer := d ≤ 2 * (n % d)
  if isIn lower && !(isIn (lower + 1) && isUpperNearer) then some ⟨lower, exponent⟩
  else if isIn (lower + 1) then some ⟨lower + 1, exponent⟩
  else none

end Interval

/-- How many decimal digits a number has; zero has none. -/
def digitCount (n : Nat) : Nat := if n = 0 then 0 else (Nat.toDigits 10 n).length

/-- The exponent of the greatest power of ten that is not above a quotient. -/
def floorLog10 (num den : Nat) : Int :=
  if den ≤ num then (digitCount (num / den) : Int) - 1
  else -(digitCount ((den + num - 1) / num - 1) : Int)

/-- The decimal number with the fewest digits that rounds to a number, and of those
the nearest to it.  Seventeen digits are always enough. -/
def shortest (b : Binary64) : Decimal :=
  if b.significand = 0 then ⟨0, 0⟩
  else
    let i := b.interval
    let top := floorLog10 i.value i.den
    ((List.range 17).findSome? fun more : Nat => i.onGrid? (top - more)).getD ⟨0, 0⟩

end Binary64

namespace Decimal

/-- The number without zeros at its end, as far as it has a fraction. -/
def dropZeros : (fuel : Nat) → Decimal → Decimal
  | 0, d => d
  | fuel + 1, d =>
      if d.exponent < 0 ∧ d.digits % 10 = 0 then dropZeros fuel ⟨d.digits / 10, d.exponent + 1⟩
      else d

/-- The number without an exponent, with at least one digit on either side of the
point. -/
def positional (d : Decimal) : String :=
  let d := dropZeros d.exponent.natAbs d
  let digits := Nat.toDigits 10 d.digits
  if 0 ≤ d.exponent then
    String.ofList (digits ++ List.replicate (if d.digits = 0 then 0 else d.exponent.toNat) '0')
      ++ ".0"
  else
    let places := (-d.exponent).toNat
    let padded := List.replicate (places + 1 - digits.length) '0' ++ digits
    let whole := padded.length - places
    String.ofList (padded.take whole) ++ "." ++ String.ofList (padded.drop whole)

end Decimal

end BackupRestore
