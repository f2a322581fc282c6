/-
Module: BackupRestore.Decimal.Binary64
Purpose: Decimal numbers, and the numbers of 53 bits that are nearest to them.
Main exports: Decimal, Binary64, roundRatio, Decimal.nearest?
-/

namespace BackupRestore

/-- The number `digits * 10 ^ exponent`. -/
structure Decimal where
  digits : Nat
  exponent : Int := 0
deriving Repr, Inhabited, DecidableEq

/-- The number `significand * 2 ^ exponent`.  The numbers of the format have a
significand below `2 ^ 53` and an exponent from -1074 to 971; above the least
exponent the significand is at least `2 ^ 52`. -/
structure Binary64 where
  significand : Nat
  exponent : Int
deriving Repr, Inhabited, DecidableEq

/-- A quotient, rounded to the nearest whole number; a half goes to the even one. -/
def roundRatio (num den : Nat) : Nat :=
  let quotient := num / den
  let rest := 2 * (num % den)
  if den < rest ∨ (rest = den ∧ quotient % 2 = 1) then quotient + 1 else quotient

/-- A quotient `num / den` times a power of a base, as a quotient. -/
def scaleRatio (num den base : Nat) (exponent : Int) : Nat × Nat :=
  if 0 ≤ exponent then (num * Nat.pow base exponent.toNat, den)
  else (num, den * Nat.pow base (-exponent).toNat)

/-- The exponent of the greatest power of two that is not above a quotient. -/
def floorLog2 (num den : Nat) : Int :=
  let guess : Int := (Nat.log2 num : Int) - (Nat.log2 den : Int)
  let (n, d) := scaleRatio num den 2 (-guess)
  if d ≤ n then guess else guess - 1

namespace Binary64

/-- The least significand of 53 bits. -/
def leastFull : Nat := 0x10000000000000

/-- Zero. -/
def zero : Binary64 := ⟨0, -1074⟩

/-- The number that is nearest to a quotient above zero, unless it is too large. -/
def ofRatio? (num den : Nat) : Option Binary64 :=
  let exponent := max (-1074) (floorLog2 num den - 52)
  let (n, d) := scaleRatio num den 2 (-exponent)
  let significand := roundRatio n d
  let rounded : Binary64 :=
    if significand = 2 * leastFull then ⟨leastFull, exponent + 1⟩ else ⟨significand, exponent⟩
  if 971 < rounded.exponent then none else some rounded

end Binary64

namespace Decimal

/-- The nearest number of the format, unless the number is too large for it.  A
power of ten lies between those of eight and of sixteen with its exponent, so a
number far outside the format is told by its exponent alone. -/
def nearest? (d : Decimal) : Option Binary64 :=
  let bits : Int := Nat.log2 d.digits
  if d.digits = 0 then some .zero
  else if 0 < d.exponent ∧ 1100 < bits + 3 * d.exponent then none
  else if d.exponent < 0 ∧ bits + 3 * d.exponent < -1200 then some .zero
  else
    let (num, den) := scaleRatio d.digits 1 10 d.exponent
    Binary64.ofRatio? num den

end Decimal

end BackupRestore
