/-!
Finite double-precision numbers as exact fractions. A magnitude is `mantissa * 2 ^ exponent` units
of `2 ^ -1074`, and the pair is unique; every operation rounds its exact result to the nearest
number, a tie to the even mantissa.
-/

namespace StakeLedger

structure Binary64 where
  negative : Bool
  mantissa : Nat
  exponent : Nat
  bounded : mantissa < 0x20000000000000 ∧ exponent ≤ 2045 ∧ (exponent = 0 ∨ 0x10000000000000 ≤ mantissa)
  deriving DecidableEq, Repr

namespace Binary64

def unit : Nat := Nat.pow 2 1074

def zero (negative : Bool) : Binary64 := ⟨negative, 0, 0, by decide⟩

instance : Inhabited Binary64 := ⟨zero false⟩

def isZero (x : Binary64) : Bool := x.mantissa == 0

def units (x : Binary64) : Nat := x.mantissa * Nat.pow 2 x.exponent

/-- The quotient rounded to the nearest integer, a tie to the even one. -/
def roundQuotient (num den : Nat) : Nat :=
  let q := num / den
  let twice := 2 * (num % den)
  if den < twice ∨ (twice = den ∧ q % 2 = 1) then q + 1 else q

def ofParts? (negative : Bool) (mantissa exponent : Nat) : Option Binary64 :=
  if h : mantissa < 0x20000000000000 ∧ exponent ≤ 2045 ∧ (exponent = 0 ∨ 0x10000000000000 ≤ mantissa) then
    some ⟨negative, mantissa, exponent, h⟩
  else none

def ofUnits? (negative : Bool) (num den : Nat) : Option Binary64 :=
  let exponent := (num / den).log2 - 52
  let mantissa := roundQuotient num (den * Nat.pow 2 exponent)
  if mantissa = 0x20000000000000 then ofParts? negative (0x10000000000000) (exponent + 1)
  else ofParts? negative mantissa exponent

def ofNat? (n : Nat) : Option Binary64 := ofUnits? false (n * unit) 1

def neg (x : Binary64) : Binary64 := { x with negative := !x.negative }

def mul? (x y : Binary64) : Option Binary64 :=
  ofUnits? (x.negative != y.negative) (x.units * y.units) unit

def div? (x y : Binary64) : Option Binary64 :=
  ofUnits? (x.negative != y.negative) (x.units * unit) y.units

def powerOfTen? (n : Nat) : Option Binary64 := ofNat? (Nat.pow 10 n)

def bits (x : Binary64) : UInt64 :=
  let sign := if x.negative then 0x8000000000000000 else 0
  let magnitude :=
    if x.mantissa < 0x10000000000000 then x.mantissa else (x.exponent + 1) * 0x10000000000000 + (x.mantissa - 0x10000000000000)
  UInt64.ofNat (sign + magnitude)

end Binary64

end StakeLedger
