import StakeLedger.Number.Binary64

/-!
The shortest decimal that reads back as a given number: among the decimals of fewest digits that
round to it the nearest, a tie going to the even digit.
-/

namespace StakeLedger.Shortest

/-- `digits * 10 ^ scale`. -/
structure Decimal where
  digits : Nat
  scale : Int
  deriving DecidableEq, Repr

def Decimal.trim : Nat → Decimal → Decimal
  | 0, d => d
  | n + 1, d =>
    if d.digits % 10 = 0 ∧ d.digits ≠ 0 then trim n ⟨d.digits / 10, d.scale + 1⟩ else d

structure Interval where
  low : Nat
  value : Nat
  high : Nat
  closed : Bool

/-- Below a power of two numbers lie twice as densely. -/
def interval (x : Binary64) : Interval :=
  let quarter := Nat.pow 2 x.exponent
  let below := if x.mantissa = 0x10000000000000 ∧ 0 < x.exponent then 1 else 2
  ⟨(4 * x.mantissa - below) * quarter, 4 * x.mantissa * quarter, (4 * x.mantissa + 2) * quarter,
    x.mantissa % 2 = 0⟩

def Interval.contains (i : Interval) (num den : Nat) : Bool :=
  if i.closed then i.low * den ≤ num && num ≤ i.high * den
  else i.low * den < num && num < i.high * den

def Interval.onGrid (i : Interval) (scale : Int) : Option Decimal :=
  let step := 4 * Binary64.unit * Nat.pow 10 scale.toNat
  let den := Nat.pow 10 (-scale).toNat
  let below := i.value * den / step
  let left := i.value * den - below * step
  let down := i.contains (below * step) den
  let up := i.contains ((below + 1) * step) den
  let downNearer := 2 * left < step || (2 * left == step && below % 2 == 0)
  if down && (downNearer || !up) then some ⟨below, scale⟩
  else if up then some ⟨below + 1, scale⟩
  else none

def Interval.leading (i : Interval) : Int :=
  (Nat.toDigits 10 (i.value * Nat.pow 10 400 / (4 * Binary64.unit))).length - 401

/-- Seventeen digits always suffice. -/
def decimal (x : Binary64) : Decimal :=
  let i := interval x
  let leading := i.leading
  let found := (List.range 17).findSome? fun (n : Nat) => i.onGrid (leading - n)
  (found.getD ⟨0, 0⟩).trim 17

structure Layout where
  least : Int
  greatest : Int

/-- A positional number always has a point; an exponent always has a sign. -/
def Layout.text (layout : Layout) (x : Binary64) : String :=
  let d := decimal x
  let digits := Nat.toDigits 10 d.digits
  let leading := d.scale + digits.length - 1
  let magnitude : List Char :=
    if x.isZero then ['0', '.', '0']
    else if leading < layout.least ∨ layout.greatest < leading then
      digits.take 1 ++ (if digits.length = 1 then [] else '.' :: digits.drop 1)
        ++ 'e' :: (if leading < 0 then '-' else '+') :: Nat.toDigits 10 leading.natAbs
    else if leading < 0 then '0' :: '.' :: List.replicate (-leading - 1).toNat '0' ++ digits
    else if 0 ≤ d.scale then digits ++ List.replicate d.scale.toNat '0' ++ ['.', '0']
    else digits.take (leading + 1).toNat ++ '.' :: digits.drop (leading + 1).toNat
  .ofList (if x.negative then '-' :: magnitude else magnitude)

end StakeLedger.Shortest
