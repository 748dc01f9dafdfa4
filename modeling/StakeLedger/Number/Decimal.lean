/-!
Integers as decimal text: an optional sign and at least one ASCII digit. A minus sign is read only
where the range reaches below zero.
-/

namespace StakeLedger.Decimal

inductive Fault
  | empty
  | notDigit
  | tooLarge
  | tooSmall
  deriving DecidableEq, Repr

def Fault.message : Fault → String
  | .empty => "cannot parse integer from empty string"
  | .notDigit => "invalid digit found in string"
  | .tooLarge => "number too large to fit in target type"
  | .tooSmall => "number too small to fit in target type"

/-- The range of the integers that are read; `low` is not above zero. -/
structure Range where
  low : Int
  high : Int

def int64 : Range := ⟨-0x8000000000000000, 0x8000000000000000 - 1⟩
def uint64 : Range := ⟨0, 0x10000000000000000 - 1⟩
def uint16 : Range := ⟨0, 0x10000 - 1⟩

/-- One digit more. A number that has left the range stays outside, so reading stops there. -/
def pushDigit (r : Range) (negative : Bool) (n : Int) (c : Char) : Except Fault Int :=
  if ¬ c.isDigit then .error .notDigit
  else
    let digit : Int := c.toNat - 48
    let next := if negative then 10 * n - digit else 10 * n + digit
    if r.high < next then .error .tooLarge
    else if next < r.low then .error .tooSmall
    else .ok next

def parseDigits (r : Range) (negative : Bool) (cs : List Char) : Except Fault Int :=
  if cs.isEmpty then .error .notDigit else cs.foldlM (pushDigit r negative) 0

def parse (r : Range) (cs : List Char) : Except Fault Int :=
  match cs with
  | [] => .error .empty
  | c :: rest =>
    if c = '+' then parseDigits r false rest
    else if c = '-' ∧ r.low < 0 then parseDigits r true rest
    else parseDigits r false cs

end StakeLedger.Decimal
