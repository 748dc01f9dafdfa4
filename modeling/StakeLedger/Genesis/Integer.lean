import StakeLedger.Json.Opaque
import StakeLedger.Number.Decimal
import StakeLedger.Text.Blank

/-! Integers of a genesis document: plain numbers, or the same in a string with blanks around it. -/

namespace StakeLedger.Genesis

open Json

def integerOfText? (s : String) : Option Int64 :=
  match Decimal.parse Decimal.int64 (Text.trimBlanks s.toList) with
  | .ok n => some (.ofInt n)
  | .error _ => none

def integerOfValue? : Json → Option Int64
  | .number (.whole n _) => Codec.int64? n
  | .text s => integerOfText? s
  | _ => none

/-- A value is read as a whole before its kind counts. -/
def integer : Codec Int64 where
  write := Json.ofInt64
  read room t := do
    let x ← Opaque.read room t
    match integerOfValue? x.value with
    | some n => .ok n
    | none => .error .mismatched

end StakeLedger.Genesis
