import StakeLedger.Bytes.Basic

/-! Hexadecimal text: two digits a byte. Either case is read. -/

namespace StakeLedger.Hex

def lowerDigits : List Char := "0123456789abcdef".toList
def upperDigits : List Char := "0123456789ABCDEF".toList

def encodeWith (digits : List Char) (bs : Bytes) : String :=
  .ofList (bs.flatMap fun b =>
    [digits.getD (b.toNat / 16) '0', digits.getD (b.toNat % 16) '0'])

def encode (bs : Bytes) : String := encodeWith lowerDigits bs
def encodeUpper (bs : Bytes) : String := encodeWith upperDigits bs

def digit? (b : UInt8) : Option Nat :=
  let n := b.toNat
  if 48 ≤ n ∧ n ≤ 57 then some (n - 48)
  else if 65 ≤ n ∧ n ≤ 70 then some (n - 55)
  else if 97 ≤ n ∧ n ≤ 102 then some (n - 87)
  else none

inductive Fault
  | oddLength
  | notDigit (byte : UInt8) (index : Nat)
  deriving DecidableEq, Repr

/-- An odd length is reported before a byte that is no digit, and of those the first. -/
def decode (text : Bytes) : Except Fault Bytes :=
  if text.length % 2 = 1 then .error .oddLength
  else match text.zipIdx.find? (fun (b, _) => (digit? b).isNone) with
    | some (b, i) => .error (.notDigit b i)
    | none => .ok ((groups 2 (text.filterMap digit?)).map fun pair =>
        UInt8.ofNat (pair.foldl (fun n d => 16 * n + d) 0))

end StakeLedger.Hex
