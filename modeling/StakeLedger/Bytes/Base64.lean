import StakeLedger.Bytes.Basic

/-!
Base64 with the standard alphabet. The written form is the only one that is read: padding is
required and the bits that no byte uses are zero.
-/

namespace StakeLedger.Base64

def alphabet : List Char :=
  "ABCDEFGHIJKLMNOPQRSTUVWXYZabcdefghijklmnopqrstuvwxyz0123456789+/".toList

def letter (n : Nat) : Char := alphabet.getD n 'A'

def sextet? (c : Char) : Option Nat :=
  let n := c.toNat
  if 65 ≤ n ∧ n ≤ 90 then some (n - 65)
  else if 97 ≤ n ∧ n ≤ 122 then some (n - 71)
  else if 48 ≤ n ∧ n ≤ 57 then some (n + 4)
  else if c = '+' then some 62
  else if c = '/' then some 63
  else none

def encodeGroup : Bytes → List Char
  | [a] => [letter (a.toNat / 4), letter (a.toNat % 4 * 16), '=', '=']
  | [a, b] =>
    [letter (a.toNat / 4), letter (a.toNat % 4 * 16 + b.toNat / 16), letter (b.toNat % 16 * 4), '=']
  | [a, b, c] =>
    [letter (a.toNat / 4), letter (a.toNat % 4 * 16 + b.toNat / 16),
      letter (b.toNat % 16 * 4 + c.toNat / 64), letter (c.toNat % 64)]
  | _ => []

def encode (bs : Bytes) : String := .ofList ((groups 3 bs).flatMap encodeGroup)

inductive Reading
  | letters (sextets : List Nat) (bytes : Bytes)
  | padding (bytes : Bytes)
  | finished (bytes : Bytes)
  | refused

def Reading.step : Reading → Char → Reading
  | .letters sextets bytes, c =>
    match sextets, sextet? c with
    | [x, y, z], some w =>
      .letters [] (UInt8.ofNat (z % 4 * 64 + w) :: UInt8.ofNat (y % 16 * 16 + z / 4)
        :: UInt8.ofNat (x * 4 + y / 16) :: bytes)
    | _, some w => .letters (sextets ++ [w]) bytes
    | [x, y], none =>
      if c = '=' ∧ y % 16 = 0 then .padding (UInt8.ofNat (x * 4 + y / 16) :: bytes) else .refused
    | [x, y, z], none =>
      if c = '=' ∧ z % 4 = 0 then
        .finished (UInt8.ofNat (y % 16 * 16 + z / 4) :: UInt8.ofNat (x * 4 + y / 16) :: bytes)
      else .refused
    | _, none => .refused
  | .padding bytes, c => if c = '=' then .finished bytes else .refused
  | .finished _, _ => .refused
  | .refused, _ => .refused

def Reading.bytes? : Reading → Option Bytes
  | .letters [] bytes | .finished bytes => some bytes.reverse
  | _ => none

def decode (text : List Char) : Option Bytes :=
  (text.foldl Reading.step (.letters [] [])).bytes?

end StakeLedger.Base64
