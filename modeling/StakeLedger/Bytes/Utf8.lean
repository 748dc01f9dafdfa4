import StakeLedger.Bytes.Basic

/-!
UTF-8 read as a state machine. Bytes that belong to no well-formed character are kept as breaks, one
for each character that is begun and not ended or cannot begin, so that a reader can say where a text
stops being one.
-/

namespace StakeLedger.Utf8

structure Partial where
  code : Nat
  missing : Nat
  low : UInt8
  high : UInt8

structure Reader where
  begun : Option Partial
  out : List (Option Char)

def first? (b : UInt8) : Option Partial :=
  if 0xC2 ≤ b ∧ b ≤ 0xDF then some ⟨b.toNat % 32, 1, 0x80, 0xBF⟩
  else if b = 0xE0 then some ⟨0, 2, 0xA0, 0xBF⟩
  else if b = 0xED then some ⟨13, 2, 0x80, 0x9F⟩
  else if 0xE1 ≤ b ∧ b ≤ 0xEF then some ⟨b.toNat % 16, 2, 0x80, 0xBF⟩
  else if b = 0xF0 then some ⟨0, 3, 0x90, 0xBF⟩
  else if 0xF1 ≤ b ∧ b ≤ 0xF3 then some ⟨b.toNat % 8, 3, 0x80, 0xBF⟩
  else if b = 0xF4 then some ⟨4, 3, 0x80, 0x8F⟩
  else none

def start (out : List (Option Char)) (b : UInt8) : Reader :=
  if b < 0x80 then ⟨none, some (Char.ofNat b.toNat) :: out⟩
  else match first? b with
    | some p => ⟨some p, out⟩
    | none => ⟨none, none :: out⟩

def Reader.step (r : Reader) (b : UInt8) : Reader :=
  match r.begun with
  | none => start r.out b
  | some p =>
    if p.low ≤ b ∧ b ≤ p.high then
      let code := p.code * 64 + b.toNat % 64
      if p.missing ≤ 1 then ⟨none, some (Char.ofNat code) :: r.out⟩
      else ⟨some ⟨code, p.missing - 1, 0x80, 0xBF⟩, r.out⟩
    else start (none :: r.out) b

def Reader.finish (r : Reader) : List (Option Char) :=
  match r.begun with
  | none => r.out.reverse
  | some _ => (none :: r.out).reverse

def decode (bs : Bytes) : List (Option Char) := (bs.foldl Reader.step ⟨none, []⟩).finish

def text? (bs : Bytes) : Option String :=
  let cs := decode bs
  if cs.all Option.isSome then some (.ofList (cs.filterMap id)) else none

def replacing (bs : Bytes) : String := .ofList ((decode bs).map (·.getD '\uFFFD'))

end StakeLedger.Utf8
