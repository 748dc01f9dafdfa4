import StakeLedger.Number.Shortest

/-!
Numbers of a document: integers that fit into 64 bits, signed or unsigned, stay exact; all others
are doubles.
-/

namespace StakeLedger.Json

inductive Number
  | whole (n : Int) (bounded : -0x8000000000000000 ≤ n ∧ n < 0x10000000000000000)
  | double (x : Binary64)
  deriving DecidableEq, Repr

structure Literal where
  negative : Bool
  whole : List Nat
  fraction : Option (List Nat)
  exponent : Option (Bool × List Nat)
  deriving DecidableEq, Repr

namespace Number

def ofInt? (n : Int) : Option Number :=
  if h : -0x8000000000000000 ≤ n ∧ n < 0x10000000000000000 then some (.whole n h) else none

def ofUInt64 (n : UInt64) : Number :=
  .whole n.toNat ⟨by omega, by have := n.toNat_lt; omega⟩

def ofInt64 (n : Int64) : Number :=
  .whole n.toInt ⟨Int64.le_toInt n, by have := Int64.toInt_lt n; omega⟩

instance : Inhabited Number := ⟨ofUInt64 0⟩

structure Significand where
  value : Nat
  taken : Nat
  dropped : Nat

def Significand.push (s : Significand) (digit : Nat) : Significand :=
  if s.dropped = 0 ∧ s.value * 10 + digit < 0x10000000000000000 then ⟨s.value * 10 + digit, s.taken + 1, 0⟩
  else { s with dropped := s.dropped + 1 }

/-- Repeated division keeps every factor within the range of doubles. -/
def scaleDown (x : Binary64) (steps : Nat) : Option Binary64 :=
  if x.isZero then some x
  else if h : 308 < steps then
    ((Binary64.powerOfTen? 308).bind x.div?).bind fun y => scaleDown y (steps - 308)
  else (Binary64.powerOfTen? steps).bind x.div?
termination_by steps
decreasing_by exact Nat.sub_lt (Nat.lt_trans (by decide) h) (by decide)

def scaled? (significand : Nat) (exponent : Int) : Option Binary64 := do
  let x ← Binary64.ofNat? significand
  if exponent < 0 then scaleDown x exponent.natAbs
  else if exponent ≤ 308 then x.mul? (← Binary64.powerOfTen? exponent.toNat)
  else if x.isZero then some x
  else none

/-- An exponent beyond 31 bits makes the number zero or too large. -/
def literalMagnitude? (significand : Nat) (scale : Int) (exponent : Option (Bool × List Nat)) :
    Option Binary64 :=
  match exponent with
  | none => scaled? significand scale
  | some (negative, digits) =>
    let n : Nat := digits.foldl (fun n d => if 0x80000000 ≤ n then n else 10 * n + d) 0
    if 0x80000000 ≤ n then
      if significand ≠ 0 ∧ !negative then none else some (Binary64.zero false)
    else scaled? significand (if negative then scale - (n : Int) else scale + (n : Int))

def ofLiteral? (l : Literal) : Option Number :=
  let lead := l.whole.foldl Significand.push ⟨0, 0, 0⟩
  let sign (x : Binary64) : Number := .double { x with negative := l.negative }
  match l.fraction, l.exponent with
  | none, none =>
    let n : Int := if l.negative then -lead.value else lead.value
    if lead.dropped = 0 ∧ ¬ (l.negative ∧ lead.value = 0) then
      match ofInt? n with
      | some number => some number
      | none => (scaled? lead.value 0).map sign
    else (scaled? lead.value lead.dropped).map sign
  | fraction, exponent =>
    let all := (fraction.getD []).foldl Significand.push ⟨lead.value, 0, 0⟩
    (literalMagnitude? all.value ((lead.dropped : Int) - all.taken) exponent).map sign

/-- Doubles are positional from `0.00001` to below `1e16`. -/
def layout : Shortest.Layout := ⟨-5, 15⟩

def text : Number → String
  | .whole n _ => toString n
  | .double x => layout.text x

end Number

end StakeLedger.Json
