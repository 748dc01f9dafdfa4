import StakeLedger.State.Basic

/-! Transactions, whose content is opaque, and the policies that give them effect. -/

namespace StakeLedger

inductive TxError
  | empty
  | rejected (reason : String)
  deriving DecidableEq, Repr

namespace TxError

def message : TxError → String
  | .empty => "empty transaction payload"
  | .rejected reason => "transaction rejected: " ++ reason

def code : TxError → UInt32
  | .empty => 1
  | .rejected _ => 2

end TxError

/-- A transaction carries at least one byte. -/
structure Transaction where
  raw : Bytes
  nonempty : raw ≠ []
  deriving DecidableEq, Repr

namespace Transaction

def decode (raw : Bytes) : Except TxError Transaction :=
  if h : raw = [] then .error .empty else .ok ⟨raw, h⟩

def gasWanted (_ : Transaction) : Int64 := 0

end Transaction

/-- What a delivered transaction does to the view it is delivered to. An error may leave changes
behind. -/
abbrev Effects := State → Transaction → State × Option TxError

/-- Every transaction is accepted and changes nothing. -/
def Effects.none : Effects := fun state _ => (state, Option.none)

end StakeLedger
