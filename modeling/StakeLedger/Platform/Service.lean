import StakeLedger.Platform.Contract
import StakeLedger.Session

namespace StakeLedger.Platform

inductive Call
  | find (address : String)
  | create (contract : NewContract)
  | vend (address : String)
  | execute (address method : String) (params : List Opaque)
  deriving DecidableEq, Repr

/-- A look-up answers nothing for a contract that is unknown, a vend answers a bearer, and an
execution the bytes of its result. -/
@[reducible] def Call.Answer : Call → Type
  | .find _ => Option Contract
  | .create _ => Contract
  | .vend _ => String
  | .execute .. => Bytes

def readMethod : String := "randomResult"

def advanceMethod : String := "getRandomNumber"

/-- A service and its own state. A call may never be answered. -/
structure Service (σ : Type) where
  call : (c : Call) → σ → Option (Except Error c.Answer) × σ

def Service.recording {σ : Type} (service : Service σ) : Service (σ × List Call) where
  call c := fun (s, calls) =>
    let (answer, s) := service.call c s
    (answer, (s, calls ++ [c]))

def Service.ask {σ : Type} (service : Service σ) (c : Call) : Session σ (Except Error c.Answer) :=
  OptionT.mk (service.call c)

end StakeLedger.Platform
