import StakeLedger.Bytes.Utf8
import StakeLedger.Json.Codec
import StakeLedger.Session

namespace StakeLedger.Network

structure Request where
  method : String
  url : String
  bearer : Option String := none
  body : Option Json := none
  deriving Repr

structure Reply where
  status : Nat
  body : Bytes
  deriving DecidableEq, Repr

def Reply.isSuccess (r : Reply) : Bool := 200 ≤ r.status && r.status < 300

def Reply.text (r : Reply) : String := Utf8.replacing r.body

structure Link (σ : Type) where
  send : Request → Session σ (Option Reply)
  reaches : String → Session σ Bool

end StakeLedger.Network
