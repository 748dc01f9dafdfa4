import StakeLedger.Query.Router

namespace StakeLedger.Query

open Engine Platform

variable {σ : Type}

def peerFilterPattern : String := "^/p2p/filter/addr/(.*)$"
def entropyFetchPattern : String := "^/baseline/entropy/fetch/(.*)$"

/-- The address of a peer without the identity before it, which ends at the last `@`. -/
def peerTarget (peer : String) : String :=
  .ofList ((peer.toList.reverse.takeWhile (· ≠ '@')).reverse)

abbrev Probe (σ : Type) := String → Session σ Bool

def isReachable (probe : Probe σ) (peer : String) : Session σ Bool := probe (peerTarget peer)

def peerFilter (probe : Probe σ) : Handler σ := fun peer request => do
  return .ok ⟨if ← isReachable probe peer then 0 else 1, "", [], request.height⟩

structure Beacon (σ : Type) where
  service : Service σ
  address : String

/-- The present value is read, then the contract is asked for the next one, whatever comes of it. -/
def entropyFetch (beacon : Option (Beacon σ)) : Handler σ := fun _ request =>
  match beacon with
  | none => return .error (.entropyUnavailable "no entropy contract configured")
  | some b => do
    match ← b.service.ask (.execute b.address readMethod []) with
    | .error e => return .error (.entropyUnavailable e.message)
    | .ok value =>
      discard <| b.service.ask (.execute b.address advanceMethod [])
      return .ok ⟨0, "", value, request.height⟩

def Router.withDefaults (probe : Probe σ) (beacon : Option (Beacon σ)) :
    Except Error (Router σ) := do
  let router ← Router.register [] peerFilterPattern (peerFilter probe)
  router.register entropyFetchPattern (entropyFetch beacon)

end StakeLedger.Query
