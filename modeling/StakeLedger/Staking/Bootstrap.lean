import StakeLedger.Platform.Service
import StakeLedger.Staking.Pipeline
import StakeLedger.Staking.Target

namespace StakeLedger.Staking

open Platform

inductive BootError
  | network (e : NetworkError)
  | platform (e : Platform.Error)
  | missingArtifact (address : String)
  deriving DecidableEq, Repr

def BootError.message : BootError → String
  | .network e => e.message
  | .platform e => e.message
  | .missingArtifact address => "no compiled staking contract available to register " ++ address

def registration (target : Target) (params : Params) (contract : Opaque) : NewContract :=
  let argv := match params.deployment target.network with
    | .ok d => d.argv
    | .error _ => []
  { address := target.address
    name := params.contractName.getD "Staking"
    networkId := target.networkId
    params := .ofJson (.record [
      ("argv", .list (argv.map Opaque.value)), ("compiled_artifact", contract.value)]) }

variable {σ : Type}

/-- The contract at the target's address. One that the platform does not know, or fails to find, is
registered from the genesis document. -/
def requireContract (service : Service σ) (target : Target) (genesis : Option Params) :
    Session σ (Except BootError Contract) := do
  match ← service.ask (.find target.address) with
  | .ok (some contract) => return .ok contract
  | _ =>
    match genesis with
    | none => return .error (.missingArtifact target.address)
    | some params =>
      match params.contract with
      | none => return .error (.missingArtifact target.address)
      | some artifact =>
        match ← service.ask (.create (registration target params artifact)) with
        | .ok contract => return .ok contract
        | .error e => return .error (.platform e)

abbrev Subscribe := String → Option String → Except Platform.Error Flow

def credentials (service : Service σ) (target : Target) (genesis : Option Params) :
    Session σ (Except BootError (Option String)) := do
  match ← requireContract service target genesis with
  | .error e => return .error e
  | .ok contract =>
    match ← service.ask (.vend contract.address) with
    | .ok bearer => return .ok (some bearer)
    | .error _ => return .ok none

structure Source (σ : Type) where
  service : Service σ
  subscribe : String → Option String → Session σ (Except Platform.Error Flow)

def start (settings : Settings) (genesis : Option Params) (source : Option (Source σ)) :
    Session σ (Except BootError (Option Flow)) :=
  match source with
  | none => return .ok none
  | some source =>
    match Target.resolve settings genesis with
    | .error e => return .error (.network e)
    | .ok none => return .ok none
    | .ok (some target) => do
      match ← credentials source.service target genesis with
      | .error e => return .error e
      | .ok bearer =>
        match ← source.subscribe target.subject bearer with
        | .ok flow => return .ok (some flow)
        | .error e => return .error (.platform e)

def Flow.subscribe (feed : Feed) : Subscribe := fun subject _ =>
  (feed.subscribe subject).map fun (channel, feed) => ⟨feed, { channel, subject }⟩

end StakeLedger.Staking
