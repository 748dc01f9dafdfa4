import StakeLedger.Application.Basic

namespace StakeLedger.Application

open Platform

inductive BootError
  | state (e : StateError)
  | staking (e : Staking.BootError)
  | query (e : Query.Error)
  | platform (e : Platform.Error)
  deriving DecidableEq, Repr

def BootError.message : BootError → String
  | .state e => e.message
  | .staking e => "staking bootstrap failed: " ++ e.message
  | .query e => e.message
  | .platform e => "platform authorization failed: " ++ e.message

structure Settings where
  directory : Path
  entropyInterval : UInt64
  beaconAddress : Option String
  staking : Staking.Settings

variable {σ : Type}

/-- The staking parameters of a genesis document; malformed ones count as none. -/
def genesisStaking (genesis : Genesis) : Option Staking.Params :=
  match genesis.applicationParams with
  | .ok params => params.staking
  | .error _ => none

/-- The views are loaded first, then the routes are set up, then staking starts. -/
def bootstrap (settings : Settings) (genesis : Genesis) (disk : Disk)
    (probe : Query.Probe σ) (source : Option (Staking.Source σ)) (effects : Effects) :
    Session σ (Except BootError (Application σ)) :=
  let idle := Staking.Pipeline.disabled .empty
  let store : Store := ⟨settings.directory⟩
  match Application.new (σ := σ) genesis store disk settings.entropyInterval idle [] effects with
  | .error e => return .error (.state e)
  | .ok app =>
    let beacon : Option (Query.Beacon σ) :=
      source.bind fun source => settings.beaconAddress.map fun address => ⟨source.service, address⟩
    match Query.Router.withDefaults probe beacon with
    | .error e => return .error (.query e)
    | .ok router => do
      match ← Staking.start settings.staking (genesisStaking genesis) source with
      | .error e => return .error (.staking e)
      | .ok none => return .ok { app with router }
      | .ok (some flow) => return .ok { app with router, staking := .ofFlow flow }

end StakeLedger.Application
