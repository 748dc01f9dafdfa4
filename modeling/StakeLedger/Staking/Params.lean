import StakeLedger.Json.Opaque
import StakeLedger.Json.Record

/-! Which contract governs staking and where it is deployed, as the genesis application state says. -/

namespace StakeLedger.Staking

open Json

inductive NetworkError
  | unrecognized (network : String)
  | missing (network : String)
  deriving DecidableEq, Repr

def NetworkError.message : NetworkError → String
  | .unrecognized network => "unrecognized staking network: " ++ network
  | .missing network => "no parameters configured for staking network: " ++ network

def ropsten : String := "ropsten"

def platformNetworkId (network : String) : Except NetworkError String :=
  if network = ropsten then .ok "66d44f30-9092-4182-a3c4-bc02736d6ae5"
  else .error (.unrecognized network)

structure Deployment where
  address : Option String := none
  argv : List Opaque := []
  deriving DecidableEq, Inhabited, Repr

def optionalField {α : Type} (name : String) (c : Codec α) : Json.Field (Option α) :=
  ⟨name, .optional c, some none, some none, Option.isNone⟩

def Deployment.codec : Codec Deployment :=
  .record
    (.cons (optionalField "address" .text) <|
      .cons (.orElse "argv" (.list .opaqueValue) []) .nil)
    (fun (address, argv, _) => ⟨address, argv⟩)
    (fun d => (d.address, d.argv, ()))

structure Networks where
  ropsten : Option Deployment := none
  deriving DecidableEq, Inhabited, Repr

def Networks.codec : Codec Networks :=
  .record
    (.cons (optionalField "ropsten" Deployment.codec) .nil)
    (fun (ropsten, _) => ⟨ropsten⟩)
    (fun n => (n.ropsten, ()))

def Networks.deployment (n : Networks) (network : String) : Except NetworkError Deployment :=
  if network = Staking.ropsten then
    match n.ropsten with
    | some d => .ok d
    | none => .error (.missing network)
  else .error (.unrecognized network)

/-- The compiled contract is opaque; it is only handed on when the contract has to be registered. -/
structure Params where
  contract : Option Opaque := none
  networks : Option Networks := none
  deriving DecidableEq, Inhabited, Repr

namespace Params

def codec : Codec Params :=
  .record
    (.cons (optionalField "contract" .opaqueValue) <|
      .cons (optionalField "network" Networks.codec) .nil)
    (fun (contract, networks, _) => ⟨contract, networks⟩)
    (fun p => (p.contract, p.networks, ()))

def contractName (p : Params) : Option String := do
  let contract ← p.contract
  let name ← contract.value.get? "name"
  name.text?

def deployment (p : Params) (network : String) : Except NetworkError Deployment :=
  match p.networks with
  | some n => n.deployment network
  | none => .error (.missing network)

end Params

structure ApplicationParams where
  staking : Option Params := none
  deriving DecidableEq, Inhabited, Repr

def ApplicationParams.codec : Codec ApplicationParams :=
  .record
    (.cons (.orElse "staking" (.optional Params.codec) none) .nil)
    (fun (staking, _) => ⟨staking⟩)
    (fun p => (p.staking, ()))

end StakeLedger.Staking
