import StakeLedger.Staking.Params

namespace StakeLedger.Staking

structure Settings where
  network : Option String := none
  contractAddress : Option String := none
  deriving DecidableEq, Inhabited, Repr

structure Target where
  network : String
  networkId : String
  address : String
  deriving DecidableEq, Inhabited, Repr

namespace Target

def subject (t : Target) : String := "network." ++ t.networkId ++ ".contracts." ++ t.address

def genesisAddress (genesis : Option Params) (network : String) :
    Except NetworkError (Option String) :=
  match genesis with
  | none => .ok none
  | some p =>
    if p.contract.isNone then .ok none
    else match p.deployment network with
      | .ok d => .ok d.address
      | .error (.missing _) => .ok none
      | .error (.unrecognized n) => .error (.unrecognized n)

/-- The settings come before the genesis document; without a network or an address there is no
target. -/
def resolve (settings : Settings) (genesis : Option Params) :
    Except NetworkError (Option Target) :=
  match settings.network with
  | none => .ok none
  | some network => do
    let address ← match settings.contractAddress with
      | some address => .ok (some address)
      | none => genesisAddress genesis network
    match address with
    | none => .ok none
    | some address => .ok (some ⟨network, ← platformNetworkId network, address⟩)

end Target

end StakeLedger.Staking
