import StakeLedger.Config.Basic

namespace StakeLedger.Config

structure Override where
  name : String
  apply : String → Config → Except Fault Config

def readInteger (range : Decimal.Range) (text : String) : Except Fault Nat :=
  match Decimal.parse range text.toList with
  | .ok n => .ok n.toNat
  | .error fault => .error (.integer fault)

def overrides : List Override := [
  ⟨"BASELEDGER_CHAIN_ID", fun v c => .ok { c with node := { c.node with chainId := v } }⟩,
  ⟨"BASELEDGER_LOG_LEVEL", fun v c => .ok { c with node := { c.node with logLevel := v } }⟩,
  ⟨"BASELEDGER_GENESIS_URL", fun v c =>
    .ok { c with node := { c.node with genesisUrl := some v } }⟩,
  ⟨"BASELEDGER_GENESIS_STATE_URL", fun v c =>
    .ok { c with node := { c.node with genesisStateUrl := some v } }⟩,
  ⟨"BASELEDGER_GENESIS_TIMESTAMP", fun v c =>
    .ok { c with node := { c.node with genesisTime := some v } }⟩,
  ⟨"BASELEDGER_STAKING_NETWORK", fun v c =>
    .ok { c with staking := { c.staking with network := some v } }⟩,
  ⟨"BASELEDGER_STAKING_CONTRACT_ADDRESS", fun v c =>
    .ok { c with staking := { c.staking with contractAddress := some v } }⟩,
  ⟨"BASELEDGER_ENTROPY_CONTRACT_ADDRESS", fun v c =>
    .ok { c with entropy := { c.entropy with contractAddress := some v } }⟩,
  ⟨"BASELEDGER_ENTROPY_INTERVAL", fun v c =>
    (readInteger Decimal.uint64 v).map fun n =>
      { c with entropy := { c.entropy with interval := .ofNat n } }⟩,
  ⟨"BASELEDGER_RPC_PORT", fun v c =>
    (readInteger Decimal.uint16 v).map fun n =>
      { c with node := { c.node with rpcPort := .ofNat n } }⟩,
  ⟨"PROVIDE_REFRESH_TOKEN", fun v c =>
    .ok { c with platform := { c.platform with refreshToken := some v } }⟩]

/-- Overrides in order up to the first that is refused; those before it stay applied. -/
def applyAll (lookup : String → Option String) (c : Config) :
    List Override → Config × Option Error
  | [] => (c, none)
  | o :: rest =>
    match lookup o.name with
    | none => applyAll lookup c rest
    | some value =>
      match o.apply value c with
      | .ok c => applyAll lookup c rest
      | .error fault => (c, some ⟨o.name, value, fault⟩)

def applyEnvironment (c : Config) (lookup : String → Option String) : Config × Option Error :=
  applyAll lookup c overrides

/-- Variables of a process; one that is set to nothing counts as unset. -/
def applyProcess (c : Config) (lookup : String → Option String) : Config × Option Error :=
  c.applyEnvironment fun name => (lookup name).filter (!·.isEmpty)

end StakeLedger.Config
