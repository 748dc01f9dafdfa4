import StakeLedger.Engine.ConsensusParams
import StakeLedger.Genesis.Integer
import StakeLedger.Staking.Params
import StakeLedger.Validator.Basic

namespace StakeLedger

open Json

namespace Genesis

structure BlockParams where
  maxBytes : Int64 := 0
  maxGas : Int64 := 0
  timeIotaMs : Int64 := 0
  deriving DecidableEq, Inhabited, Repr

def BlockParams.codec : Codec BlockParams :=
  .record
    (.cons (.orElse "max_bytes" integer 0) <|
      .cons (.orElse "max_gas" integer 0) <|
      .cons (.orElse "time_iota_ms" integer 0) .nil)
    (fun (maxBytes, maxGas, timeIotaMs, _) => ⟨maxBytes, maxGas, timeIotaMs⟩)
    (fun p => (p.maxBytes, p.maxGas, p.timeIotaMs, ()))

structure EvidenceParams where
  maxAgeBlocks : Int64 := 0
  maxAgeNanoseconds : Int64 := 0
  maxBytes : Int64 := 0
  deriving DecidableEq, Inhabited, Repr

def EvidenceParams.codec : Codec EvidenceParams :=
  .record
    (.cons (.orElse "max_age_num_blocks" integer 0) <|
      .cons (.orElse "max_age_duration" integer 0) <|
      .cons (.orElse "max_bytes" integer 0) .nil)
    (fun (maxAgeBlocks, maxAgeNanoseconds, maxBytes, _) =>
      ⟨maxAgeBlocks, maxAgeNanoseconds, maxBytes⟩)
    (fun p => (p.maxAgeBlocks, p.maxAgeNanoseconds, p.maxBytes, ()))

structure VersionParams where
  appVersion : Int64 := 0
  deriving DecidableEq, Inhabited, Repr

def VersionParams.codec : Codec VersionParams :=
  .record
    (.cons (.orElse "app_version" integer 0) .nil)
    (fun (appVersion, _) => ⟨appVersion⟩)
    (fun p => (p.appVersion, ()))

structure ConsensusParams where
  block : BlockParams := {}
  evidence : EvidenceParams := {}
  validator : Engine.ValidatorParams := {}
  version : VersionParams := {}
  deriving DecidableEq, Inhabited, Repr

namespace ConsensusParams

def codec : Codec ConsensusParams :=
  .record
    (.cons (.orElse "block" BlockParams.codec {}) <|
      .cons (.orElse "evidence" EvidenceParams.codec {}) <|
      .cons (.orElse "validator" Engine.ValidatorParams.codec {}) <|
      .cons (.orElse "version" VersionParams.codec {}) .nil)
    (fun (block, evidence, validator, version, _) => ⟨block, evidence, validator, version⟩)
    (fun p => (p.block, p.evidence, p.validator, p.version, ()))

/-- Zero stands in for what is negative. -/
def natural (n : Int64) : UInt64 := .ofNat n.toInt.toNat

def appVersion (p : ConsensusParams) : UInt64 := natural p.version.appVersion

/-- The parameters as the engine is told them: ages in whole seconds, and no negative version. -/
def forEngine (p : ConsensusParams) : Engine.ConsensusParams :=
  { block := ⟨p.block.maxBytes, p.block.maxGas⟩
    evidence :=
      ⟨p.evidence.maxAgeBlocks, natural p.evidence.maxAgeNanoseconds / 1000000000,
        p.evidence.maxBytes⟩
    validator := p.validator
    version := ⟨p.appVersion⟩ }

end ConsensusParams

structure PublicKey where
  kind : String
  /-- The key in base64. -/
  value : String
  deriving DecidableEq, Inhabited, Repr

def PublicKey.codec : Codec PublicKey :=
  .record
    (.cons (.required "type" .text) <| .cons (.required "value" .text) .nil)
    (fun (kind, value, _) => ⟨kind, value⟩)
    (fun k => (k.kind, k.value, ()))

structure Member where
  address : String
  publicKey : PublicKey
  power : Int64
  name : String
  deriving DecidableEq, Inhabited, Repr

namespace Member

def codec : Codec Member :=
  .record
    (.cons (.orElse "address" .text "") <|
      .cons (.required "pub_key" PublicKey.codec) <|
      .cons (.required "power" integer) <|
      .cons (.orElse "name" .text "") .nil)
    (fun (address, publicKey, power, name, _) => ⟨address, publicKey, power, name⟩)
    (fun v => (v.address, v.publicKey, v.power, v.name, ()))

def updateOf (key : Bytes) (power : Int64) : Engine.ValidatorUpdate :=
  ⟨Validator.addressOf key, .ed25519 key, power⟩

/-- A member whose key is not base64 is passed over. -/
def update? (m : Member) : Option Engine.ValidatorUpdate :=
  (Base64.decode m.publicKey.value.toList).map (updateOf · m.power)

end Member

end Genesis

structure Genesis where
  genesisTime : String
  chainId : String
  initialHeight : Int64
  consensusParams : Option Genesis.ConsensusParams
  validators : List Genesis.Member
  appHash : String
  appState : Opaque
  deriving DecidableEq, Repr

namespace Genesis

def defaultChainId : String := "peachtree"
def defaultAppVersion : UInt64 := 1

def default : Genesis := ⟨"", defaultChainId, 1, none, [], "", .null⟩

instance : Inhabited Genesis := ⟨default⟩

def codec : Codec Genesis :=
  .record
    (.cons (.orElse "genesis_time" .text "") <|
      .cons (.orElse "chain_id" .text "") <|
      .cons (.orElse "initial_height" integer 1) <|
      .cons (.orElse "consensus_params" (.optional ConsensusParams.codec) none) <|
      .cons (.orElse "validators" (.list Member.codec) []) <|
      .cons (.orElse "app_hash" .text "") <|
      .cons (.orElse "app_state" .opaqueValue .null) .nil)
    (fun (genesisTime, chainId, initialHeight, consensusParams, validators, appHash, appState, _) =>
      ⟨genesisTime, chainId, initialHeight, consensusParams, validators, appHash, appState⟩)
    (fun g => (g.genesisTime, g.chainId, g.initialHeight, g.consensusParams, g.validators,
      g.appHash, g.appState, ()))

/-- The parameters of a chain that is given no document: blocks of 21 MiB, evidence of 1 MiB that
counts for 30 days. -/
def localParams : ConsensusParams :=
  { block := ⟨22020096, -1, 25⟩
    evidence := ⟨100000, 30 * 24 * 3600 * 1000000000, 1048576⟩
    validator := ⟨["ed25519"]⟩
    version := ⟨defaultAppVersion.toInt64⟩ }

def synthesize (chainId genesisTime : String) (appState : Opaque) : Genesis :=
  ⟨genesisTime, chainId, 1, some localParams, [], "", appState⟩

def appVersion (g : Genesis) : UInt64 :=
  match g.consensusParams with
  | some p => p.appVersion
  | none => defaultAppVersion

/-- The application state; null stands for an empty one. -/
def applicationParams (g : Genesis) : Except Fault Staking.ApplicationParams :=
  if g.appState.value.isNull then .ok {}
  else Staking.ApplicationParams.codec.ofJson g.appState.value

/-- The key of the validator that stands in for an empty list, in base64. -/
def bootstrapKey : String := "6su8FUyDc9fLCRNODSovoqS9r4v+8ge5Epm43OQAQr0="
def bootstrapPower : Int64 := 1

def bootstrapUpdates : List Engine.ValidatorUpdate :=
  ((Base64.decode bootstrapKey.toList).map (Member.updateOf · bootstrapPower)).toList

/-- The validators a chain starts with. When no key can be read, the bootstrap validator stands in. -/
def defaultUpdates (g : Genesis) : List Engine.ValidatorUpdate :=
  let updates := g.validators.filterMap Member.update?
  if updates.isEmpty then bootstrapUpdates else updates

end Genesis

end StakeLedger
