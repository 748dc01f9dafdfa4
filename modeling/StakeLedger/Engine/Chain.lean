import StakeLedger.Engine.ConsensusParams
import StakeLedger.Engine.Validator

namespace StakeLedger.Engine

open Json

structure InfoRequest where
  version : String := ""
  blockVersion : UInt64 := 0
  peerVersion : UInt64 := 0
  deriving DecidableEq, Inhabited, Repr

def InfoRequest.codec : Codec InfoRequest :=
  .record
    (.cons (.orElse "version" .text "") <|
      .cons (.orElse "block_version" .uint64 0) <|
      .cons (.orElse "p2p_version" .uint64 0) .nil)
    (fun (version, blockVersion, peerVersion, _) => ⟨version, blockVersion, peerVersion⟩)
    (fun r => (r.version, r.blockVersion, r.peerVersion, ()))

structure InfoResponse where
  data : String
  version : String
  appVersion : UInt64
  lastBlockHeight : Int64
  lastBlockAppHash : Bytes
  deriving DecidableEq, Inhabited, Repr

def InfoResponse.codec : Codec InfoResponse :=
  .record
    (.cons (.required "data" .text) <|
      .cons (.required "version" .text) <|
      .cons (.required "app_version" .uint64) <|
      .cons (.required "last_block_height" .int64) <|
      .cons (.required "last_block_app_hash" .bytes) .nil)
    (fun (data, version, appVersion, lastBlockHeight, lastBlockAppHash, _) =>
      ⟨data, version, appVersion, lastBlockHeight, lastBlockAppHash⟩)
    (fun r => (r.data, r.version, r.appVersion, r.lastBlockHeight, r.lastBlockAppHash, ()))

structure InitChainRequest where
  time : String := ""
  chainId : String := ""
  consensusParams : Option ConsensusParams := none
  validators : List ValidatorUpdate := []
  appState : Bytes := []
  initialHeight : Int64 := 0
  deriving DecidableEq, Inhabited, Repr

def InitChainRequest.codec : Codec InitChainRequest :=
  .record
    (.cons (.orElse "time" .text "") <|
      .cons (.orElse "chain_id" .text "") <|
      .cons (.orElse "consensus_params" (.optional ConsensusParams.codec) none) <|
      .cons (.orElse "validators" (.list ValidatorUpdate.codec) []) <|
      .cons (.orElse "app_state_bytes" .bytes []) <|
      .cons (.orElse "initial_height" .int64 0) .nil)
    (fun (time, chainId, consensusParams, validators, appState, initialHeight, _) =>
      ⟨time, chainId, consensusParams, validators, appState, initialHeight⟩)
    (fun r =>
      (r.time, r.chainId, r.consensusParams, r.validators, r.appState, r.initialHeight, ()))

structure InitChainResponse where
  consensusParams : Option ConsensusParams
  validators : List ValidatorUpdate
  appHash : Bytes
  deriving DecidableEq, Inhabited, Repr

/-- The consensus parameters may be absent from a record but not from a list. -/
def InitChainResponse.codec : Codec InitChainResponse :=
  .record
    (.cons ⟨"consensus_params", .optional ConsensusParams.codec, some none, none, fun _ => false⟩ <|
      .cons (.required "validators" (.list ValidatorUpdate.codec)) <|
      .cons (.required "app_hash" .bytes) .nil)
    (fun (consensusParams, validators, appHash, _) => ⟨consensusParams, validators, appHash⟩)
    (fun r => (r.consensusParams, r.validators, r.appHash, ()))

structure QueryRequest where
  data : Bytes := []
  path : String := ""
  height : Int64 := 0
  prove : Bool := false
  deriving DecidableEq, Inhabited, Repr

def QueryRequest.codec : Codec QueryRequest :=
  .record
    (.cons (.orElse "data" .bytes []) <|
      .cons (.orElse "path" .text "") <|
      .cons (.orElse "height" .int64 0) <|
      .cons (.orElse "prove" .bool false) .nil)
    (fun (data, path, height, prove, _) => ⟨data, path, height, prove⟩)
    (fun r => (r.data, r.path, r.height, r.prove, ()))

structure QueryResponse where
  code : UInt32
  log : String
  value : Bytes
  height : Int64
  deriving DecidableEq, Inhabited, Repr

def QueryResponse.codec : Codec QueryResponse :=
  .record
    (.cons (.required "code" .uint32) <|
      .cons (.required "log" .text) <|
      .cons (.required "value" .bytes) <|
      .cons (.required "height" .int64) .nil)
    (fun (code, log, value, height, _) => ⟨code, log, value, height⟩)
    (fun r => (r.code, r.log, r.value, r.height, ()))

end StakeLedger.Engine
