import StakeLedger.Json.Record

/-! The header of a block. Its hashes are opaque text. -/

namespace StakeLedger.Engine

open Json

structure BlockVersion where
  block : UInt64 := 0
  app : UInt64 := 0
  deriving DecidableEq, Inhabited, Repr

def BlockVersion.codec : Codec BlockVersion :=
  .record
    (.cons (.orElse "block" .uint64 0) <| .cons (.orElse "app" .uint64 0) .nil)
    (fun (block, app, _) => ⟨block, app⟩)
    (fun v => (v.block, v.app, ()))

structure Header where
  version : BlockVersion := {}
  chainId : String := ""
  height : Int64 := 0
  time : String := ""
  lastCommitHash : String := ""
  dataHash : String := ""
  validatorsHash : String := ""
  nextValidatorsHash : String := ""
  consensusHash : String := ""
  appHash : String := ""
  lastResultsHash : String := ""
  evidenceHash : String := ""
  proposerAddress : String := ""
  deriving DecidableEq, Inhabited, Repr

def Header.codec : Codec Header :=
  .record
    (.cons (.orElse "version" BlockVersion.codec {}) <|
      .cons (.orElse "chain_id" .text "") <|
      .cons (.orElse "height" .int64 0) <|
      .cons (.orElse "time" .text "") <|
      .cons (.orElse "last_commit_hash" .text "") <|
      .cons (.orElse "data_hash" .text "") <|
      .cons (.orElse "validators_hash" .text "") <|
      .cons (.orElse "next_validators_hash" .text "") <|
      .cons (.orElse "consensus_hash" .text "") <|
      .cons (.orElse "app_hash" .text "") <|
      .cons (.orElse "last_results_hash" .text "") <|
      .cons (.orElse "evidence_hash" .text "") <|
      .cons (.orElse "proposer_address" .text "") .nil)
    (fun (version, chainId, height, time, lastCommitHash, dataHash, validatorsHash,
        nextValidatorsHash, consensusHash, appHash, lastResultsHash, evidenceHash, proposerAddress,
        _) =>
      ⟨version, chainId, height, time, lastCommitHash, dataHash, validatorsHash,
        nextValidatorsHash, consensusHash, appHash, lastResultsHash, evidenceHash,
        proposerAddress⟩)
    (fun h => (h.version, h.chainId, h.height, h.time, h.lastCommitHash, h.dataHash,
      h.validatorsHash, h.nextValidatorsHash, h.consensusHash, h.appHash, h.lastResultsHash,
      h.evidenceHash, h.proposerAddress, ()))

end StakeLedger.Engine
