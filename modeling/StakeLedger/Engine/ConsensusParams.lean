import StakeLedger.Json.Record

namespace StakeLedger.Engine

open Json

structure BlockParams where
  maxBytes : Int64 := 0
  maxGas : Int64 := 0
  deriving DecidableEq, Inhabited, Repr

def BlockParams.codec : Codec BlockParams :=
  .record
    (.cons (.orElse "max_bytes" .int64 0) <| .cons (.orElse "max_gas" .int64 0) .nil)
    (fun (maxBytes, maxGas, _) => ⟨maxBytes, maxGas⟩)
    (fun p => (p.maxBytes, p.maxGas, ()))

structure EvidenceParams where
  maxAgeBlocks : Int64 := 0
  maxAgeSeconds : UInt64 := 0
  maxBytes : Int64 := 0
  deriving DecidableEq, Inhabited, Repr

def EvidenceParams.codec : Codec EvidenceParams :=
  .record
    (.cons (.orElse "max_age_num_blocks" .int64 0) <|
      .cons (.orElse "max_age_duration_secs" .uint64 0) <|
      .cons (.orElse "max_bytes" .int64 0) .nil)
    (fun (maxAgeBlocks, maxAgeSeconds, maxBytes, _) => ⟨maxAgeBlocks, maxAgeSeconds, maxBytes⟩)
    (fun p => (p.maxAgeBlocks, p.maxAgeSeconds, p.maxBytes, ()))

structure ValidatorParams where
  publicKeyTypes : List String := []
  deriving DecidableEq, Inhabited, Repr

def ValidatorParams.codec : Codec ValidatorParams :=
  .record
    (.cons (.orElse "pub_key_types" (.list .text) []) .nil)
    (fun (publicKeyTypes, _) => ⟨publicKeyTypes⟩)
    (fun p => (p.publicKeyTypes, ()))

structure VersionParams where
  appVersion : UInt64 := 0
  deriving DecidableEq, Inhabited, Repr

def VersionParams.codec : Codec VersionParams :=
  .record
    (.cons (.orElse "app_version" .uint64 0) .nil)
    (fun (appVersion, _) => ⟨appVersion⟩)
    (fun p => (p.appVersion, ()))

structure ConsensusParams where
  block : BlockParams := {}
  evidence : EvidenceParams := {}
  validator : ValidatorParams := {}
  version : VersionParams := {}
  deriving DecidableEq, Inhabited, Repr

def ConsensusParams.codec : Codec ConsensusParams :=
  .record
    (.cons (.orElse "block" BlockParams.codec {}) <|
      .cons (.orElse "evidence" EvidenceParams.codec {}) <|
      .cons (.orElse "validator" ValidatorParams.codec {}) <|
      .cons (.orElse "version" VersionParams.codec {}) .nil)
    (fun (block, evidence, validator, version, _) => ⟨block, evidence, validator, version⟩)
    (fun p => (p.block, p.evidence, p.validator, p.version, ()))

end StakeLedger.Engine
