import StakeLedger.Engine.Block
import StakeLedger.Engine.Chain
import StakeLedger.Engine.Snapshot

namespace StakeLedger.Engine

structure Kind where
  {α : Type}
  codec : Codec α

def Kind.respell (kind : Kind) (document : Bytes) : Except Fault String :=
  (kind.codec.ofBytes document).map kind.codec.compact

def catalogue : List (String × Kind) := [
  ("ValidatorUpdate", ⟨ValidatorUpdate.codec⟩), ("EventAttribute", ⟨EventAttribute.codec⟩),
  ("Event", ⟨Event.codec⟩), ("BlockVersion", ⟨BlockVersion.codec⟩), ("Header", ⟨Header.codec⟩),
  ("BlockParams", ⟨BlockParams.codec⟩), ("EvidenceParams", ⟨EvidenceParams.codec⟩),
  ("ValidatorParams", ⟨ValidatorParams.codec⟩), ("VersionParams", ⟨VersionParams.codec⟩),
  ("ConsensusParams", ⟨ConsensusParams.codec⟩), ("RequestInfo", ⟨InfoRequest.codec⟩),
  ("ResponseInfo", ⟨InfoResponse.codec⟩), ("RequestInitChain", ⟨InitChainRequest.codec⟩),
  ("ResponseInitChain", ⟨InitChainResponse.codec⟩), ("RequestQuery", ⟨QueryRequest.codec⟩),
  ("ResponseQuery", ⟨QueryResponse.codec⟩), ("CheckTxKind", ⟨CheckKind.codec⟩),
  ("RequestCheckTx", ⟨CheckTxRequest.codec⟩), ("ResponseCheckTx", ⟨CheckTxResponse.codec⟩),
  ("RequestDeliverTx", ⟨DeliverTxRequest.codec⟩), ("ResponseDeliverTx", ⟨DeliverTxResponse.codec⟩),
  ("RequestBeginBlock", ⟨BeginBlockRequest.codec⟩),
  ("ResponseBeginBlock", ⟨BeginBlockResponse.codec⟩), ("RequestEndBlock", ⟨EndBlockRequest.codec⟩),
  ("ResponseEndBlock", ⟨EndBlockResponse.codec⟩), ("ResponseCommit", ⟨CommitResponse.codec⟩),
  ("Snapshot", ⟨Snapshot.codec⟩), ("ResponseListSnapshots", ⟨ListSnapshotsResponse.codec⟩),
  ("RequestOfferSnapshot", ⟨OfferSnapshotRequest.codec⟩), ("SnapshotResult", ⟨SnapshotResult.codec⟩),
  ("ResponseOfferSnapshot", ⟨OfferSnapshotResponse.codec⟩),
  ("RequestLoadSnapshotChunk", ⟨LoadSnapshotChunkRequest.codec⟩),
  ("ResponseLoadSnapshotChunk", ⟨LoadSnapshotChunkResponse.codec⟩),
  ("RequestApplySnapshotChunk", ⟨ApplySnapshotChunkRequest.codec⟩),
  ("ResponseApplySnapshotChunk", ⟨ApplySnapshotChunkResponse.codec⟩)]

end StakeLedger.Engine
