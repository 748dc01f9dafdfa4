import StakeLedger.Json.Record

namespace StakeLedger.Engine

open Json

structure Snapshot where
  height : UInt64
  format : UInt32
  chunks : UInt32
  hash : Bytes
  metadata : Bytes
  deriving DecidableEq, Inhabited, Repr

def Snapshot.codec : Codec Snapshot :=
  .record
    (.cons (.required "height" .uint64) <|
      .cons (.required "format" .uint32) <|
      .cons (.required "chunks" .uint32) <|
      .cons (.required "hash" .bytes) <|
      .cons (.required "metadata" .bytes) .nil)
    (fun (height, format, chunks, hash, metadata, _) => ⟨height, format, chunks, hash, metadata⟩)
    (fun s => (s.height, s.format, s.chunks, s.hash, s.metadata, ()))

structure ListSnapshotsResponse where
  snapshots : List Snapshot
  deriving DecidableEq, Inhabited, Repr

def ListSnapshotsResponse.codec : Codec ListSnapshotsResponse :=
  .record
    (.cons (.required "snapshots" (.list Snapshot.codec)) .nil)
    (fun (snapshots, _) => ⟨snapshots⟩)
    (fun r => (r.snapshots, ()))

structure OfferSnapshotRequest where
  snapshot : Option Snapshot := none
  appHash : Bytes := []
  deriving DecidableEq, Inhabited, Repr

def OfferSnapshotRequest.codec : Codec OfferSnapshotRequest :=
  .record
    (.cons (.orElse "snapshot" (.optional Snapshot.codec) none) <|
      .cons (.orElse "app_hash" .bytes []) .nil)
    (fun (snapshot, appHash, _) => ⟨snapshot, appHash⟩)
    (fun r => (r.snapshot, r.appHash, ()))

inductive SnapshotResult
  | unknown
  | accept
  | abort
  | reject
  deriving DecidableEq, Inhabited, Repr

def SnapshotResult.codec : Codec SnapshotResult :=
  .choice [("unknown", .unknown), ("accept", .accept), ("abort", .abort), ("reject", .reject)]

structure OfferSnapshotResponse where
  result : SnapshotResult
  deriving DecidableEq, Inhabited, Repr

def OfferSnapshotResponse.codec : Codec OfferSnapshotResponse :=
  .record
    (.cons (.required "result" SnapshotResult.codec) .nil)
    (fun (result, _) => ⟨result⟩)
    (fun r => (r.result, ()))

structure LoadSnapshotChunkRequest where
  height : UInt64 := 0
  format : UInt32 := 0
  chunk : UInt32 := 0
  deriving DecidableEq, Inhabited, Repr

def LoadSnapshotChunkRequest.codec : Codec LoadSnapshotChunkRequest :=
  .record
    (.cons (.orElse "height" .uint64 0) <|
      .cons (.orElse "format" .uint32 0) <|
      .cons (.orElse "chunk" .uint32 0) .nil)
    (fun (height, format, chunk, _) => ⟨height, format, chunk⟩)
    (fun r => (r.height, r.format, r.chunk, ()))

structure LoadSnapshotChunkResponse where
  chunk : Bytes
  deriving DecidableEq, Inhabited, Repr

def LoadSnapshotChunkResponse.codec : Codec LoadSnapshotChunkResponse :=
  .record (.cons (.required "chunk" .bytes) .nil) (fun (chunk, _) => ⟨chunk⟩)
    (fun r => (r.chunk, ()))

structure ApplySnapshotChunkRequest where
  index : UInt32 := 0
  chunk : Bytes := []
  sender : String := ""
  deriving DecidableEq, Inhabited, Repr

def ApplySnapshotChunkRequest.codec : Codec ApplySnapshotChunkRequest :=
  .record
    (.cons (.orElse "index" .uint32 0) <|
      .cons (.orElse "chunk" .bytes []) <|
      .cons (.orElse "sender" .text "") .nil)
    (fun (index, chunk, sender, _) => ⟨index, chunk, sender⟩)
    (fun r => (r.index, r.chunk, r.sender, ()))

structure ApplySnapshotChunkResponse where
  result : SnapshotResult
  refetchChunks : List UInt32
  rejectSenders : List String
  deriving DecidableEq, Inhabited, Repr

def ApplySnapshotChunkResponse.codec : Codec ApplySnapshotChunkResponse :=
  .record
    (.cons (.required "result" SnapshotResult.codec) <|
      .cons (.required "refetch_chunks" (.list .uint32)) <|
      .cons (.required "reject_senders" (.list .text)) .nil)
    (fun (result, refetchChunks, rejectSenders, _) => ⟨result, refetchChunks, rejectSenders⟩)
    (fun r => (r.result, r.refetchChunks, r.rejectSenders, ()))

end StakeLedger.Engine
