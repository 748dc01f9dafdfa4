import StakeLedger.Application.Basic

namespace StakeLedger

open Engine Platform

inductive Callback
  | info
  | initChain
  | query
  | checkTx
  | beginBlock
  | deliverTx
  | endBlock
  | commit
  | listSnapshots
  | offerSnapshot
  | loadSnapshotChunk
  | applySnapshotChunk
  deriving DecidableEq, Repr

namespace Callback

def all : List Callback := [
  info, initChain, query, checkTx, beginBlock, deliverTx, endBlock, commit, listSnapshots,
  offerSnapshot, loadSnapshotChunk, applySnapshotChunk]

def name : Callback → String
  | info => "info"
  | initChain => "init_chain"
  | query => "query"
  | checkTx => "check_tx"
  | beginBlock => "begin_block"
  | deliverTx => "deliver_tx"
  | endBlock => "end_block"
  | commit => "commit"
  | listSnapshots => "list_snapshots"
  | offerSnapshot => "offer_snapshot"
  | loadSnapshotChunk => "load_snapshot_chunk"
  | applySnapshotChunk => "apply_snapshot_chunk"

def ofName? (name : String) : Option Callback := all.find? (·.name == name)

def isRead : Callback → Bool
  | info | listSnapshots => true
  | _ => false

inductive Refusal (ε : Type)
  | unreadable (e : ε)
  | unsaved (e : StateError)
  deriving Repr

abbrev Host (σ : Type) := Application σ × Disk

variable {σ ε : Type}

def ask {α β : Type} (request : Except ε α) (answer : Codec β) (host : Host σ)
    (f : α → Session σ (β × Application σ)) :
    Session σ (Except (Refusal ε) Json × Host σ) := do
  match request with
  | .error e => return (.error (.unreadable e), host)
  | .ok x =>
    let (y, app) ← f x
    return (.ok (answer.write y), (app, host.2))

def perform (call : Callback) (read : {α : Type} → Codec α → Except ε α) (host : Host σ) :
    Session σ (Except (Refusal ε) Json × Host σ) :=
  let app := host.1
  match call with
  | info =>
    ask (read InfoRequest.codec) InfoResponse.codec host fun r => return (app.info r, app)
  | initChain =>
    ask (read InitChainRequest.codec) InitChainResponse.codec host fun r =>
      return (app.initChain r, app)
  | query =>
    ask (read QueryRequest.codec) QueryResponse.codec host fun r => return (← app.query r, app)
  | checkTx =>
    ask (read CheckTxRequest.codec) CheckTxResponse.codec host fun r => return (app.checkTx r, app)
  | beginBlock =>
    ask (read BeginBlockRequest.codec) BeginBlockResponse.codec host fun r =>
      return (app.beginBlock r, app)
  | deliverTx =>
    ask (read DeliverTxRequest.codec) DeliverTxResponse.codec host fun r => return app.deliverTx r
  | endBlock =>
    ask (read EndBlockRequest.codec) EndBlockResponse.codec host fun r => liftM (app.endBlock r)
  | commit =>
    let (answer, app, disk) := app.commit host.2
    return (match answer with
      | .ok response => .ok (CommitResponse.codec.write response)
      | .error e => .error (.unsaved e), (app, disk))
  | listSnapshots => return (.ok (ListSnapshotsResponse.codec.write app.listSnapshots), host)
  | offerSnapshot =>
    ask (read OfferSnapshotRequest.codec) OfferSnapshotResponse.codec host fun r =>
      return (app.offerSnapshot r, app)
  | loadSnapshotChunk =>
    ask (read LoadSnapshotChunkRequest.codec) LoadSnapshotChunkResponse.codec host fun r =>
      return (app.loadSnapshotChunk r, app)
  | applySnapshotChunk =>
    ask (read ApplySnapshotChunkRequest.codec) ApplySnapshotChunkResponse.codec host fun r =>
      return (app.applySnapshotChunk r, app)

end Callback

end StakeLedger
