import StakeLedger.Engine.Event
import StakeLedger.Engine.Header
import StakeLedger.Engine.Validator

namespace StakeLedger.Engine

open Json

inductive CheckKind
  | new
  | recheck
  deriving DecidableEq, Inhabited, Repr

def CheckKind.codec : Codec CheckKind := .choice [("new", .new), ("recheck", .recheck)]

structure CheckTxRequest where
  tx : Bytes := []
  kind : CheckKind := .new
  deriving DecidableEq, Inhabited, Repr

def CheckTxRequest.codec : Codec CheckTxRequest :=
  .record
    (.cons (.orElse "tx" .bytes []) <| .cons (.orElse "kind" CheckKind.codec .new) .nil)
    (fun (tx, kind, _) => ⟨tx, kind⟩)
    (fun r => (r.tx, r.kind, ()))

structure CheckTxResponse where
  code : UInt32
  log : String
  gasWanted : Int64
  gasUsed : Int64
  deriving DecidableEq, Inhabited, Repr

def CheckTxResponse.codec : Codec CheckTxResponse :=
  .record
    (.cons (.required "code" .uint32) <|
      .cons (.required "log" .text) <|
      .cons (.required "gas_wanted" .int64) <|
      .cons (.required "gas_used" .int64) .nil)
    (fun (code, log, gasWanted, gasUsed, _) => ⟨code, log, gasWanted, gasUsed⟩)
    (fun r => (r.code, r.log, r.gasWanted, r.gasUsed, ()))

structure DeliverTxRequest where
  tx : Bytes := []
  deriving DecidableEq, Inhabited, Repr

def DeliverTxRequest.codec : Codec DeliverTxRequest :=
  .record (.cons (.orElse "tx" .bytes []) .nil) (fun (tx, _) => ⟨tx⟩) (fun r => (r.tx, ()))

structure DeliverTxResponse where
  code : UInt32
  log : String
  events : List Event
  deriving DecidableEq, Inhabited, Repr

def DeliverTxResponse.codec : Codec DeliverTxResponse :=
  .record
    (.cons (.required "code" .uint32) <|
      .cons (.required "log" .text) <|
      .cons (.required "events" (.list Event.codec)) .nil)
    (fun (code, log, events, _) => ⟨code, log, events⟩)
    (fun r => (r.code, r.log, r.events, ()))

structure BeginBlockRequest where
  hash : String := ""
  header : Header := {}
  deriving DecidableEq, Inhabited, Repr

def BeginBlockRequest.codec : Codec BeginBlockRequest :=
  .record
    (.cons (.orElse "hash" .text "") <| .cons (.orElse "header" Header.codec {}) .nil)
    (fun (hash, header, _) => ⟨hash, header⟩)
    (fun r => (r.hash, r.header, ()))

structure BeginBlockResponse where
  events : List Event
  deriving DecidableEq, Inhabited, Repr

def BeginBlockResponse.codec : Codec BeginBlockResponse :=
  .record
    (.cons (.required "events" (.list Event.codec)) .nil)
    (fun (events, _) => ⟨events⟩)
    (fun r => (r.events, ()))

structure EndBlockRequest where
  height : Int64
  deriving DecidableEq, Inhabited, Repr

def EndBlockRequest.codec : Codec EndBlockRequest :=
  .record (.cons (.required "height" .int64) .nil) (fun (height, _) => ⟨height⟩)
    (fun r => (r.height, ()))

structure EndBlockResponse where
  validatorUpdates : List ValidatorUpdate
  events : List Event
  deriving DecidableEq, Inhabited, Repr

def EndBlockResponse.codec : Codec EndBlockResponse :=
  .record
    (.cons (.required "validator_updates" (.list ValidatorUpdate.codec)) <|
      .cons (.required "events" (.list Event.codec)) .nil)
    (fun (validatorUpdates, events, _) => ⟨validatorUpdates, events⟩)
    (fun r => (r.validatorUpdates, r.events, ()))

structure CommitResponse where
  data : Bytes
  retainHeight : Int64
  deriving DecidableEq, Inhabited, Repr

def CommitResponse.codec : Codec CommitResponse :=
  .record
    (.cons (.required "data" .bytes) <| .cons (.required "retain_height" .int64) .nil)
    (fun (data, retainHeight, _) => ⟨data, retainHeight⟩)
    (fun r => (r.data, r.retainHeight, ()))

end StakeLedger.Engine
