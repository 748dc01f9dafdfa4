import StakeLedger.Engine.Block
import StakeLedger.Engine.Snapshot
import StakeLedger.Entropy
import StakeLedger.Query.Handlers
import StakeLedger.Staking.Bootstrap
import StakeLedger.State.Store
import StakeLedger.Transaction

/-!
The application behind the engine's calls. The end of a block is the only place where the roster
changes; the commit is the only place where the height moves and where anything is saved.
-/

namespace StakeLedger

open Engine Platform

structure Application (σ : Type) where
  genesis : Genesis
  /-- Blocks between fetches of entropy; zero means never. -/
  entropyInterval : UInt64
  checkState : State
  deliverState : State
  commitState : State
  staking : Staking.Pipeline
  router : Query.Router σ
  effects : Effects
  entropy : Option (Int64 × Bytes)

namespace Application

variable {σ : Type}

def name : String := "baseledger"
def protocolVersion : String := "v1.0.0"

def state (app : Application σ) : Phase → State
  | .check => app.checkState
  | .deliver => app.deliverState
  | .commit => app.commitState

/-- The views are loaded in the order of the phases, and the first that cannot be loaded is
reported. -/
def new (genesis : Genesis) (store : Store) (disk : Disk) (entropyInterval : UInt64)
    (staking : Staking.Pipeline) (router : Query.Router σ) (effects : Effects) :
    Except StateError (Application σ) := do
  let checkState ← store.load disk .check genesis
  let deliverState ← store.load disk .deliver genesis
  let commitState ← store.load disk .commit genesis
  .ok ⟨genesis, entropyInterval, checkState, deliverState, commitState, staking, router, effects,
    none⟩

def info (app : Application σ) (_ : InfoRequest) : InfoResponse :=
  ⟨name, protocolVersion, app.genesis.appVersion, app.commitState.height, app.commitState.root⟩

/-- The engine's own parameters come before those of the genesis document. -/
def initChain (app : Application σ) (request : InitChainRequest) : InitChainResponse :=
  { consensusParams :=
      request.consensusParams.or (app.genesis.consensusParams.map Genesis.ConsensusParams.forEngine)
    validators := app.genesis.defaultUpdates
    appHash := app.commitState.root }

def query (app : Application σ) (request : QueryRequest) : Session σ QueryResponse :=
  app.router.respond request

/-- Admission asks only whether there is a transaction. -/
def checkTx (_ : Application σ) (request : CheckTxRequest) : CheckTxResponse :=
  match Transaction.decode request.tx with
  | .ok tx => ⟨0, "", tx.gasWanted, 0⟩
  | .error e => ⟨e.code, e.message, 0, 0⟩

/-- The header comes back as the one attribute of one event. -/
def beginBlock (_ : Application σ) (request : BeginBlockRequest) : BeginBlockResponse :=
  ⟨[⟨"block", [⟨"header", Header.codec.compact request.header, false⟩]⟩]⟩

def deliverTx (app : Application σ) (request : DeliverTxRequest) :
    DeliverTxResponse × Application σ :=
  match Transaction.decode request.tx with
  | .error e => (⟨e.code, e.message, []⟩, app)
  | .ok tx =>
    let (deliverState, e) := app.effects app.deliverState tx
    let response : DeliverTxResponse := match e with
      | none => ⟨0, "", []⟩
      | some e => ⟨e.code, e.message, []⟩
    (response, { app with deliverState })

/-- Fetches entropy by a query. Only an answer that comes and is not empty is kept; a failure never
fails the block. -/
def fetchEntropy (app : Application σ) (height : Int64) : StateM σ (Application σ) := do
  match ← (app.router.route { path := Entropy.fetchPath height, height }).run with
  | some (.ok response) =>
    if response.value.isEmpty then return app
    else return { app with entropy := some (height, response.value) }
  | _ => return app

def applyDeltas (state : State) (deltas : List StakeDelta) : State × List ValidatorUpdate :=
  deltas.foldl
    (fun (state, updates) delta =>
      let (state, changed) := state.applyDelta delta
      (state, mergeUpdate updates changed.update))
    (state, [])

/-- The updates of a block. When it leaves nobody with power, the validators of the genesis document
come back. -/
def resolveUpdates (genesis : Genesis) (state : State) (deltas : List StakeDelta) :
    State × List ValidatorUpdate :=
  let (state, updates) := applyDeltas state deltas
  if state.totalPower = 0 then (state, mergeUpdates updates genesis.defaultUpdates)
  else (state, updates)

def settleBlock (app : Application σ) : EndBlockResponse × Application σ :=
  let (deltas, staking) := app.staking.drain
  let (commitState, updates) := resolveUpdates app.genesis app.commitState deltas
  (⟨updates, []⟩, { app with staking, commitState })

def endBlock (app : Application σ) (request : EndBlockRequest) :
    StateM σ (EndBlockResponse × Application σ) := do
  let app ←
    if Entropy.isFetchHeight request.height app.entropyInterval then app.fetchEntropy request.height
    else pure app
  return app.settleBlock

def nextState (state : State) : State :=
  let next := { state with height := state.height + 1 }
  { next with root := next.computeRoot }

/-- The end of a commit, given what went wrong with saving: the state moves on only once it is
saved. -/
def conclude (app : Application σ) (failure : Option StateError) :
    Except StateError CommitResponse × Application σ :=
  let next := nextState app.commitState
  match failure with
  | none => (.ok ⟨next.root, next.height⟩, { app with commitState := next })
  | some e => (.error e, app)

def commit (app : Application σ) (disk : Disk) :
    Except StateError CommitResponse × Application σ × Disk :=
  let (disk, failure) := (nextState app.commitState).save disk
  let (answer, app) := app.conclude failure
  (answer, app, disk)

/-- No snapshots are offered to other nodes and none are taken from them. -/
def listSnapshots (_ : Application σ) : ListSnapshotsResponse := ⟨[]⟩

def offerSnapshot (_ : Application σ) (_ : OfferSnapshotRequest) : OfferSnapshotResponse :=
  ⟨.unknown⟩

def loadSnapshotChunk (_ : Application σ) (_ : LoadSnapshotChunkRequest) :
    LoadSnapshotChunkResponse := ⟨[]⟩

def applySnapshotChunk (_ : Application σ) (_ : ApplySnapshotChunkRequest) :
    ApplySnapshotChunkResponse := ⟨.unknown, [], []⟩

def shutdown (app : Application σ) : Application σ :=
  { app with staking := app.staking.shutdown }

end Application

end StakeLedger
