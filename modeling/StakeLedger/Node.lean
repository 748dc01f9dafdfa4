import StakeLedger.Genesis.Load
import StakeLedger.Http.Bridge
import StakeLedger.Platform.Client

/-!
A node: the application that its configuration leads to, and the run in which it is served until it
is told to stop or a commit fails.
-/

namespace StakeLedger

open Network Platform

structure Node (σ : Type) where
  app : Application σ
  address : Address
  relays : Bool

namespace Node

inductive BootError
  | config (e : Config.Error)
  | io (fault : Disk.Fault)
  | genesis (e : Genesis.LoadError)
  | application (e : Application.BootError)
  deriving DecidableEq, Repr

def BootError.message : BootError → String
  | .config e => "configuration error: " ++ e.message
  | .io fault => "I/O error: " ++ fault.message
  | .genesis e => "genesis error: " ++ e.message
  | .application e => "application error: " ++ e.message

variable {σ : Type}

def connect (link : Link σ) (platform : Config.Platform) :
    Session σ (Except Platform.Error (Option (Staking.Source σ))) := do
  match platform.refreshToken with
  | none => return .ok none
  | some refreshToken =>
    match ← authorize link platform.identUrl refreshToken with
    | .error e => return .error e
    | .ok accessToken =>
      let client : Client := ⟨platform.nchainUrl, accessToken⟩
      return .ok (some ⟨client.service link, fun subject bearer =>
        return Staking.Flow.subscribe .empty subject bearer⟩)

def prepare (config : Config) (disk : Disk) : Except BootError (Address × Disk) := do
  let address ← config.rpcAddress.mapError .config
  let disk ← (disk.createDirectories config.dataDirectory).mapError .io
  return (address, disk)

def start (link : Link σ) (config : Config) (address : Address) (disk : Disk) :
    Session σ (Except BootError (Node σ)) := do
  match ← Genesis.load link config disk with
  | .error e => return .error (.genesis e)
  | .ok genesis =>
    match ← connect link config.platform with
    | .error e => return .error (.application (.platform e))
    | .ok source =>
      match ← Application.bootstrap config.applicationSettings genesis disk link.reaches source
          .none with
      | .error e => return .error (.application e)
      | .ok app => return .ok { app, address, relays := source.isSome }

/-- A node from its configuration; the address is looked at before anything is touched. -/
def boot (link : Link σ) (config : Config) (disk : Disk) :
    Session σ (Except BootError (Node σ × Disk)) := do
  match prepare config disk with
  | .error e => return .error e
  | .ok (address, disk) => return (← start link config address disk).map (·, disk)

end Node

inductive Happening
  | request (r : Http.Request)
  | stop
  deriving DecidableEq, Repr

structure Run (σ : Type) where
  bridge : Http.Bridge σ
  disk : Disk
  stopped : Bool := false
  responses : List Http.Response := []

namespace Run

inductive Error
  | commitFailed
  /-- The address could not be served. -/
  | io
  deriving DecidableEq, Repr

def Error.message : Error → String
  | .commitFailed => "node stopped after a fatal commit failure"
  | .io => "I/O error"

variable {σ : Type}

def ofNode (node : Node σ) (disk : Disk) : Run σ := { bridge := ⟨node.app, node.relays, false⟩, disk }

/-- Whether new connections are no longer taken; requests on those that exist may still come. -/
def isEnding (run : Run σ) : Bool := run.stopped || run.bridge.cancelled

def withStaking (run : Run σ) (f : Staking.Pipeline → Staking.Pipeline) : Run σ :=
  let app := run.bridge.app
  { run with bridge := { run.bridge with app := { app with staking := f app.staking } } }

def stop (run : Run σ) : Run σ := { run.withStaking .cancel with stopped := true }

def step (run : Run σ) : Happening → Session σ (Run σ)
  | .stop => return run.stop
  | .request r => do
    let (response, bridge, disk) ← Http.Bridge.handle (run.bridge, run.disk) r
    return { run with bridge, disk, responses := response :: run.responses }

def steps (run : Run σ) (happenings : List Happening) : Session σ (Run σ) :=
  happenings.foldlM step run

/-- A failed commit is reported only when nobody told the node to stop. -/
def outcome (run : Run σ) : Except Error Unit :=
  if run.bridge.cancelled && !run.stopped then .error .commitFailed else .ok ()

/-- Serving has ended. The pipeline is stopped, and nobody takes deltas any more. -/
def halt (run : Run σ) : Run σ :=
  { run with bridge := { run.bridge with app := run.bridge.app.shutdown } }

def close (run : Run σ) : Run σ := run.halt.withStaking .settle

end Run

end StakeLedger
