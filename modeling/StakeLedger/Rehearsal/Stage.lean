import StakeLedger.Application.Bootstrap
import StakeLedger.Http.Bridge
import StakeLedger.Rehearsal.Services

/-!
An application in rehearsal, driven one step at a time. Between two steps the workers of its pipeline
make all the moves they can, so what a step shows does not depend on their speed.
-/

namespace StakeLedger.Rehearsal

open Platform

structure Stage where
  bridge : Http.Bridge World
  disk : Disk
  world : World

namespace Stage

def app (stage : Stage) : Application World := stage.bridge.app

def withApp (stage : Stage) (app : Application World) : Stage :=
  { stage with bridge :=
    { stage.bridge with app := { app with staking := app.staking.settle } } }

def settle (stage : Stage) : Stage := stage.withApp stage.app

def withStaking (stage : Stage) (staking : Staking.Pipeline) : Stage :=
  stage.withApp { stage.app with staking }

def ofApplication (app : Application World) (relays : Bool) (disk : Disk) (world : World) : Stage :=
  { bridge := ⟨app, relays, false⟩, disk, world : Stage }.settle

def bootstrap (settings : Application.Settings) (genesis : Genesis) (services : Option Services)
    (effects : Effects) (disk : Disk) : Option (Except Application.BootError Stage) :=
  let world := services.elim ({}, []) Services.world
  match Application.bootstrap settings genesis disk (fun _ => return false)
      (services.map Services.source) effects world with
  | (none, _) => none
  | (some (.error e), _) => some (.error e)
  | (some (.ok app), world) =>
    some (.ok (ofApplication app (services.any Services.relays) disk world))

def handle (stage : Stage) (relays : Bool) (request : Http.Request) :
    Option Http.Response × Stage :=
  let relaying := stage.bridge.relays
  let bridge := { stage.bridge with relays := relaying && relays }
  match Http.Bridge.handle (bridge, stage.disk) request stage.world with
  | (none, world) => (none, { stage with world })
  | (some (response, bridge, disk), world) =>
    (some response,
      { bridge := { bridge with relays := relaying }, disk, world : Stage }.settle)

def call {ε : Type} (stage : Stage) (c : Callback) (read : {α : Type} → Codec α → Except ε α) :
    Option (Except (Callback.Refusal ε) Json) × Stage :=
  match c.perform read (stage.app, stage.disk) stage.world with
  | (none, world) => (none, { stage with world })
  | (some (answer, app, disk), world) => (some answer, { stage with disk, world }.withApp app)

end Stage

end StakeLedger.Rehearsal
