import StakeLedger.Node
import StakeLedger.Proofs.Outcome
import StakeLedger.Proofs.Session

namespace StakeLedger

open Network

namespace Node

variable {σ : Type} {link : Link σ} {config : Config} {disk : Disk} {s : σ} {e : Config.Error}

def EndsAt (address : Address) : Except BootError (Node σ) → Prop
  | .ok node => node.address = address
  | .error e => ∀ e', e ≠ .config e'

theorem start_endsAt (address : Address) : Session.Answers (start link config address disk) (EndsAt address) := by
  refine Session.answers_bind fun genesis => ?_
  cases genesis with
  | error e => exact Session.answers_pure nofun
  | ok genesis =>
    refine Session.answers_bind fun source => ?_
    cases source with
    | error e => exact Session.answers_pure nofun
    | ok source =>
      refine Session.answers_bind fun app => ?_
      cases app with
      | error e => exact Session.answers_pure nofun
      | ok app => exact Session.answers_pure rfl

theorem prepare_error (haddress : config.rpcAddress = .error e) : prepare config disk = .error (.config e) := by
  rw [prepare, haddress]
  rfl

theorem boot_eq : boot link config disk = match prepare config disk with
    | .error e => pure (.error e)
    | .ok (address, disk) => start link config address disk >>= fun started => pure (started.map (·, disk)) := by
  delta boot
  rfl

theorem boot_error (haddress : config.rpcAddress = .error e) :
    (boot link config disk).run.run s = (some (.error (.config e)), s) := by
  rw [boot_eq, prepare_error haddress]
  rfl

theorem prepare_ok {address : Address} (haddress : config.rpcAddress = .ok address) :
    prepare config disk = ((disk.createDirectories config.dataDirectory).mapError .io).map (address, ·) := by
  rw [prepare, haddress]
  rfl

theorem boot_endsAt {address : Address} (haddress : config.rpcAddress = .ok address) :
    Session.Answers (boot link config disk) fun booted => EndsAt address (booted.map Prod.fst) := by
  rw [boot_eq, prepare_ok haddress]
  cases disk.createDirectories config.dataDirectory with
  | error fault => exact Session.answers_pure nofun
  | ok made =>
    refine (start_endsAt address).bind fun started hstarted => Session.answers_pure ?_
    cases started with
    | error e => exact hstarted
    | ok node => exact hstarted

theorem boot_disk : Session.Answers (boot link config disk) fun booted => ∀ node made, booted = .ok (node, made) →
    disk.createDirectories config.dataDirectory = .ok made := by
  rw [boot_eq]
  cases haddress : config.rpcAddress with
  | error e =>
    rw [prepare_error haddress]
    exact Session.answers_pure fun _ _ h => nomatch h
  | ok address =>
    rw [prepare_ok haddress]
    cases disk.createDirectories config.dataDirectory with
    | error fault => exact Session.answers_pure fun _ _ h => nomatch h
    | ok made =>
      refine Session.answers_bind fun started => Session.answers_pure ?_
      intro node made' h
      cases started with
      | error e => cases h
      | ok node' =>
        cases h
        rfl

end Node

end StakeLedger
