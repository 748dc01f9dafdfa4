import StakeLedger.Genesis.Basic
import StakeLedger.State.Basic

/-!
Snapshots of the ledger's views under a directory, one file a phase. A snapshot is replaced by
renaming a finished file over it, so a reader finds either the old or the new one.
-/

namespace StakeLedger

structure Store where
  directory : Path
  deriving DecidableEq, Repr

namespace Store

def path (store : Store) (phase : Phase) : Path :=
  store.directory.join ⟨"abci-state-" ++ phase.name ++ ".json"⟩

/-- A view before its first block. A malformed application state counts as none. -/
def fresh (store : Store) (phase : Phase) (genesis : Genesis) : State :=
  let staking := match genesis.applicationParams with
    | .ok params => params.staking
    | .error _ => none
  { State.empty phase with path := some (store.path phase), staking }

/-- A snapshot that exists is what counts, and one that cannot be read is an error; the genesis
document only stands in for a missing one. -/
def load (store : Store) (disk : Disk) (phase : Phase) (genesis : Genesis) :
    Except StateError State :=
  let path := store.path phase
  if disk.holds path then
    match disk.read path with
    | .error fault => .error (.io path fault)
    | .ok content =>
      match State.codec.ofBytes content with
      | .error fault => .error (.corrupt path fault)
      | .ok state => .ok { state with path := some path }
  else .ok (store.fresh phase genesis)

end Store

namespace State

def temporaryPath (path : Path) : Path := path.withSuffix ".tmp"

/-- The steps of a save, each of which may be the last one that happens. -/
def saveActions (path : Path) (s : State) : List Disk.Action :=
  [.createDirectories path.parent,
    .write (temporaryPath path) (Bytes.ofString (codec.pretty s)),
    .rename (temporaryPath path) path]

def save (s : State) (disk : Disk) : Disk × Option StateError :=
  match s.path with
  | none => (disk, some (.unbound s.name))
  | some path =>
    let (disk, fault) := disk.performAll (saveActions path s)
    (disk, fault.map (.io path ·))

end State

end StakeLedger
